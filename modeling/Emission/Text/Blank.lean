/-!
# White space and ASCII case

* `isBlank` is the Unicode property `White_Space`, all twenty-five characters of it;
* `trim` takes the blank characters off both ends of a text, as many as there are;
* `sameUpToCase` compares two texts while ignoring the case of ASCII letters, and of these only.
-/

namespace Emission.Text

/-- Whether `c` has the Unicode property `White_Space`. -/
def isBlank (c : Char) : Bool :=
  let n := c.toNat
  (0x9 ≤ n && n ≤ 0xd) || n == 0x20 || n == 0x85 || n == 0xa0 || n == 0x1680 ||
    (0x2000 ≤ n && n ≤ 0x200a) || n == 0x2028 || n == 0x2029 || n == 0x202f || n == 0x205f ||
    n == 0x3000

/-- The text without the blank characters at its two ends. -/
def trim (cs : List Char) : List Char :=
  ((cs.dropWhile isBlank).reverse.dropWhile isBlank).reverse

/-- Whether two texts have the same characters up to the case of ASCII letters. (`Char.toLower` maps
    the letters A to Z and fixes every other character.) -/
def sameUpToCase (a b : List Char) : Bool :=
  a.map Char.toLower == b.map Char.toLower

end Emission.Text
