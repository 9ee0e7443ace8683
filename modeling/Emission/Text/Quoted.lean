import Emission.Text.Decimal
import Emission.Text.Unprintable

/-!
# Structural text

How a value is shown for inspection, with its constructors and field names:

* a string stands in double quotes, and a character that could not stand there as it is has an
  escape (`escape`);
* a constructor with unnamed fields is `Name(a)` (`applied`);
* a constructor with named fields is `Name { a: x, b: y }` on one line (`record`).
-/

namespace Emission.Text

/-! ## 1. Quoted strings -/

/-- The way `c` is written between double quotes. The quote and the backslash get a backslash; NUL,
    tab, carriage return and line feed have short names; any other character that is not shown as
    itself is written by its number in hexadecimal, without padding; and every other character stands
    for itself, the single quote too. -/
def escape (c : Char) : List Char :=
  if c = '"' ∨ c = '\\' then ['\\', c]
  else if c = '\x00' then ['\\', '0']
  else if c = '\t' then ['\\', 't']
  else if c = '\r' then ['\\', 'r']
  else if c = '\n' then ['\\', 'n']
  else if isUnprintable c then ['\\', 'u', '\x7b'] ++ Nat.toDigits 16 c.toNat ++ ['\x7d']
  else [c]

/-- The string `s` in double quotes. -/
def quoted (s : String) : String :=
  String.ofList ('"' :: s.toList.flatMap escape ++ ['"'])

/-- A tab has a short name, and an accent has its number; the letter that carries it does not. -/
example : quoted "a\t\u0301é" = "\"a\\t\\u\x7b301\x7dé\"" := by decide +kernel

/-- The word for a truth value. -/
def truth (b : Bool) : String :=
  if b then "true" else "false"

/-! ## 2. Constructors -/

/-- A constructor with one unnamed field. -/
def applied (constructor field : String) : String :=
  constructor ++ "(" ++ field ++ ")"

/-- A constructor with named fields, in the order given. -/
def record (constructor : String) (fields : List (String × String)) : String :=
  constructor ++ " \x7b " ++ ", ".intercalate (fields.map fun (name, value) => name ++ ": " ++ value)
    ++ " \x7d"

end Emission.Text
