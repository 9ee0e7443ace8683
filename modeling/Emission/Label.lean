/-!
# Labels

The label of a number is an identifier: an underscore and the number's numeral in base 62, most
significant digit first, with the digits `0` to `9`, `a` to `z`, `A` to `Z` in this order.

The labels of different numbers differ, and since no digit is an underscore a row of labels can be
told apart again.
-/

namespace Emission.Label

/-- The digits, in the order of their values. -/
def alphabet : List Char :=
  "0123456789abcdefghijklmnopqrstuvwxyzABCDEFGHIJKLMNOPQRSTUVWXYZ".toList

/-- The character every label starts with. -/
def lead : Char := '_'

/-- The digit of value `d`, for `d` below 62. -/
def digit (d : Nat) : Char :=
  alphabet.getD d '0'

/-- The numeral of `n`: zero is one digit, any other number starts with a digit other than `0`. -/
def numeral (n : Nat) : List Char :=
  if n < 62 then [digit n] else numeral (n / 62) ++ [digit (n % 62)]

/-- Writes the label of `n` after `out`. -/
def write (n : Nat) (out : String) : String :=
  out.push lead ++ String.ofList (numeral n)

/-- The label of `n`. -/
def ofNat (n : Nat) : String :=
  write n ""

/-! ## Digits and numerals -/

theorem length_alphabet : alphabet.length = 62 := by decide

theorem numeral_of_lt {n : Nat} (h : n < 62) : numeral n = [digit n] := by
  rw [numeral, if_pos h]

theorem numeral_of_le {n : Nat} (h : 62 ≤ n) :
    numeral n = numeral (n / 62) ++ [digit (n % 62)] := by
  rw [numeral, if_neg (Nat.not_lt.mpr h)]

theorem toList_write (n : Nat) (out : String) :
    (write n out).toList = out.toList ++ lead :: numeral n := by
  simp [write, String.toList_append]

/-- Writing a label adds it at the end and changes nothing before. -/
theorem write_eq (n : Nat) (out : String) : write n out = out ++ ofNat n := by
  apply String.ext
  simp [ofNat, toList_write, String.toList_append]

end Emission.Label
