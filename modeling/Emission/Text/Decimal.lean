/-!
# Decimal numerals and repeated text

Two small producers of text: the decimal numeral of an integer (`decimal`, with a minus sign before a
negative one) and a text repeated a number of times (`copies`), which is what an indentation is.
The law of `copies` used throughout is that its size is the product: `utf8ByteSize_copies`.
-/

namespace Emission.Text

/-- The decimal numeral of `n`, the shortest one. -/
def natural (n : Nat) : String :=
  String.ofList (Nat.toDigits 10 n)

/-- The decimal numeral of `n`; a negative number has a minus sign before its magnitude. -/
def decimal : Int → String
  | .ofNat n => natural n
  | .negSucc n => "-" ++ natural (n + 1)

/-- The text `s` written `n` times. -/
def copies (s : String) (n : Nat) : String :=
  n.repeat (· ++ s) ""

@[simp] theorem copies_zero (s : String) : copies s 0 = "" := rfl

theorem copies_succ (s : String) (n : Nat) : copies s (n + 1) = copies s n ++ s := rfl

/-- Nothing repeated is nothing. -/
@[simp] theorem copies_empty (n : Nat) : copies "" n = "" := by
  induction n with
  | zero => rfl
  | succ n ih => rw [copies_succ, ih, String.empty_append]

/-- **Repeating multiplies the size.** -/
@[simp] theorem utf8ByteSize_copies (s : String) (n : Nat) :
    (copies s n).utf8ByteSize = n * s.utf8ByteSize := by
  induction n with
  | zero => simp
  | succ n ih => rw [copies_succ, String.utf8ByteSize_append, ih, Nat.succ_mul]

end Emission.Text
