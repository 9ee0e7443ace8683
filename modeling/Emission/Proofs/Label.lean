import Emission.Label
import Mathlib.Data.List.Basic
import Mathlib.Data.List.Nodup

/-!
# Reading labels

A label says which number it is the label of, also with other text after it.

* The value of a numeral, read digit by digit, is the number it was made from (`value_numeral`), so
  different numbers have different numerals.
* A label is an underscore and at least one letter or digit (`Form`, `form_ofNat`).
* The letters and digits after the first character of a text are its `stem`. The stem of a label is
  its numeral, whatever follows, as long as that is not a letter or a digit (`stem_ofNat_append`).
-/

namespace Emission.Label

/-! ## 1. Values -/

/-- The number that some digits stand for, the most significant first. -/
def value (cs : List Char) : Nat :=
  cs.foldl (fun n c => 62 * n + alphabet.idxOf c) 0

theorem value_append_singleton (cs : List Char) (c : Char) :
    value (cs ++ [c]) = 62 * value cs + alphabet.idxOf c := by
  unfold value
  rw [List.foldl_append, List.foldl_cons, List.foldl_nil]

theorem nodup_alphabet : alphabet.Nodup := by decide +kernel

theorem lt_length_alphabet {d : Nat} (h : d < 62) : d < alphabet.length := by
  rw [length_alphabet]
  exact h

theorem digit_eq_getElem {d : Nat} (h : d < alphabet.length) : digit d = alphabet[d] := by
  unfold digit
  rw [List.getD_eq_getElem?_getD, List.getElem?_eq_getElem h, Option.getD_some]

/-- The digit of a value has this value. -/
theorem idxOf_digit {d : Nat} (h : d < 62) : alphabet.idxOf (digit d) = d := by
  rw [digit_eq_getElem (lt_length_alphabet h), List.Nodup.idxOf_getElem nodup_alphabet]

/-- **A numeral, read again, is the number.** -/
theorem value_numeral (n : Nat) : value (numeral n) = n := by
  induction n using Nat.strongRecOn with
  | ind n ih =>
    by_cases h : n < 62
    · have hdigit : value [digit n] = 62 * value [] + alphabet.idxOf (digit n) :=
        value_append_singleton [] (digit n)
      rw [numeral_of_lt h, hdigit, idxOf_digit h]
      exact Nat.zero_add n
    · have hle : 62 ≤ n := Nat.not_lt.mp h
      have hdiv : n / 62 < n := Nat.div_lt_self (by omega) (by omega)
      rw [numeral_of_le hle, value_append_singleton, ih (n / 62) hdiv,
        idxOf_digit (Nat.mod_lt n (by omega))]
      exact Nat.div_add_mod n 62

theorem numeral_injective : Function.Injective numeral :=
  Function.LeftInverse.injective value_numeral

/-! ## 2. The form of a label -/

theorem isAlphanum_alphabet : ∀ c ∈ alphabet, c.isAlphanum = true := by
  have hall : alphabet.all Char.isAlphanum = true := by decide
  exact List.all_eq_true.mp hall

theorem isAlphanum_digit {d : Nat} (h : d < 62) : (digit d).isAlphanum = true := by
  rw [digit_eq_getElem (lt_length_alphabet h)]
  exact isAlphanum_alphabet _ (List.getElem_mem _)

theorem isAlphanum_numeral (n : Nat) : ∀ c ∈ numeral n, c.isAlphanum = true := by
  induction n using Nat.strongRecOn with
  | ind n ih =>
    intro c hc
    by_cases h : n < 62
    · rw [numeral_of_lt h, List.mem_singleton] at hc
      rw [hc]
      exact isAlphanum_digit h
    · have hle : 62 ≤ n := Nat.not_lt.mp h
      rw [numeral_of_le hle, List.mem_append, List.mem_singleton] at hc
      cases hc with
      | inl hc => exact ih (n / 62) (Nat.div_lt_self (by omega) (by omega)) c hc
      | inr hc =>
        rw [hc]
        exact isAlphanum_digit (Nat.mod_lt n (by omega))

theorem numeral_ne_nil (n : Nat) : numeral n ≠ [] := by
  by_cases h : n < 62
  · rw [numeral_of_lt h]
    exact List.cons_ne_nil _ _
  · rw [numeral_of_le (Nat.not_lt.mp h)]
    exact List.append_ne_nil_of_right_ne_nil _ (List.cons_ne_nil _ _)

/-- An underscore and at least one letter or digit. -/
def Form (s : String) : Prop :=
  s.toList.head? = some lead ∧ s.toList.tail ≠ [] ∧ s.toList.tail.all Char.isAlphanum = true

instance : DecidablePred Form := fun s =>
  inferInstanceAs (Decidable (s.toList.head? = some lead ∧ s.toList.tail ≠ [] ∧
    s.toList.tail.all Char.isAlphanum = true))

theorem toList_ofNat (n : Nat) : (ofNat n).toList = lead :: numeral n := by
  rw [ofNat, toList_write]
  rfl

theorem ofNat_ne_empty (n : Nat) : ofNat n ≠ "" := by
  intro h
  have hlist := toList_ofNat n
  rw [h] at hlist
  cases hlist

theorem form_ofNat (n : Nat) : Form (ofNat n) := by
  unfold Form
  rw [toList_ofNat]
  exact ⟨rfl, numeral_ne_nil n, List.all_eq_true.mpr (isAlphanum_numeral n)⟩

/-! ## 3. Labels with text after them -/

/-- The letters and digits after the first character of a text. -/
def stem (s : String) : List Char :=
  s.toList.tail.takeWhile Char.isAlphanum

/-- **The stem of a label is its numeral, whatever follows** that does not begin with a letter or a
    digit. -/
theorem stem_ofNat_append (n : Nat) {t : String}
    (ht : ∀ c, t.toList.head? = some c → c.isAlphanum = false) :
    stem (ofNat n ++ t) = numeral n := by
  have hrest : t.toList.takeWhile Char.isAlphanum = [] := by
    cases h : t.toList with
    | nil => rfl
    | cons c cs =>
      have hc : c.isAlphanum = false := ht c (by rw [h, List.head?_cons])
      rw [List.takeWhile_cons, hc]
      rfl
  unfold stem
  rw [String.toList_append, toList_ofNat, List.cons_append, List.tail_cons,
    List.takeWhile_append_of_pos (isAlphanum_numeral n), hrest, List.append_nil]

/-- Two labels with such text after them are labels of one number if they are one text. -/
theorem eq_of_ofNat_append_eq {i j : Nat} {s t : String}
    (hs : ∀ c, s.toList.head? = some c → c.isAlphanum = false)
    (ht : ∀ c, t.toList.head? = some c → c.isAlphanum = false)
    (h : ofNat i ++ s = ofNat j ++ t) : i = j := by
  apply numeral_injective
  rw [← stem_ofNat_append i hs, ← stem_ofNat_append j ht, h]

end Emission.Label
