import Emission.Label.Slots
import Emission.Proofs.Label
import Mathlib.Data.Nat.Digits.Lemmas

/-!
# Labels of words, written and read

* A numeral is the digits of its number, the most significant first (`numeral_eq_digits`), and it has
  `k` digits or fewer exactly if the number is below the `k`th power of 62 (`length_numeral_le_iff`).
* Filling slots with the digits of a number puts them behind one another from the last digit on
  (`Slots.exists_fill?`). The digits of a word find room in six slots, so every word has a label
  (`writeWord?_eq`).
* A text is a numeral if it has letters and digits only, at least one of them, and begins with a zero
  only if it is nothing else (`IsNumeral`). Such a text is the numeral of its value (`numeral_value`), and
  no text of the same value is shorter (`length_numeral_le_of_value`).
-/

namespace Emission.Label

/-! ## 1. Digits of numerals -/

/-- **A numeral is the digits of its number**, the most significant first. -/
theorem numeral_eq_digits {n : Nat} (h : n ≠ 0) :
    numeral n = ((Nat.digits 62 n).map digit).reverse := by
  induction n using Nat.strongRecOn with
  | ind n ih =>
    rw [Nat.digits_def' (by decide) (Nat.pos_of_ne_zero h), List.map_cons, List.reverse_cons]
    by_cases hn : n < 62
    · rw [numeral_of_lt hn, Nat.mod_eq_of_lt hn, Nat.div_eq_of_lt hn]
      rfl
    · have hdiv : n / 62 ≠ 0 := by omega
      rw [numeral_of_le (Nat.not_lt.mp hn), ih (n / 62) (by omega) hdiv]

theorem numeral_zero : numeral 0 = ['0'] := by
  rw [numeral_of_lt (by decide)]
  rfl

/-- **How long a numeral is.** -/
theorem length_numeral_le_iff {k : Nat} (hk : 0 < k) (n : Nat) :
    (numeral n).length ≤ k ↔ n < 62 ^ k := by
  by_cases h : n = 0
  · subst h
    have hpow : 0 < 62 ^ k := Nat.pow_pos (by decide)
    rw [numeral_zero]
    exact ⟨fun _ => hpow, fun _ => hk⟩
  · rw [numeral_eq_digits h, List.length_reverse, List.length_map,
      Nat.digits_length_le_iff (by decide)]

/-! ## 2. Slots -/

namespace Slots

theorem getElem?_alphabet {d : Nat} (h : d < 62) : alphabet[d]? = some (digit d) := by
  rw [digit_eq_getElem (lt_length_alphabet h)]
  exact List.getElem?_eq_getElem (lt_length_alphabet h)

theorem filled_empty : empty.filled = [] := rfl

/-- **Filling a slot** puts a character behind those that are there, as long as there is room. -/
theorem exists_put? {s : Slots} (h : s.used < slotCount) (c : Char) :
    ∃ t, s.put? c = some t ∧ t.used = s.used + 1 ∧ t.filled = s.filled ++ [c] := by
  refine ⟨⟨s.digits.set s.used c h, s.used + 1, h⟩, dif_pos h, rfl, ?_⟩
  have hlength : s.used < s.digits.toList.length := by
    rw [Vector.length_toList]
    exact h
  have hset : (s.digits.set s.used c h).toList =
      s.filled ++ c :: s.digits.toList.drop (s.used + 1) := by
    rw [Vector.toList_set, List.set_eq_take_append_cons_drop, if_pos hlength, filled]
  have hused : s.filled.length = s.used := by
    rw [filled, List.length_take, Nat.min_eq_left (Nat.le_of_lt hlength)]
  show (s.digits.set s.used c h).toList.take (s.used + 1) = s.filled ++ [c]
  rw [hset, ← hused, List.take_length_add_append]
  rfl

/-- **The digits of a number behind those that are there**, the last digit first, as long as there is
    room for all of them. -/
theorem exists_fill? {n : UInt32} {s : Slots}
    (h : s.used + (Nat.digits 62 n.toNat).length ≤ slotCount) :
    ∃ t, s.fill? n = some t ∧ t.filled = s.filled ++ (Nat.digits 62 n.toNat).map digit := by
  induction hn : n.toNat using Nat.strongRecOn generalizing n s with
  | ind k ih =>
    subst hn
    rw [fill?]
    by_cases h0 : n = 0
    · subst h0
      exact ⟨s, rfl, by simp⟩
    · have hpos : 0 < n.toNat := by
        refine Nat.pos_of_ne_zero fun hzero => h0 (UInt32.toNat_inj.mp hzero)
      have hdigits : Nat.digits 62 n.toNat = n.toNat % 62 :: Nat.digits 62 (n / 62).toNat := by
        rw [Nat.digits_def' (by decide) hpos]
        rfl
      have hmod : (n % 62).toNat = n.toNat % 62 := rfl
      rw [hdigits, List.length_cons] at h
      obtain ⟨t, hput, hused, hfilled⟩ := exists_put? (s := s) (by omega) (digit (n.toNat % 62))
      have hless : (n / 62).toNat < n.toNat := Nat.div_lt_self hpos (by decide)
      obtain ⟨u, hfill, hrest⟩ := ih (n / 62).toNat hless (n := n / 62) (s := t) (by omega) rfl
      refine ⟨u, ?_, ?_⟩
      · rw [dif_neg h0, hmod, getElem?_alphabet (Nat.mod_lt _ (by decide))]
        change (do let s ← s.put? _; s.fill? (n / 62)) = some u
        rw [hput]
        exact hfill
      · rw [hrest, hfilled, hdigits, List.map_cons, List.append_assoc]
        rfl

end Slots

theorem foldl_push (cs : List Char) (out : String) :
    cs.foldl String.push out = out ++ String.ofList cs := by
  induction cs generalizing out with
  | nil => simp
  | cons c cs ih =>
    rw [List.foldl_cons, ih]
    apply String.ext
    simp

/-- **Every word has a label, and it is the label of its number.** The slots suffice for its digits. -/
theorem writeWord?_eq (n : UInt32) (out : String) :
    writeWord? n out = some (out ++ ofNat n.toNat) := by
  rw [← write_eq, write, writeWord?]
  by_cases h : n = 0
  · subst h
    rw [if_pos rfl, show (0 : UInt32).toNat = 0 from rfl, numeral_zero]
    rfl
  · have hn : n.toNat ≠ 0 := fun hzero => h (UInt32.toNat_inj.mp hzero)
    have hroom : Slots.empty.used + (Nat.digits 62 n.toNat).length ≤ slotCount := by
      have hword : n.toNat < 62 ^ slotCount := Nat.lt_trans n.toNat_lt (by decide)
      rw [← Nat.digits_length_le_iff (by decide)] at hword
      exact (Nat.zero_add _).trans_le hword
    obtain ⟨s, hfill, hfilled⟩ := Slots.exists_fill? hroom
    rw [if_neg h, hfill, Option.map_some, foldl_push, hfilled, Slots.filled_empty, List.nil_append,
      ← numeral_eq_digits hn]

/-! ## 3. Which texts are numerals -/

/-- Letters and digits, at least one, and no zero before others. -/
def IsNumeral (cs : List Char) : Prop :=
  cs ≠ [] ∧ (∀ c ∈ cs, c.isAlphanum = true) ∧ (cs.head? = some '0' → cs = ['0'])

/-- A letter or digit is below 128. -/
theorem toNat_lt_of_isAlphanum {c : Char} (h : c.isAlphanum = true) : c.toNat < 128 := by
  have hlast : c.val ≤ 'Z'.val ∨ c.val ≤ 'z'.val ∨ c.val ≤ '9'.val := by
    have hclass : (c.isUpper = true ∨ c.isLower = true) ∨ c.isDigit = true := by
      rw [← Bool.or_eq_true, ← Bool.or_eq_true]
      exact h
    rcases hclass with (hupper | hlower) | hdigit
    · exact .inl (of_decide_eq_true hupper).2
    · exact .inr (.inl (of_decide_eq_true (Bool.and_eq_true_iff.mp hlower).2))
    · exact .inr (.inr (of_decide_eq_true (Bool.and_eq_true_iff.mp hdigit).2))
  rcases hlast with hle | hle | hle <;>
    exact Nat.lt_of_le_of_lt (UInt32.le_iff_toNat_le.mp hle) (by decide)

/-- **Every letter and digit is in the alphabet.** -/
theorem mem_alphabet_of_isAlphanum {c : Char} (h : c.isAlphanum = true) : c ∈ alphabet := by
  have hall : ∀ n < 128, (Char.ofNat n).isAlphanum = true → Char.ofNat n ∈ alphabet := by
    decide +kernel
  have hc := hall c.toNat (toNat_lt_of_isAlphanum h)
  rw [Char.ofNat_toNat] at hc
  exact hc h

theorem digit_idxOf {c : Char} (h : c.isAlphanum = true) : digit (alphabet.idxOf c) = c := by
  have hlt : alphabet.idxOf c < alphabet.length :=
    List.idxOf_lt_length_of_mem (mem_alphabet_of_isAlphanum h)
  rw [digit_eq_getElem hlt, List.getElem_idxOf]

theorem idxOf_lt {c : Char} (h : c.isAlphanum = true) : alphabet.idxOf c < 62 := by
  rw [← length_alphabet]
  exact List.idxOf_lt_length_of_mem (mem_alphabet_of_isAlphanum h)

/-- The value of `k` digits is below the `k`th power of 62. -/
theorem value_lt_pow {cs : List Char} (h : ∀ c ∈ cs, c.isAlphanum = true) :
    value cs < 62 ^ cs.length := by
  induction cs using List.reverseRecOn with
  | nil => decide
  | append_singleton cs c ih =>
    have hcs : value cs < 62 ^ cs.length := ih fun d hd => h d (List.mem_append_left [c] hd)
    have hc : alphabet.idxOf c < 62 := idxOf_lt (h c (by simp))
    rw [value_append_singleton, List.length_append, List.length_singleton, Nat.pow_succ]
    omega

/-- **A text that has the form of a numeral is the numeral of its value.** -/
theorem numeral_value {cs : List Char} (h : IsNumeral cs) : numeral (value cs) = cs := by
  induction cs using List.reverseRecOn with
  | nil => exact absurd rfl h.1
  | append_singleton cs c ih =>
    obtain ⟨-, halnum, hzero⟩ := h
    have hc : c.isAlphanum = true := halnum c (by simp)
    have hlt : alphabet.idxOf c < 62 := idxOf_lt hc
    rw [value_append_singleton]
    cases cs with
    | nil =>
      show numeral (62 * 0 + alphabet.idxOf c) = [c]
      rw [Nat.mul_zero, Nat.zero_add, numeral_of_lt hlt, digit_idxOf hc]
    | cons d ds =>
      -- a zero at the head would be all there is, but `c` comes after it
      have hd : d ≠ '0' := fun e => by
        have hall := hzero (by rw [e]; rfl)
        simp at hall
      have hinner : IsNumeral (d :: ds) :=
        ⟨List.cons_ne_nil d ds, fun x hx => halnum x (List.mem_append_left [c] hx),
          fun e => absurd (Option.some.inj e) hd⟩
      have hnumeral : numeral (value (d :: ds)) = d :: ds := ih hinner
      have hpos : value (d :: ds) ≠ 0 := fun e => by
        rw [e, numeral_zero] at hnumeral
        exact hd (List.cons.inj hnumeral).1.symm
      rw [numeral_of_le (by omega), Nat.mul_add_div (by decide), Nat.div_eq_of_lt hlt, Nat.add_zero,
        Nat.mul_add_mod, Nat.mod_eq_of_lt hlt, hnumeral, digit_idxOf hc]

/-- Only zero has a numeral that begins with a zero. -/
theorem eq_zero_of_head?_numeral {n : Nat} (h : (numeral n).head? = some '0') : n = 0 := by
  induction n using Nat.strongRecOn with
  | ind n ih =>
    by_cases hn : n < 62
    · rw [numeral_of_lt hn, List.head?_cons] at h
      have hd : digit n = digit 0 := Option.some.inj h
      rw [← idxOf_digit hn, hd]
      rfl
    · rw [numeral_of_le (Nat.not_lt.mp hn), List.head?_append_of_ne_nil _ (numeral_ne_nil _)] at h
      have hdiv : n / 62 = 0 := ih (n / 62) (by omega) h
      omega

theorem isNumeral_numeral (n : Nat) : IsNumeral (numeral n) := by
  refine ⟨numeral_ne_nil n, isAlphanum_numeral n, fun h => ?_⟩
  rw [eq_zero_of_head?_numeral h, numeral_zero]

/-- **A text is the label of a number** exactly if it is an underscore before a numeral of this value. -/
theorem eq_ofNat_iff {s : String} {n : Nat} :
    s = ofNat n ↔ ∃ cs, s.toList = lead :: cs ∧ IsNumeral cs ∧ value cs = n := by
  constructor
  · rintro rfl
    exact ⟨numeral n, toList_ofNat n, isNumeral_numeral n, value_numeral n⟩
  · rintro ⟨cs, hs, hcs, rfl⟩
    apply String.ext
    rw [hs, toList_ofNat, numeral_value hcs]

/-! ## 4. Sizes -/

/-- **No text of letters and digits that has the value of a number is shorter than its numeral.** -/
theorem length_numeral_le_of_value {cs : List Char} (hne : cs ≠ [])
    (h : ∀ c ∈ cs, c.isAlphanum = true) : (numeral (value cs)).length ≤ cs.length := by
  rw [length_numeral_le_iff (List.length_pos_iff.mpr hne)]
  exact value_lt_pow h

/-- Letters and digits have one byte each. -/
theorem utf8ByteSize_foldl_push {cs : List Char} (h : ∀ c ∈ cs, c.isAlphanum = true) (out : String) :
    (cs.foldl String.push out).utf8ByteSize = out.utf8ByteSize + cs.length := by
  induction cs generalizing out with
  | nil => rfl
  | cons c cs ih =>
    have hc : c.utf8Size = 1 := by
      have hlt : c.toNat < 128 := toNat_lt_of_isAlphanum (h c List.mem_cons_self)
      rw [Char.utf8Size_eq_one_iff, UInt32.le_iff_toNat_le]
      exact Nat.le_of_lt_succ hlt
    rw [List.foldl_cons, ih fun d hd => h d (List.mem_cons_of_mem c hd), String.utf8ByteSize_push, hc,
      List.length_cons]
    omega

theorem utf8ByteSize_ofNat (n : Nat) : (ofNat n).utf8ByteSize = (numeral n).length + 1 := by
  have hlead : ("".push lead).utf8ByteSize = 1 := rfl
  rw [ofNat, write, ← foldl_push, utf8ByteSize_foldl_push (isAlphanum_numeral n), hlead,
    Nat.add_comm]

theorem ofNat_injective : Function.Injective ofNat := by
  intro i j h
  have hlist : lead :: numeral i = lead :: numeral j := by
    rw [← toList_ofNat, ← toList_ofNat, h]
  exact numeral_injective (List.cons.inj hlist).2

/-! ## 5. Labels of words -/

/-- **The labels of words.** Every word has a label, which six slots suffice to write: an underscore,
    and the digits of the number in base 62, the most significant first. Read digit by digit it is the
    number again. It has from two to seven bytes, all of them letters and digits after the underscore,
    and no shorter text of letters and digits has the value of the number. A text is the label of some
    word exactly if it is an underscore and the form of a numeral whose value is that of a word; and
    different words have different labels. -/
theorem codec_word :
    (∀ n : UInt32,
      (∀ out, writeWord? n out = some (out ++ ofNat n.toNat)) ∧
      (ofNat n.toNat).toList = lead :: numeral n.toNat ∧
      numeral n.toNat =
        (if n = 0 then [digit 0] else ((Nat.digits 62 n.toNat).map digit).reverse) ∧
      value (numeral n.toNat) = n.toNat ∧
      Form (ofNat n.toNat) ∧
      2 ≤ (ofNat n.toNat).utf8ByteSize ∧ (ofNat n.toNat).utf8ByteSize ≤ 7 ∧
      ∀ cs, cs ≠ [] → (∀ c ∈ cs, c.isAlphanum = true) → value cs = n.toNat →
        (numeral n.toNat).length ≤ cs.length) ∧
    (∀ s : String, (∃ n : UInt32, s = ofNat n.toNat) ↔
      ∃ cs, s.toList = lead :: cs ∧ IsNumeral cs ∧ value cs < 2 ^ 32) ∧
    (∀ m n : UInt32, ofNat m.toNat = ofNat n.toNat → m = n) := by
  refine ⟨fun n => ⟨writeWord?_eq n, toList_ofNat _, ?_, value_numeral _, form_ofNat _, ?_, ?_, ?_⟩,
    fun s => ?_, fun m n h => UInt32.toNat_inj.mp (ofNat_injective h)⟩
  · by_cases h : n = 0
    · subst h
      rw [if_pos rfl]
      exact numeral_zero
    · rw [if_neg h]
      exact numeral_eq_digits fun hzero => h (UInt32.toNat_inj.mp hzero)
  · rw [utf8ByteSize_ofNat]
    have hpos : 0 < (numeral n.toNat).length := List.length_pos_iff.mpr (numeral_ne_nil _)
    omega
  · have hword : n.toNat < 62 ^ 6 := Nat.lt_trans n.toNat_lt (by decide)
    rw [utf8ByteSize_ofNat]
    exact Nat.succ_le_succ ((length_numeral_le_iff (by decide) _).mpr hword)
  · rintro cs hne hcs hvalue
    rw [← hvalue]
    exact length_numeral_le_of_value hne hcs
  · constructor
    · rintro ⟨n, hs⟩
      obtain ⟨cs, hlist, hcs, hvalue⟩ := eq_ofNat_iff.mp hs
      exact ⟨cs, hlist, hcs, hvalue ▸ n.toNat_lt⟩
    · rintro ⟨cs, hlist, hcs, hlt⟩
      refine ⟨UInt32.ofNatLT (value cs) hlt, ?_⟩
      rw [UInt32.toNat_ofNatLT]
      exact eq_ofNat_iff.mpr ⟨cs, hlist, hcs, rfl⟩

/-- The greatest word has one of the longest labels. The text after it is the label of no word, and
    neither is one with a zero before other digits. -/
theorem codec_word_greatest :
    writeWord? 4294967295 "x" = some "x_4GFfc3" ∧
      (∃ n : UInt32, "_4GFfc3" = ofNat n.toNat) ∧
      (¬ ∃ n : UInt32, "_4GFfc4" = ofNat n.toNat) ∧
      (¬ ∃ n : UInt32, "_04" = ofNat n.toNat) ∧
      (numeral 4294967295).length ≤ "04GFfc3".toList.length := by
  obtain ⟨hwrite, -, -, -, -, -, -, hshortest⟩ := codec_word.1 4294967295
  have hlabel : "x" ++ ofNat 4294967295 = "x_4GFfc3" := by decide +kernel
  have hvalue : value "04GFfc3".toList = 4294967295 := by decide +kernel
  refine ⟨?_, ?_, ?_, ?_, ?_⟩
  · rw [hwrite]
    exact congrArg some hlabel
  · have hnumeral : IsNumeral "4GFfc3".toList :=
      ⟨by decide, List.all_eq_true.mp (by decide), by decide⟩
    exact (codec_word.2.1 _).mpr ⟨_, rfl, hnumeral, by decide +kernel⟩
  · intro hword
    obtain ⟨cs, hlist, -, hlt⟩ := (codec_word.2.1 _).mp hword
    have hcs : cs = "4GFfc4".toList := (List.cons.inj hlist).2.symm
    rw [hcs] at hlt
    exact absurd hlt (by decide +kernel)
  · intro hword
    obtain ⟨cs, hlist, ⟨-, -, hzero⟩, -⟩ := (codec_word.2.1 _).mp hword
    have hcs : cs = "04".toList := (List.cons.inj hlist).2.symm
    rw [hcs] at hzero
    exact absurd (hzero rfl) (by decide)
  · exact hshortest _ (by decide) (List.all_eq_true.mp (by decide)) hvalue

end Emission.Label
