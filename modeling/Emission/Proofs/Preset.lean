import Emission.Config.Preset
import Mathlib.Data.List.Basic
import Mathlib.Data.List.Forall2
import Mathlib.Data.List.TakeWhile

/-!
# Texts that name a preset

Which texts name a preset can be said without taking anything off them: a text names a preset if it
can be split into white space, the name in some casing, and white space again (`Preset.NamedBy`).

* `Text.whiteSpace` lists the characters that are white space, and `Text.SameLetter` says which
  characters differ in nothing but the case of an ASCII letter. That the tests on characters decide
  just this is `Text.isBlank_iff` and `Text.toLower_eq_iff`.
* Of all splits into white space, a text without any, and white space, the one in the middle is what
  is left when as much as possible is taken off the two ends (`Text.trim_eq`).
* `Preset.ofText_grammar`: these are the texts that are read as a preset, each as one, and every other
  text is quoted in its refusal as it was given.
-/

namespace Emission

/-! ## 1. Characters -/

namespace Text

/-- The characters with the Unicode property `White_Space`. -/
def whiteSpace : List Char :=
  ['\t', '\n', '\x0b', '\x0c', '\r', ' ', '\u0085', '\u00a0', '\u1680', '\u2000', '\u2001', '\u2002',
    '\u2003', '\u2004', '\u2005', '\u2006', '\u2007', '\u2008', '\u2009', '\u200a', '\u2028', '\u2029',
    '\u202f', '\u205f', '\u3000']

theorem isBlank_iff {c : Char} : isBlank c = true ↔ c ∈ whiteSpace := by
  have hnumber : c ∈ whiteSpace ↔ c.toNat ∈ whiteSpace.map Char.toNat :=
    (List.mem_map_of_injective fun _ _ => Char.toNat_inj.mp).symm
  have hnumbers : whiteSpace.map Char.toNat =
      [0x9, 0xa, 0xb, 0xc, 0xd, 0x20, 0x85, 0xa0, 0x1680, 0x2000, 0x2001, 0x2002, 0x2003, 0x2004,
        0x2005, 0x2006, 0x2007, 0x2008, 0x2009, 0x200a, 0x2028, 0x2029, 0x202f, 0x205f, 0x3000] := rfl
  rw [hnumber, hnumbers]
  simp only [isBlank, Bool.or_eq_true, Bool.and_eq_true, decide_eq_true_eq, beq_iff_eq,
    List.mem_cons, List.not_mem_nil, or_false]
  omega

/-- The characters are the same, or the capital and the small form of one ASCII letter. -/
def SameLetter (c d : Char) : Prop :=
  c = d ∨ ∃ k < 26, (c.toNat = 'A'.toNat + k ∧ d.toNat = 'a'.toNat + k) ∨
    (c.toNat = 'a'.toNat + k ∧ d.toNat = 'A'.toNat + k)

theorem toNat_toLower (c : Char) :
    c.toLower.toNat = if 65 ≤ c.toNat ∧ c.toNat ≤ 90 then c.toNat + 32 else c.toNat := by
  have hrange : c.val ≥ 'A'.val ∧ c.val ≤ 'Z'.val ↔ 65 ≤ c.toNat ∧ c.toNat ≤ 90 := Iff.rfl
  unfold Char.toLower
  split
  · rename_i h
    rw [if_pos (hrange.mp h), Char.toNat_mk, UInt32.toNat_add]
    have hc := hrange.mp h
    change (c.toNat + 32) % 2 ^ 32 = c.toNat + 32
    omega
  · rename_i h
    rw [if_neg (mt hrange.mpr h)]

/-- **Characters have one small form exactly when they differ in nothing but case.** -/
theorem toLower_eq_iff {c d : Char} : c.toLower = d.toLower ↔ SameLetter c d := by
  have hA : 'A'.toNat = 65 := rfl
  have ha : 'a'.toNat = 97 := rfl
  rw [← Char.toNat_inj, toNat_toLower, toNat_toLower, SameLetter, ← Char.toNat_inj, hA, ha]
  constructor
  · intro h
    split at h <;> split at h
    · exact .inl (by omega)
    · exact .inr ⟨c.toNat - 65, by omega, .inl ⟨by omega, by omega⟩⟩
    · exact .inr ⟨d.toNat - 65, by omega, .inr ⟨by omega, by omega⟩⟩
    · exact .inl h
  · rintro (h | ⟨k, hk, ⟨hc, hd⟩ | ⟨hc, hd⟩⟩)
    · rw [h]
    · rw [hc, hd, if_pos (by omega), if_neg (by omega)]
      omega
    · rw [hc, hd, if_neg (by omega), if_pos (by omega)]
      omega

theorem sameUpToCase_iff {a b : List Char} :
    sameUpToCase a b = true ↔ List.Forall₂ SameLetter b a := by
  rw [sameUpToCase, beq_iff_eq, eq_comm, ← List.forall₂_eq_eq_eq, List.forall₂_map_left_iff,
    List.forall₂_map_right_iff]
  simp only [toLower_eq_iff]

/-! ## 2. White space at the ends -/

/-- **What is taken off the ends is white space.** -/
theorem exists_trim (cs : List Char) :
    ∃ before after, cs = before ++ trim cs ++ after ∧ (∀ c ∈ before, isBlank c = true) ∧
      (∀ c ∈ after, isBlank c = true) := by
  have hblank : ∀ ds : List Char, ∀ c ∈ ds.takeWhile isBlank, isBlank c = true :=
    fun ds c hc => List.mem_takeWhile_imp hc
  have hend : cs.dropWhile isBlank =
      trim cs ++ ((cs.dropWhile isBlank).reverse.takeWhile isBlank).reverse := by
    rw [trim, ← List.reverse_append, List.takeWhile_append_dropWhile, List.reverse_reverse]
  refine ⟨cs.takeWhile isBlank, ((cs.dropWhile isBlank).reverse.takeWhile isBlank).reverse, ?_,
    hblank cs, fun c hc => hblank _ c (List.mem_reverse.mp hc)⟩
  rw [List.append_assoc, ← hend, List.takeWhile_append_dropWhile]

/-- **All white space at the ends is taken off**, whatever its amount, and nothing else. -/
theorem trim_eq {before cs after : List Char} (hbefore : ∀ c ∈ before, isBlank c = true)
    (hcs : ∀ c ∈ cs, isBlank c = false) (hafter : ∀ c ∈ after, isBlank c = true) :
    trim (before ++ cs ++ after) = cs := by
  have hafter' : ∀ c ∈ after.reverse, isBlank c = true :=
    fun c hc => hafter c (List.mem_reverse.mp hc)
  cases cs with
  | nil =>
    have hall : ∀ c ∈ before ++ [] ++ after, isBlank c = true :=
      List.forall_mem_append.mpr ⟨by simpa using hbefore, hafter⟩
    rw [trim, List.dropWhile_eq_nil_iff.mpr hall]
    rfl
  | cons d ds =>
    have hd : ¬ isBlank d = true := Bool.eq_false_iff.mp (hcs d List.mem_cons_self)
    have hstart : (before ++ d :: ds ++ after).dropWhile isBlank = d :: ds ++ after := by
      rw [List.append_assoc, List.dropWhile_append_of_pos hbefore, List.cons_append,
        List.dropWhile_cons_of_neg hd]
    have hlast : (d :: ds).reverse.dropWhile isBlank = (d :: ds).reverse := by
      rw [List.dropWhile_eq_self_iff]
      intro hlength hblank
      have hmem := List.mem_reverse.mp (List.getElem_mem hlength)
      exact Bool.eq_false_iff.mp (hcs _ hmem) hblank
    rw [trim, hstart, List.reverse_append, List.dropWhile_append_of_pos hafter', hlast,
      List.reverse_reverse]

theorem isAlpha_iff {c : Char} :
    c.isAlpha = true ↔ (65 ≤ c.toNat ∧ c.toNat ≤ 90) ∨ (97 ≤ c.toNat ∧ c.toNat ≤ 122) := by
  have hupper : c.isUpper = true ↔ 65 ≤ c.toNat ∧ c.toNat ≤ 90 := decide_eq_true_iff
  have hlower : c.isLower = true ↔ 97 ≤ c.toNat ∧ c.toNat ≤ 122 := by
    show (decide (97 ≤ c.toNat) && decide (c.toNat ≤ 122)) = true ↔ _
    rw [Bool.and_eq_true, decide_eq_true_iff, decide_eq_true_iff]
  show (c.isUpper || c.isLower) = true ↔ _
  rw [Bool.or_eq_true, hupper, hlower]

/-- What is the same as a letter, up to case, is a letter. -/
theorem SameLetter.isAlpha {c d : Char} (h : SameLetter c d) (hd : d.isAlpha = true) :
    c.isAlpha = true := by
  have hA : 'A'.toNat = 65 := rfl
  have ha : 'a'.toNat = 97 := rfl
  rcases h with rfl | ⟨k, hk, ⟨hc, -⟩ | ⟨hc, -⟩⟩
  · exact hd
  · rw [isAlpha_iff]
    omega
  · rw [isAlpha_iff]
    omega

/-- A text of letters has letters only, in any casing. -/
theorem isAlpha_of_forall₂ {cs ds : List Char} (h : List.Forall₂ SameLetter cs ds)
    (hds : ∀ d ∈ ds, d.isAlpha = true) : ∀ c ∈ cs, c.isAlpha = true := by
  induction h with
  | nil => exact List.forall_mem_nil _
  | cons hcd _ ih =>
    obtain ⟨hd, hds⟩ := List.forall_mem_cons.mp hds
    exact List.forall_mem_cons.mpr ⟨hcd.isAlpha hd, ih hds⟩

theorem isBlank_eq_false_of_isAlpha {c : Char} (h : c.isAlpha = true) : isBlank c = false := by
  rw [isAlpha_iff] at h
  rw [Bool.eq_false_iff]
  simp only [isBlank, ne_eq, Bool.or_eq_true, Bool.and_eq_true, decide_eq_true_eq, beq_iff_eq]
  omega

end Text

/-! ## 3. Names of presets -/

namespace Preset

/-- The text is the name of the preset, in some casing, with white space around it or without. -/
def NamedBy (p : Preset) (text : String) : Prop :=
  ∃ before name after : List Char, text.toList = before ++ name ++ after ∧
    (∀ c ∈ before, c ∈ Text.whiteSpace) ∧ (∀ c ∈ after, c ∈ Text.whiteSpace) ∧
    List.Forall₂ Text.SameLetter name p.name.toList

theorem isAlpha_name (p : Preset) : ∀ c ∈ p.name.toList, c.isAlpha = true := by
  have hall : p.name.toList.all Char.isAlpha = true := by
    cases p <;> rfl
  exact List.all_eq_true.mp hall

/-- **A text names a preset exactly when the name is what is left of it** without the white space at
    its ends, up to case. -/
theorem namedBy_iff {p : Preset} {text : String} :
    p.NamedBy text ↔ Text.sameUpToCase p.name.toList (Text.trim text.toList) = true := by
  rw [Text.sameUpToCase_iff]
  constructor
  · rintro ⟨before, name, after, htext, hbefore, hafter, hname⟩
    have hblank : ∀ c ∈ name, Text.isBlank c = false :=
      fun c hc => Text.isBlank_eq_false_of_isAlpha (Text.isAlpha_of_forall₂ hname p.isAlpha_name c hc)
    have htrim : Text.trim text.toList = name := by
      rw [htext]
      exact Text.trim_eq (fun c hc => Text.isBlank_iff.mpr (hbefore c hc)) hblank
        (fun c hc => Text.isBlank_iff.mpr (hafter c hc))
    rw [htrim]
    exact hname
  · intro hname
    obtain ⟨before, after, htext, hbefore, hafter⟩ := Text.exists_trim text.toList
    exact ⟨before, Text.trim text.toList, after, htext,
      fun c hc => Text.isBlank_iff.mp (hbefore c hc), fun c hc => Text.isBlank_iff.mp (hafter c hc),
      hname⟩

/-- **A text names at most one preset.** -/
theorem NamedBy.eq {p q : Preset} {text : String} (hp : p.NamedBy text) (hq : q.NamedBy text) :
    p = q := by
  have hdiffer : ∀ p q : Preset,
      p.name.toList.map Char.toLower = q.name.toList.map Char.toLower → p = q := by
    intro p q
    cases p <;> cases q <;> decide
  rw [namedBy_iff, Text.sameUpToCase, beq_iff_eq] at hp hq
  exact hdiffer p q (hp.trans hq.symm)

/-- A text that names a preset has no characters but white space and ASCII letters. -/
theorem NamedBy.mem_or_isAlpha {p : Preset} {text : String} (h : p.NamedBy text) :
    ∀ c ∈ text.toList, c ∈ Text.whiteSpace ∨ c.isAlpha = true := by
  obtain ⟨before, name, after, htext, hbefore, hafter, hname⟩ := h
  rw [htext]
  intro c hc
  rcases List.mem_append.mp hc with hc | hc
  · rcases List.mem_append.mp hc with hc | hc
    · exact .inl (hbefore c hc)
    · exact .inr (Text.isAlpha_of_forall₂ hname p.isAlpha_name c hc)
  · exact .inl (hafter c hc)

/-! ## 4. Reading a preset -/

theorem mem_all (p : Preset) : p ∈ all := by
  cases p <;> decide

/-- **The preset that is read is the one that the text names.** -/
theorem ofText_eq_ok_iff {p : Preset} {text : String} : ofText text = .ok p ↔ p.NamedBy text := by
  have hfound : ∀ q, all.find? (fun p => Text.sameUpToCase p.name.toList (Text.trim text.toList)) =
      some q → q.NamedBy text := fun q hq => by
    have hq' := List.find?_some hq
    exact namedBy_iff.mpr hq'
  unfold ofText
  split
  · rename_i q hq
    rw [Except.ok.injEq]
    constructor
    · rintro rfl
      exact hfound q hq
    · intro hp
      exact (hfound q hq).eq hp
  · rename_i hnone
    refine ⟨fun h => ?_, fun hp => ?_⟩
    · cases h
    · exact absurd (namedBy_iff.mp hp) (List.find?_eq_none.mp hnone p p.mem_all)

/-- **A text that names no preset is refused**, and the refusal has the text as it was given. -/
theorem ofText_eq_error_iff {e : UnknownPreset} {text : String} :
    ofText text = .error e ↔ (∀ p : Preset, ¬ p.NamedBy text) ∧ e.input = text := by
  constructor
  · intro h
    refine ⟨fun p hp => ?_, ?_⟩
    · rw [ofText_eq_ok_iff.mpr hp] at h
      cases h
    · unfold ofText at h
      split at h
      · cases h
      · cases h
        rfl
  · rintro ⟨hnone, rfl⟩
    cases h : ofText e.input with
    | ok p => exact absurd (ofText_eq_ok_iff.mp h) (hnone p)
    | error e' =>
      unfold ofText at h
      split at h
      · cases h
      · cases h
        rfl

/-- **Which texts are read as a preset.** A text is read as a preset exactly when it names it, and it
    names one preset at most, with white space and ASCII letters only. Every other text is refused,
    and the refusal quotes all of it, with the white space at its ends. -/
theorem ofText_grammar (text : String) :
    (∀ p : Preset, ofText text = .ok p ↔ p.NamedBy text) ∧
    (∀ p q : Preset, p.NamedBy text → q.NamedBy text → p = q) ∧
    (∀ p : Preset, p.NamedBy text → ∀ c ∈ text.toList, c ∈ Text.whiteSpace ∨ c.isAlpha = true) ∧
    (∀ e, ofText text = .error e ↔ (∀ p : Preset, ¬ p.NamedBy text) ∧ e.input = text) ∧
    (∀ e, ofText text = .error e → e.message =
      "unknown emit preset `" ++ text ++ "` (expected one of: pseudo, pretty, compact)") := by
  refine ⟨fun p => ofText_eq_ok_iff, fun p q hp hq => hp.eq hq, fun p hp => hp.mem_or_isAlpha,
    fun e => ofText_eq_error_iff, fun e h => ?_⟩
  have hinput : e.input = text := (ofText_eq_error_iff.mp h).2
  unfold UnknownPreset.message
  rw [hinput]

/-- White space of several kinds and letters of both cases; a letter that is not one of ASCII, though
    its capital form is; white space inside. -/
example :
    (ofText "\u3000pReTtY\u0085\n").toOption = some .pretty ∧
      (ofText " p\u017feudo").toOption = none ∧ (ofText "com pact").toOption = none := by
  decide +kernel

end Preset

end Emission
