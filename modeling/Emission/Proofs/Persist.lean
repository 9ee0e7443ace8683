import Emission.Persist.Config

/-!
# What is stored is read back

Each type with a stored form reads back what it wrote (`Faithful`). A configuration does so as long as
its depths are natural numbers that are stored (`Config.Fits`), which those of a configuration that was
read always are. A strategy is read back from its constructors, however deep they are nested.
-/

namespace Emission

/-- The values of `α` that satisfy `P` can be stored: each is read back as it was when written, no two
    are written alike, and a value that was read can be written and read once more. -/
structure Faithful (α : Type) [Persistent α] (P : α → Prop) : Prop where
  read_back : ∀ x : α, P x → ofData? (toData x) = some x
  injective : ∀ x y : α, P x → P y → toData x = toData y → x = y
  read_again : ∀ (d : Data) (x : α), ofData? d = some x → ofData? (toData x) = some x

/-- Reading back is enough, where nothing but what satisfies `P` is read. -/
theorem Faithful.of_read_back {α : Type} [Persistent α] {P : α → Prop}
    (hback : ∀ x : α, P x → ofData? (toData x) = some x)
    (hread : ∀ (d : Data) (x : α), ofData? d = some x → P x) : Faithful α P where
  read_back := hback
  injective x y hx hy h := by
    have hsome : some x = some y := by rw [← hback x hx, ← hback y hy, h]
    exact Option.some.inj hsome
  read_again d x h := hback x (hread d x h)

/-! ## 1. Variables, strategies and presets -/

theorem Var.ofData?_toData (v : Var) : ofData? v.toData = some v := by
  cases v <;> rfl

theorem Naming.ofData?_toData (n : Naming) : ofData? n.toData = some n := by
  induction n with
  | qualified => rw [toData, ofData?]
  | unique => rw [toData, ofData?]
  | comment inner ih => rw [toData, ofData?, ih, Option.map_some]
  | commentExternal inner ih => rw [toData, ofData?, ih, Option.map_some]
  | append back front ihb ihf => simp [toData, ofData?, ofField?_eq, Data.field?, ihb, ihf]

theorem Preset.ofData?_toData (p : Preset) : ofData? p.toData = some p := by
  cases p <;> rfl

/-! ## 2. Configurations -/

/-- **The natural numbers that are read are those that are stored.** -/
theorem Data.natural?_eq_some_iff {d : Data} {n : Nat} :
    d.natural? = some n ↔ n ≤ maxNatural ∧ d = .int n := by
  constructor
  · intro h
    cases d with
    | int m =>
      simp only [natural?] at h
      split at h
      · rename_i hm
        cases h
        exact ⟨by omega, by rw [Int.toNat_of_nonneg hm.1]⟩
      · cases h
    | _ => cases h
  · rintro ⟨hn, rfl⟩
    have hrange : (0 : Int) ≤ n ∧ (n : Int) ≤ maxNatural := by omega
    rw [natural?, if_pos hrange, Int.toNat_natCast]

namespace Config

/-- The depths are natural numbers that are stored. -/
def Fits (c : Config) : Prop :=
  c.indentLevel ≤ Data.maxNatural ∧ c.indentStep ≤ Data.maxNatural

theorem ofData?_toData {c : Config} (hc : c.Fits) : ofData? c.toData = some c := by
  have hlevel := Data.natural?_eq_some_iff.mpr ⟨hc.1, rfl⟩
  have hstep := Data.natural?_eq_some_iff.mpr ⟨hc.2, rfl⟩
  simp [toData, ofData?, ofParts?, Data.field?, hlevel, hstep, Data.str?, Data.bool?,
    Naming.ofData?_toData]

theorem fits_of_ofParts?_eq_some {level step unit newlines header naming : Data} {c : Config}
    (h : ofParts? level step unit newlines header naming = some c) : c.Fits := by
  simp only [ofParts?, Option.bind_eq_bind, Option.bind_eq_some_iff] at h
  obtain ⟨n, hn, m, hm, _, _, _, _, _, _, _, _, hc⟩ := h
  cases hc
  exact ⟨(Data.natural?_eq_some_iff.mp hn).1, (Data.natural?_eq_some_iff.mp hm).1⟩

/-- **A configuration that is read has depths that are stored.** -/
theorem fits_of_ofData?_eq_some {d : Data} {c : Config} (h : ofData? d = some c) : c.Fits := by
  unfold ofData? at h
  split at h
  · simp only [Option.bind_eq_bind, Option.bind_eq_some_iff] at h
    obtain ⟨_, _, _, _, _, _, _, _, _, _, _, _, h⟩ := h
    exact fits_of_ofParts?_eq_some h
  · exact fits_of_ofParts?_eq_some h
  · cases h

end Config

end Emission
