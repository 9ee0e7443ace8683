import Emission.Proofs.Spelling

/-!
# What a strategy does to a ledger

Running a strategy on a variable can do one thing to the ledger: give that variable the next number, and
report it. It does so if the variable has none, and a `unique` of the strategy is run on it.

* Which parts of a strategy are run is a matter of where they stand: a `commentExternal` keeps what is
  inside it from all variables but the external ones (`ReachesUnique`, `numbers_iff`).
* Where a number is wanted and there is none left, the strategy fails, and only there
  (`writeLabel_eq_error_iff`).
* No other variable's number changes (`get?_record_of_ne`), and a second run finds what the first one
  left (`not_asksAnew_record`). All that a run does, where it does not fail, is in `Effect`.
* So the flag `allocates`, which looks at the strategy alone, says whether there is anything at all that
  the strategy can change (`writeLabel_effect`).
-/

namespace Emission

/-- Entering a variable changes the number of no other. -/
theorem NameTable.get?_enter_of_ne (t : NameTable) {v w : Var} (h : w ≠ v) :
    (t.enter v).get? w = t.get? w := by
  refine Option.ext fun i => ?_
  rw [get?_eq_some_iff_vars, get?_eq_some_iff_vars, vars_enter]
  by_cases hv : v ∈ t.vars
  · rw [enlist_of_mem hv]
  · rw [enlist_of_notMem hv]
    rcases Nat.lt_trichotomy i t.vars.length with hlt | heq | hgt
    · rw [List.getElem?_append_left hlt]
    · subst heq
      simp [Ne.symm h]
    · have hle := Nat.le_of_lt hgt
      rw [List.getElem?_append_right hle, List.getElem?_eq_none (by simp; omega),
        List.getElem?_eq_none hle]

namespace Naming

/-! ## 1. The parts of a strategy -/

/-- The parts of a strategy: itself, and the parts of what it is built from. -/
def parts : Naming → List Naming
  | qualified => [qualified]
  | unique => [unique]
  | comment inner => comment inner :: inner.parts
  | commentExternal inner => commentExternal inner :: inner.parts
  | append back front => append back front :: (front.parts ++ back.parts)

/-- The parts that are not inside a `commentExternal`. -/
def openParts : Naming → List Naming
  | qualified => [qualified]
  | unique => [unique]
  | comment inner => comment inner :: inner.openParts
  | commentExternal inner => [commentExternal inner]
  | append back front => append back front :: (front.openParts ++ back.openParts)

/-- The strategy has a `unique` that is reached when it is run on `v`: any one if `v` is external, and
    one that is not inside a `commentExternal` if it is not. -/
def ReachesUnique (n : Naming) (v : Var) : Prop :=
  if v.isExternal then unique ∈ n.parts else unique ∈ n.openParts

instance (n : Naming) (v : Var) : Decidable (n.ReachesUnique v) :=
  inferInstanceAs (Decidable (if v.isExternal then unique ∈ n.parts else unique ∈ n.openParts))

theorem openParts_subset (n : Naming) : n.openParts ⊆ n.parts := by
  induction n with
  | qualified | unique => exact List.Subset.refl _
  | comment inner ih => exact List.cons_subset_cons _ ih
  | commentExternal inner ih => exact List.cons_subset_cons _ (List.nil_subset _)
  | append back front ihb ihf =>
    refine List.cons_subset_cons _ (List.append_subset.mpr ⟨?_, ?_⟩)
    · exact List.subset_append_of_subset_left _ ihf
    · exact List.subset_append_of_subset_right _ ihb

theorem allocates_iff_mem_parts (n : Naming) : n.allocates = true ↔ unique ∈ n.parts := by
  induction n with
  | qualified | unique => simp [allocates, parts]
  | comment inner ih | commentExternal inner ih => simpa [allocates, parts] using ih
  | append back front ihb ihf => simp [allocates, parts, ihb, ihf, or_comm]

/-- The strategy asks for the number of `v`: `v` is not foreign, and a `unique` is reached with it. -/
def Asks (n : Naming) (v : Var) : Prop :=
  v.isForeign = false ∧ n.ReachesUnique v

/-- The same, where the table has no number for `v` yet. -/
def AsksAnew (n : Naming) (v : Var) (t : NameTable) : Prop :=
  n.Asks v ∧ v ∉ t.order

/-- **A strategy asks for a variable's number if it reaches a `unique` with it.** -/
theorem numbers_iff (n : Naming) (v : Var) : n.numbers v = true ↔ n.Asks v := by
  have hnotForeign : v.isExternal = true → v.isForeign = false := by
    cases v <;> simp [Var.isExternal, Var.isForeign, Var.origin]
  unfold Asks ReachesUnique
  by_cases hv : v.isExternal = true
  · rw [if_pos hv, and_iff_right (hnotForeign hv)]
    induction n with
    | qualified | unique => simp [numbers, parts, hnotForeign hv]
    | comment inner ih | commentExternal inner ih => simpa [numbers, parts, hv] using ih
    | append back front ihb ihf => simp [numbers, parts, ihb, ihf]
  · rw [if_neg hv]
    induction n with
    | qualified | unique => simp [numbers, openParts]
    | comment inner ih => simpa [numbers, openParts] using ih
    | commentExternal inner ih => simp [numbers, openParts, hv]
    | append back front ihb ihf => simp [numbers, openParts, ihb, ihf, and_or_left]

/-- What a strategy reaches is a part of it. -/
theorem allocates_of_numbers {n : Naming} {v : Var} (h : n.numbers v = true) :
    n.allocates = true := by
  have hreaches := ((numbers_iff n v).mp h).2
  rw [allocates_iff_mem_parts]
  unfold ReachesUnique at hreaches
  split at hreaches
  · exact hreaches
  · exact n.openParts_subset hreaches

/-! ## 2. The table after a run -/

section

variable {n : Naming} {v : Var} {t : NameTable}

theorem asksAnew_iff : n.AsksAnew v t ↔ n.numbers v = true ∧ t.get? v = none := by
  rw [AsksAnew, numbers_iff, NameTable.get?_eq_none_iff]

/-- A variable that is new to the table is put at the end of it, if its number is asked for. -/
theorem order_record (h : n.AsksAnew v t) : (n.record v t).order = t.order.push v := by
  obtain ⟨hnum, hnew⟩ := asksAnew_iff.mp h
  rw [record, if_pos hnum]
  exact NameTable.order_enter_of_get?_eq_none hnew

/-- The number asked for is found in the table, if the variable is not new to it. -/
theorem exists_get?_of_not_asksAnew (h : ¬ n.AsksAnew v t) (hnum : n.numbers v = true) :
    ∃ i, t.get? v = some i :=
  Option.ne_none_iff_exists'.mp fun hnew => h (asksAnew_iff.mpr ⟨hnum, hnew⟩)

theorem get?_record_of_ne {w : Var} (h : w ≠ v) : (n.record v t).get? w = t.get? w := by
  unfold record
  split
  · exact t.get?_enter_of_ne h
  · rfl

/-- **The number that was asked for is there after the run**, and it is the one that is spelt. -/
theorem get?_record (hnum : n.numbers v = true) :
    (n.record v t).get? v = some (t.vars.idxOf v) := by
  rw [record, if_pos hnum, NameTable.get?_enter_self]

/-- After a run the variable is not new any more. -/
theorem not_asksAnew_record : ¬ n.AsksAnew v (n.record v t) := by
  intro h
  obtain ⟨hnum, hnew⟩ := asksAnew_iff.mp h
  rw [get?_record hnum] at hnew
  cases hnew

/-- **The label is the spelling with the number that the variable has after the run**, if its number is
    asked for; if not, with any number. -/
theorem spelling_of_get?_record {i : Nat} (hi : n.numbers v = true → (n.record v t).get? v = some i) :
    n.spelling v (t.vars.idxOf v) = n.spelling v i := by
  by_cases hnum : n.numbers v = true
  · have hid := hi hnum
    rw [get?_record hnum] at hid
    rw [Option.some.inj hid]
  · exact spelling_of_not_numbers (Bool.eq_false_iff.mpr hnum) _ _

end

/-- An external variable gets past every part: a strategy with the flag asks for its number. -/
theorem asksAnew_empty_of_allocates {n : Naming} (h : n.allocates = true) (module name : String) :
    n.AsksAnew (.external module name) .empty :=
  ⟨⟨rfl, (allocates_iff_mem_parts n).mp h⟩, Array.not_mem_empty _⟩

/-! ## 3. The ledger after a run -/

section

variable {n : Naming} {v : Var} {l : Ledger}

/-- A number that is new is reported. -/
theorem log_register (h : n.AsksAnew v l.table) :
    (n.register v l).log = l.log.push (.allocated v l.table.size) := by
  obtain ⟨hnum, hnew⟩ := asksAnew_iff.mp h
  have hreports : l.table.reports v = [.allocated v l.table.size] := if_pos hnew
  rw [register_of_numbers hnum, Ledger.enter, hreports]
  rfl

theorem register_of_not_asksAnew (h : ¬ n.AsksAnew v l.table) : n.register v l = l := by
  by_cases hnum : n.numbers v = true
  · obtain ⟨i, hi⟩ := exists_get?_of_not_asksAnew h hnum
    exact register_of_get?_eq_some hi
  · exact register_of_not_numbers (Bool.eq_false_iff.mpr hnum) l

/-- **A strategy fails exactly where a new number is wanted and all are given out.** -/
theorem writeLabel_eq_error_iff {out : String} {e : Fault} :
    n.writeLabel v out l = .error e ↔
      e = .namesExhausted l.table.size ∧ n.AsksAnew v l.table ∧ nameCapacity ≤ l.table.size := by
  rw [writeLabel_apply, map_eq_error_iff, room_eq_error_iff, AsksAnew, ← numbers_iff, NameTable.vars,
    Array.mem_toList_iff]
  tauto

/-- Where there is room, the label is written and the ledger is what `register` makes of it. -/
theorem writeLabel_of_room (h : n.AsksAnew v l.table → l.table.size < nameCapacity) (out : String) :
    n.writeLabel v out l =
      .ok (out ++ n.spelling v (l.table.vars.idxOf v), n.register v l) := by
  cases hlabel : n.writeLabel v out l with
  | error e =>
    obtain ⟨-, hnew, hfull⟩ := writeLabel_eq_error_iff.mp hlabel
    exact absurd (h hnew) (Nat.not_lt.mpr hfull)
  | ok r =>
    rw [writeLabel_apply] at hlabel
    obtain ⟨-, -, rfl⟩ := map_eq_ok_iff.mp hlabel
    rfl

end

/-! ## 4. All that a run does -/

/-- What a strategy does to the ledger `l`, run on `v`: it leaves `l'`, and writes the label `s`. -/
structure Effect (n : Naming) (v : Var) (l l' : Ledger) (s : String) : Prop where
  /-- The label is written after any text. -/
  writes : ∀ out, n.writeLabel v out l = .ok (out ++ s, l')
  /-- The number that is asked for is there afterwards, and it is the one in the label. -/
  spells : n.Asks v → ∃ i, l'.table.get? v = some i ∧ s = n.spelling v i
  /-- If none is asked for, any number gives the label. -/
  spells_any : ¬ n.Asks v → ∀ i, s = n.spelling v i
  /-- Runs that end with one number of the variable write one label. -/
  determined : ∀ k out r, n.writeLabel v out k = .ok r → r.2.table.get? v = l'.table.get? v →
    r.1 = out ++ s
  /-- A variable that is new is put at the end of the table. -/
  order : n.AsksAnew v l.table → l'.table.order = l.table.order.push v
  /-- It has the next number. -/
  number : n.AsksAnew v l.table → l'.table.get? v = some l.table.size
  /-- That is reported. -/
  log : n.AsksAnew v l.table → l'.log = l.log.push (.allocated v l.table.size)
  /-- In all other cases the ledger stays as it is. -/
  unchanged : ¬ n.AsksAnew v l.table → l' = l
  /-- The number of no other variable changes. -/
  others : ∀ w, w ≠ v → l'.table.get? w = l.table.get? w
  /-- Run again, the strategy writes the same label after any text, and leaves the ledger alone. -/
  again : ∀ out, n.writeLabel v out l' = .ok (out ++ s, l')

/-- **Where there is room, a strategy has its effect.** -/
theorem effect_register {n : Naming} {v : Var} {l : Ledger}
    (h : n.AsksAnew v l.table → l.table.size < nameCapacity) :
    n.Effect v l (n.register v l) (n.spelling v (l.table.vars.idxOf v)) where
  writes := writeLabel_of_room h
  spells hasks := ⟨_, get?_record ((numbers_iff n v).mpr hasks), rfl⟩
  spells_any hasks i := spelling_of_get?_record fun hnum => absurd ((numbers_iff n v).mp hnum) hasks
  determined k out r hr hid := by
    rw [writeLabel_apply] at hr
    obtain ⟨-, -, rfl⟩ := map_eq_ok_iff.mp hr
    have hspelling := spelling_of_get?_record (t := k.table) fun hnum =>
      hid.trans (get?_record (t := l.table) hnum)
    exact congrArg (out ++ ·) hspelling
  order := order_record
  number hnew := by
    rw [NameTable.get?_eq_some_iff, NameTable.size_eq]
    change (n.record v l.table).order[_]? = _
    rw [order_record hnew]
    exact Array.getElem?_push_size
  log := log_register
  unchanged := register_of_not_asksAnew
  others _ := get?_record_of_ne
  again out := by
    -- the second run finds the number that the first one asked for
    have hnew : ¬ n.AsksAnew v (n.register v l).table := not_asksAnew_record
    have hidx : (n.register v l).table.vars.idxOf v = l.table.vars.idxOf v :=
      idxOf_vars_record n v l.table
    rw [writeLabel_of_room fun h => absurd h hnew, register_of_not_asksAnew hnew, hidx]

/-- A strategy with the flag that numbers no internal variable. -/
example :
    let n : Naming := .append .qualified (.comment (.commentExternal .unique))
    n.allocates = true ∧ n.ReachesUnique (.external "M" "f") ∧ ¬ n.ReachesUnique (.internal "x") := by
  decide

end Naming

end Emission
