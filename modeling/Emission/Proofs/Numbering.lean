import Emission.NameTable.Ledger
import Mathlib.Data.List.Basic
import Mathlib.Data.List.Nodup

/-!
# Numberings as lists

What a name table does is decided by one list, the variables in the order of their numbers
(`NameTable.vars`). This file reads every operation on a table as an operation on that list:

* entering a variable puts it at the end unless it is there (`vars_enter`, with `enlist`);
* looking a number up is looking for the first place of the variable (`get?_eq_idxOf?`);
* the list never has a variable twice (`nodup_vars`);
* a table that has grown keeps the numbers it gave out (`NameTable.Extends`);
* giving out a number is entering the variable, and reporting it if it is new; it fails where the variable
  is new and there is no number left (`Numbering.allocate_apply`).

Putting the members of a list on record one by one gives the list without its repetitions, the first
occurrences being kept (`foldl_enlist`).
-/

namespace Emission

/-! ## 1. Lists in the order of first occurrence -/

/-- The list with `v` at its end, unless it has `v` already. -/
def enlist (vs : List Var) (v : Var) : List Var :=
  if v ∈ vs then vs else vs ++ [v]

theorem enlist_of_mem {vs : List Var} {v : Var} (h : v ∈ vs) : enlist vs v = vs :=
  if_pos h

theorem enlist_of_notMem {vs : List Var} {v : Var} (h : v ∉ vs) : enlist vs v = vs ++ [v] :=
  if_neg h

theorem mem_enlist_self (vs : List Var) (v : Var) : v ∈ enlist vs v := by
  by_cases h : v ∈ vs
  · rw [enlist_of_mem h]
    exact h
  · rw [enlist_of_notMem h]
    exact List.mem_append_right vs List.mem_cons_self

theorem prefix_enlist (vs : List Var) (v : Var) : vs <+: enlist vs v := by
  by_cases h : v ∈ vs
  · refine ⟨[], ?_⟩
    rw [enlist_of_mem h, List.append_nil]
  · rw [enlist_of_notMem h]
    exact List.prefix_append vs [v]

/-- What is enlisted later comes at the end. -/
theorem prefix_foldl_enlist (vs ws : List Var) : vs <+: ws.foldl enlist vs := by
  induction ws generalizing vs with
  | nil => exact List.prefix_refl vs
  | cons w ws ih => exact (prefix_enlist vs w).trans (ih (enlist vs w))

/-- Enlisting a variable does not change where it is first found: a new one is found at the end,
    where a search that fails stops. -/
theorem idxOf_enlist (vs : List Var) (v : Var) : (enlist vs v).idxOf v = vs.idxOf v := by
  by_cases h : v ∈ vs
  · rw [enlist_of_mem h]
  · rw [enlist_of_notMem h, List.idxOf_append_of_notMem h, List.idxOf_of_notMem h]
    simp

theorem enlist_eraseDups (vs : List Var) (v : Var) :
    enlist vs.eraseDups v = (vs ++ [v]).eraseDups := by
  rw [List.eraseDups_append]
  by_cases h : v ∈ vs
  · rw [enlist_of_mem (List.mem_eraseDups.mpr h)]
    simp [List.removeAll, h]
  · rw [enlist_of_notMem (fun h' => h (List.mem_eraseDups.mp h'))]
    simp [List.removeAll, List.eraseDups_cons, h]

/-- **Enlisting one after the other leaves the first occurrences, in their order.** -/
theorem foldl_enlist (vs ws : List Var) :
    ws.foldl enlist vs.eraseDups = (vs ++ ws).eraseDups := by
  induction ws generalizing vs with
  | nil => rw [List.append_nil, List.foldl_nil]
  | cons w ws ih =>
    rw [List.foldl_cons, enlist_eraseDups, ih (vs ++ [w]), List.append_assoc, List.singleton_append]

/-- Where a variable is first found does not change when all are renamed and kept apart. -/
theorem idxOf?_map_of_injective {r : Var → Var} (hr : Function.Injective r) (vs : List Var)
    (v : Var) : (vs.map r).idxOf? (r v) = vs.idxOf? v := by
  induction vs with
  | nil => rfl
  | cons w vs ih =>
    rw [List.map_cons, List.idxOf?_cons, List.idxOf?_cons, ih]
    by_cases h : w = v
    · simp [h]
    · simp [h, hr.ne h]

namespace NameTable

/-! ## 2. The list of a table -/

/-- The variables of the table, in the order of their numbers. -/
def vars (t : NameTable) : List Var :=
  t.order.toList

theorem size_eq_length (t : NameTable) : t.size = t.vars.length :=
  (Array.length_toList).symm

theorem isEmpty_iff (t : NameTable) : t.isEmpty = true ↔ t.size = 0 := by
  unfold isEmpty size
  rw [Array.isEmpty_iff, ← Array.size_eq_zero_iff]

/-- The entries are the variables of the list, each with its place. -/
theorem entries_eq_zipIdx (t : NameTable) : t.entries = t.vars.zipIdx := rfl

theorem get?_eq_some_iff_vars {t : NameTable} {v : Var} {i : Nat} :
    t.get? v = some i ↔ t.vars[i]? = some v := by
  rw [get?_eq_some_iff, vars, Array.getElem?_toList]

/-- **No variable is in the list twice**: it would have two numbers. -/
theorem nodup_vars (t : NameTable) : t.vars.Nodup := by
  rw [List.nodup_iff_injective_getElem]
  intro i j h
  have hi : t.get? t.vars[i] = some i.1 :=
    get?_eq_some_iff_vars.mpr (List.getElem?_eq_getElem i.2)
  have hj : t.get? t.vars[j] = some j.1 :=
    get?_eq_some_iff_vars.mpr (List.getElem?_eq_getElem j.2)
  have hij : t.vars[i] = t.vars[j] := h
  rw [hij, hj] at hi
  exact Fin.ext (Option.some.inj hi).symm

theorem mem_vars_iff {t : NameTable} {v : Var} : v ∈ t.vars ↔ t.get? v ≠ none := by
  rw [Ne, get?_eq_none_iff, not_not, vars, Array.mem_toList_iff]

/-- **The number of a variable is its first place in the list.** -/
theorem get?_eq_idxOf? (t : NameTable) (v : Var) : t.get? v = t.vars.idxOf? v := by
  cases h : t.get? v with
  | none =>
    have hv : v ∉ t.vars := fun hm => mem_vars_iff.mp hm h
    rw [List.idxOf?_eq_none_iff.mpr hv]
  | some i =>
    obtain ⟨hi, hiv⟩ := List.getElem?_eq_some_iff.mp (get?_eq_some_iff_vars.mp h)
    symm
    rw [List.idxOf?_eq_some_iff]
    refine ⟨hi, hiv, fun j hj hjv => ?_⟩
    have hij := (List.Nodup.getElem_inj_iff t.nodup_vars).mp (hjv.trans hiv.symm)
    omega

/-! ## 3. What entering does to the list -/

/-- **Entering a variable puts it on the list.** -/
theorem vars_enter (t : NameTable) (v : Var) : (t.enter v).vars = enlist t.vars v := by
  unfold vars enlist
  rw [order_enter]
  by_cases h : v ∈ t.order
  · rw [if_pos h, if_pos (Array.mem_toList_iff.mpr h)]
  · rw [if_neg h, if_neg (fun h' => h (Array.mem_toList_iff.mp h')), Array.toList_push]

/-- A variable without a number would be found where the list ends. -/
theorem idxOf_of_get?_eq_none {t : NameTable} {v : Var} (h : t.get? v = none) :
    t.vars.idxOf v = t.size := by
  have hv : v ∉ t.vars := fun hm => mem_vars_iff.mp hm h
  rw [List.idxOf_of_notMem hv, size_eq_length]

theorem idxOf_of_get?_eq_some {t : NameTable} {v : Var} {i : Nat} (h : t.get? v = some i) :
    t.vars.idxOf v = i := by
  rw [get?_eq_idxOf?] at h
  rw [List.idxOf_eq_getD_idxOf?, h, Option.getD_some]

/-- **The number of a variable that was entered is the place where it was first found.** -/
theorem get?_enter_self (t : NameTable) (v : Var) :
    (t.enter v).get? v = some (t.vars.idxOf v) := by
  cases h : t.get? v with
  | none => rw [get?_enter_of_get?_eq_none h, idxOf_of_get?_eq_none h]
  | some i => rw [enter_of_get?_eq_some h, h, idxOf_of_get?_eq_some h]

/-! ## 4. Growth -/

/-- The table `u` has all the numbers of `t`, and perhaps more. -/
def Extends (u t : NameTable) : Prop :=
  t.vars <+: u.vars

theorem Extends.refl (t : NameTable) : t.Extends t :=
  List.prefix_refl t.vars

theorem Extends.trans {s t u : NameTable} (hu : u.Extends t) (ht : t.Extends s) : u.Extends s :=
  List.IsPrefix.trans ht hu

theorem extends_enter (t : NameTable) (v : Var) : (t.enter v).Extends t := by
  unfold Extends
  rw [vars_enter]
  exact prefix_enlist t.vars v

/-- **Numbers are kept**: a variable on the list is at the same place in any longer one. -/
theorem Extends.idxOf_eq {t u : NameTable} (h : u.Extends t) {v : Var} (hv : v ∈ t.vars) :
    u.vars.idxOf v = t.vars.idxOf v :=
  (List.IsPrefix.idxOf_eq_of_mem h hv).symm

theorem Extends.mem {t u : NameTable} (h : u.Extends t) {v : Var} (hv : v ∈ t.vars) :
    v ∈ u.vars :=
  List.IsPrefix.subset h hv

/-- **A number that was given out stays.** -/
theorem Extends.get?_eq_some {t u : NameTable} (h : u.Extends t) {v : Var} {i : Nat}
    (hv : t.get? v = some i) : u.get? v = some i := by
  obtain ⟨rest, hrest⟩ := h
  have hplace : t.vars[i]? = some v := get?_eq_some_iff_vars.mp hv
  have hlt : i < t.vars.length := (List.getElem?_eq_some_iff.mp hplace).1
  rw [get?_eq_some_iff_vars, ← hrest, List.getElem?_append_left hlt]
  exact hplace

/-! ## 5. Giving out numbers -/

/-- Fails if `v` has no number and there is none left. -/
def room (t : NameTable) (v : Var) : Except Fault Unit :=
  if t.get? v = none ∧ nameCapacity ≤ t.size then .error (.namesExhausted t.size) else .ok ()

/-- What is reported when `v` is entered. -/
def reports (t : NameTable) (v : Var) : List Report :=
  if t.get? v = none then [.allocated v t.size] else []

section

variable {t : NameTable} {v : Var}

theorem room_of_get?_eq_some {i : Nat} (h : t.get? v = some i) : t.room v = .ok () :=
  if_neg fun hfull => Option.some_ne_none i (h.symm.trans hfull.1)

theorem reports_of_get?_eq_some {i : Nat} (h : t.get? v = some i) : t.reports v = [] :=
  if_neg fun hnew => Option.some_ne_none i (h.symm.trans hnew)

theorem room_of_lt (h : t.size < nameCapacity) : t.room v = .ok () :=
  if_neg fun hfull => Nat.not_le.mpr h hfull.2

/-- There is no room exactly where a number is wanting. -/
theorem room_eq_error_iff {e : Fault} :
    t.room v = .error e ↔ e = .namesExhausted t.size ∧ nameCapacity ≤ t.size ∧ v ∉ t.vars := by
  have hnew : v ∉ t.vars ↔ t.get? v = none := not_iff_comm.mp mem_vars_iff.symm
  rw [hnew]
  unfold room
  split
  · rename_i hfull
    rw [Except.error.injEq, eq_comm]
    exact ⟨fun h => ⟨h, hfull.2, hfull.1⟩, fun h => h.1⟩
  · rename_i hfree
    refine ⟨fun h => ?_, fun h => ?_⟩
    · cases h
    · exact absurd ⟨h.2.2, h.2.1⟩ hfree

end

end NameTable

/-- The ledger with `v` in its table. -/
def Ledger.enter (l : Ledger) (v : Var) : Ledger :=
  ⟨l.table.enter v, l.log ++ l.table.reports v⟩

/-- A variable with a number is not entered. -/
theorem Ledger.enter_of_get?_eq_some {l : Ledger} {v : Var} {i : Nat} (h : l.table.get? v = some i) :
    l.enter v = l := by
  rw [enter, NameTable.enter_of_get?_eq_some h, NameTable.reports_of_get?_eq_some h,
    Array.appendList_nil]

/-- **Giving out the number of a variable**: it is its place in the table, where it is entered. -/
theorem Numbering.allocate_apply (v : Var) (l : Ledger) :
    allocate v l = (l.table.room v).map fun _ => (l.table.vars.idxOf v, l.enter v) := by
  cases h : l.table.get? v with
  | some i =>
    rw [NameTable.room_of_get?_eq_some h, Ledger.enter_of_get?_eq_some h,
      NameTable.idxOf_of_get?_eq_some h]
    exact allocate_of_get?_eq_some h l.log
  | none =>
    by_cases hroom : l.table.size < nameCapacity
    · have hreports : l.table.reports v = [.allocated v l.table.size] := if_pos h
      rw [NameTable.room_of_lt hroom, NameTable.idxOf_of_get?_eq_none h, Ledger.enter, hreports]
      exact allocate_of_get?_eq_none h hroom l.log
    · have hfull := Nat.le_of_not_lt hroom
      have hnone : l.table.room v = .error (.namesExhausted l.table.size) := if_pos ⟨h, hfull⟩
      rw [hnone]
      exact allocate_of_full h hfull l.log

end Emission
