import Emission.Naming
import Emission.Proofs.Numbering

/-!
# What a strategy spells

A strategy, run on a variable, does two things that can be told apart:

* it asks for the number of the variable, if it asks for any at all (`Naming.numbers`), so that the
  variable is entered in the table and that is reported, if it is new (`Naming.register`);
* it spells the variable by a text in which the number is filled in (`Naming.spelling`).

It can fail only in the first, where the variable is new and the table full (`Naming.room`). It reads the
table for nothing but the number of this one variable: `Naming.label_apply`. So a label can be recomputed
from the list of variables alone, also later, when there are more variables on the list
(`Naming.spelling_of_extends_record`).
-/

namespace Emission

namespace Naming

/-! ## 1. The two readings of a strategy -/

/-- Whether the strategy asks for the number of `v`. A `commentExternal` does not look at what is
    inside it unless `v` is external. -/
def numbers (v : Var) : Naming → Bool
  | qualified => false
  | unique => !v.isForeign
  | comment inner => inner.numbers v
  | commentExternal inner => v.isExternal && inner.numbers v
  | append back front => front.numbers v || back.numbers v

/-- The text by which the strategy spells `v`, when `v` has the number `i`. -/
def spelling (v : Var) (i : Nat) : Naming → String
  | qualified => v.qualified
  | unique => if v.isForeign then v.name else Label.ofNat i
  | comment inner => commentOpen ++ inner.spelling v i ++ commentClose
  | commentExternal inner =>
    if v.isExternal then commentOpen ++ inner.spelling v i ++ commentClose else ""
  | append back front => front.spelling v i ++ back.spelling v i

theorem spelling_unique {v : Var} (hv : v.isForeign = false) (i : Nat) :
    unique.spelling v i = Label.ofNat i := by
  rw [spelling, hv]
  rfl

/-- The table after the strategy has been run on `v`. -/
def record (n : Naming) (v : Var) (table : NameTable) : NameTable :=
  if n.numbers v then table.enter v else table

/-- What is reported when the strategy is run on `v`. -/
def reports (n : Naming) (v : Var) (table : NameTable) : List Report :=
  if n.numbers v then table.reports v else []

/-- The ledger after the strategy has been run on `v`. -/
def register (n : Naming) (v : Var) (l : Ledger) : Ledger :=
  ⟨n.record v l.table, l.log ++ n.reports v l.table⟩

/-- Fails if the strategy asks for the number of `v`, which has none, and there is none left. -/
def room (n : Naming) (v : Var) (table : NameTable) : Except Fault Unit :=
  if n.numbers v then table.room v else .ok ()

/-! ## 2. A strategy is its two readings -/

section

variable {n : Naming} {v : Var}

theorem room_of_not_numbers (h : n.numbers v = false) (table : NameTable) :
    n.room v table = .ok () :=
  if_neg (Bool.eq_false_iff.mp h)

theorem room_of_get?_eq_some {table : NameTable} {i : Nat} (h : table.get? v = some i) :
    n.room v table = .ok () := by
  unfold room
  rw [NameTable.room_of_get?_eq_some h, ite_self]

/-- **There is no room exactly where a number is asked for and wanting.** -/
theorem room_eq_error_iff {table : NameTable} {e : Fault} :
    n.room v table = .error e ↔
      n.numbers v = true ∧ e = .namesExhausted table.size ∧ nameCapacity ≤ table.size ∧
        v ∉ table.vars := by
  unfold room
  split
  · rename_i hnum
    rw [NameTable.room_eq_error_iff, and_iff_right hnum]
  · rename_i hnum
    refine ⟨fun h => ?_, fun h => absurd h.1 hnum⟩
    cases h

theorem register_of_numbers (h : n.numbers v = true) (l : Ledger) : n.register v l = l.enter v := by
  unfold register record reports
  rw [if_pos h, if_pos h, Ledger.enter]

/-- A strategy that does not ask for the number leaves the ledger alone. -/
theorem register_of_not_numbers (h : n.numbers v = false) (l : Ledger) : n.register v l = l := by
  unfold register record reports
  rw [h, if_neg Bool.false_ne_true, if_neg Bool.false_ne_true, Array.appendList_nil]

/-- A strategy leaves the ledger alone where the variable has a number. -/
theorem register_of_get?_eq_some {l : Ledger} {i : Nat} (h : l.table.get? v = some i) :
    n.register v l = l := by
  cases hnum : n.numbers v with
  | false => exact register_of_not_numbers hnum l
  | true =>
    rw [register_of_numbers hnum]
    exact Ledger.enter_of_get?_eq_some h

/-- What a strategy does to a ledger depends on it only in whether it asks for the number. -/
theorem room_congr {n' : Naming} (h : n.numbers v = n'.numbers v) (table : NameTable) :
    n.room v table = n'.room v table := by
  unfold room
  rw [h]

theorem register_congr {n' : Naming} (h : n.numbers v = n'.numbers v) (l : Ledger) :
    n.register v l = n'.register v l := by
  unfold register record reports
  rw [h]

end

/-- Recording a variable does not change where it is first found. -/
theorem idxOf_vars_record (n : Naming) (v : Var) (table : NameTable) :
    (n.record v table).vars.idxOf v = table.vars.idxOf v := by
  unfold record
  split
  · rw [NameTable.vars_enter, idxOf_enlist]
  · rfl

section

variable (back front : Naming) (v : Var)

/-- After a strategy that asked for the number, a second one finds it. -/
theorem room_register {front : Naming} {v : Var} (hf : front.numbers v = true) (l : Ledger) :
    back.room v (front.register v l).table = .ok () := by
  rw [register_of_numbers hf]
  exact room_of_get?_eq_some (l.table.get?_enter_self v)

theorem register_register {front : Naming} {v : Var} (hf : front.numbers v = true) (l : Ledger) :
    back.register v (front.register v l) = front.register v l := by
  rw [register_of_numbers hf]
  exact register_of_get?_eq_some (l.table.get?_enter_self v)

/-- **One strategy after another** fails where one of them does. -/
theorem room_append (l : Ledger) :
    (append back front).room v l.table =
      (do front.room v l.table; back.room v (front.register v l).table) := by
  cases hf : front.numbers v with
  | false =>
    have hnum : (append back front).numbers v = back.numbers v := by rw [numbers, hf, Bool.false_or]
    rw [room_congr hnum, room_of_not_numbers hf, register_of_not_numbers hf]
    rfl
  | true =>
    have hnum : (append back front).numbers v = front.numbers v := by rw [numbers, hf, Bool.true_or]
    rw [room_congr hnum, room_register back hf]
    cases front.room v l.table <;> rfl

theorem register_append (l : Ledger) :
    (append back front).register v l = back.register v (front.register v l) := by
  cases hf : front.numbers v with
  | false =>
    have hnum : (append back front).numbers v = back.numbers v := by rw [numbers, hf, Bool.false_or]
    rw [register_of_not_numbers hf, register_congr hnum]
  | true =>
    have hnum : (append back front).numbers v = front.numbers v := by rw [numbers, hf, Bool.true_or]
    rw [register_register back hf, register_congr hnum]

end

/-- A strategy between comment marks fails where it fails without them. -/
theorem writeLabel_between {inner : Naming} {v : Var} {l : Ledger}
    (h : ∀ out, inner.writeLabel v out l =
      (inner.room v l.table).map fun _ =>
        (out ++ inner.spelling v (l.table.vars.idxOf v), inner.register v l)) (out : String) :
    (do
      let r ← inner.writeLabel v (out ++ commentOpen) l
      Except.ok (r.1 ++ commentClose, r.2)) =
      (inner.room v l.table).map fun _ =>
        (out ++ (commentOpen ++ inner.spelling v (l.table.vars.idxOf v) ++ commentClose),
          inner.register v l) := by
  rw [h]
  cases inner.room v l.table with
  | error e => rfl
  | ok _ => exact congrArg (fun s => Except.ok (s, _)) (by simp only [String.append_assoc])

/-- **What a strategy writes and what it does**: it spells the variable with its number filled in, and
    enters the variable if it asks for that number. -/
theorem writeLabel_apply (n : Naming) (v : Var) (out : String) (l : Ledger) :
    n.writeLabel v out l =
      (n.room v l.table).map fun _ =>
        (out ++ n.spelling v (l.table.vars.idxOf v), n.register v l) := by
  induction n generalizing out l with
  | qualified =>
    rw [room_of_not_numbers rfl, register_of_not_numbers rfl]
    exact congrArg (fun s => Except.ok (s, l)) (v.writeQualified_eq out)
  | unique =>
    rw [writeLabel, spelling]
    cases hv : v.isForeign with
    | true =>
      have hnum : unique.numbers v = false := by rw [numbers, hv, Bool.not_true]
      rw [room_of_not_numbers hnum, register_of_not_numbers hnum]
      rfl
    | false =>
      show (do let r ← Numbering.allocate v l; Except.ok (Label.write r.1 out, r.2)) = _
      have hnum : unique.numbers v = true := by rw [numbers, hv, Bool.not_false]
      have hroom : unique.room v l.table = l.table.room v := if_pos hnum
      rw [Numbering.allocate_apply, hroom, register_of_numbers hnum]
      cases l.table.room v with
      | error e => rfl
      | ok _ => exact congrArg (fun s => Except.ok (s, _)) (Label.write_eq _ out)
  | comment inner ih =>
    have hnum : inner.comment.numbers v = inner.numbers v := rfl
    rw [room_congr hnum, register_congr hnum]
    exact writeLabel_between (fun out => ih out l) out
  | commentExternal inner ih =>
    rw [writeLabel, spelling]
    cases hv : v.isExternal with
    | false =>
      have hnum : inner.commentExternal.numbers v = false := by rw [numbers, hv, Bool.false_and]
      rw [room_of_not_numbers hnum, register_of_not_numbers hnum]
      exact congrArg (fun s => Except.ok (s, l)) String.append_empty.symm
    | true =>
      have hnum : inner.commentExternal.numbers v = inner.numbers v := by
        rw [numbers, hv, Bool.true_and]
      rw [room_congr hnum, register_congr hnum]
      exact writeLabel_between (fun out => ih out l) out
  | append back front ihb ihf =>
    rw [room_append, register_append, spelling]
    show (do let r ← front.writeLabel v out l; back.writeLabel v r.1 r.2) = _
    rw [ihf]
    cases front.room v l.table with
    | error e => rfl
    | ok _ =>
      show back.writeLabel v _ (front.register v l) =
        (back.room v (front.register v l).table).map fun _ => (_, _)
      rw [ihb, ← String.append_assoc]
      -- the strategy at the back finds the variable where it was, or where the one in front put it
      simp only [register, idxOf_vars_record]

/-- **A label is the spelling with the number filled in.** -/
theorem label_apply (n : Naming) (v : Var) (l : Ledger) :
    n.label v l =
      (n.room v l.table).map fun _ => (n.spelling v (l.table.vars.idxOf v), n.register v l) := by
  rw [label, writeLabel_apply]
  simp only [String.empty_append]

/-! ## 3. What a strategy does to the list of variables -/

/-- **A strategy enlists the variable if it asks for its number.** -/
theorem vars_record (n : Naming) (v : Var) (table : NameTable) :
    (n.record v table).vars = if n.numbers v then enlist table.vars v else table.vars := by
  unfold record
  split
  · exact NameTable.vars_enter table v
  · rfl

theorem extends_record (n : Naming) (v : Var) (table : NameTable) :
    (n.record v table).Extends table := by
  unfold record
  split
  · exact NameTable.extends_enter table v
  · exact NameTable.Extends.refl table

/-- **No table has more variables than there are numbers**, where there was room for each. -/
theorem size_record_le {n : Naming} {v : Var} {table : NameTable} (hroom : n.room v table = .ok ())
    (h : table.size ≤ nameCapacity) : (n.record v table).size ≤ nameCapacity := by
  rw [NameTable.size_eq_length, vars_record]
  split
  · rename_i hnum
    by_cases hv : v ∈ table.vars
    · rw [enlist_of_mem hv, ← NameTable.size_eq_length]
      exact h
    · have hfree : ¬ nameCapacity ≤ table.size := by
        intro hfull
        cases hroom.symm.trans (room_eq_error_iff.mpr ⟨hnum, rfl, hfull, hv⟩)
      rw [enlist_of_notMem hv, List.length_append, List.length_singleton,
        ← NameTable.size_eq_length]
      omega
  · rw [← NameTable.size_eq_length]
    exact h

/-- A variable whose number was asked for has one from then on. -/
theorem mem_vars_record {n : Naming} {v : Var} (h : n.numbers v = true) (table : NameTable) :
    v ∈ (n.record v table).vars := by
  rw [vars_record, if_pos h]
  exact mem_enlist_self table.vars v

/-! ## 4. Spellings that stay -/

/-- A number that is not asked for does not show. -/
theorem spelling_of_not_numbers {n : Naming} {v : Var} (h : n.numbers v = false)
    (i j : Nat) : n.spelling v i = n.spelling v j := by
  induction n with
  | qualified => rfl
  | unique =>
    have hv : v.isForeign = true := by
      rw [numbers, Bool.not_eq_false'] at h
      exact h
    rw [spelling, spelling, if_pos hv, if_pos hv]
  | comment inner ih =>
    have hinner : inner.spelling v i = inner.spelling v j := ih h
    rw [spelling, spelling, hinner]
  | commentExternal inner ih =>
    rw [spelling, spelling]
    by_cases hv : v.isExternal = true
    · rw [numbers, hv, Bool.true_and] at h
      rw [ih h]
    · rw [if_neg hv, if_neg hv]
  | append back front ihb ihf =>
    rw [numbers, Bool.or_eq_false_iff] at h
    rw [spelling, spelling, ihf h.1, ihb h.2]

/-- **A spelling stays the same while the table grows**, if the variable has the number that the
    strategy asks for. -/
theorem spelling_idxOf_of_extends {n : Naming} {v : Var} {t u : NameTable} (hu : u.Extends t)
    (hv : n.numbers v = true → v ∈ t.vars) :
    n.spelling v (u.vars.idxOf v) = n.spelling v (t.vars.idxOf v) := by
  by_cases hnum : n.numbers v = true
  · rw [hu.idxOf_eq (hv hnum)]
  · exact spelling_of_not_numbers (Bool.eq_false_iff.mpr hnum) _ _

/-- **The label of a variable that has the number asked for** can be computed, and nothing is done to the
    ledger. -/
theorem label_of_mem {n : Naming} {v : Var} {l : Ledger} (h : n.numbers v = true → v ∈ l.table.vars) :
    n.label v l = .ok (n.spelling v (l.table.vars.idxOf v), l) := by
  rw [label_apply]
  cases hnum : n.numbers v with
  | false =>
    rw [room_of_not_numbers hnum, register_of_not_numbers hnum]
    rfl
  | true =>
    obtain ⟨i, hi⟩ := Option.ne_none_iff_exists'.mp (NameTable.mem_vars_iff.mp (h hnum))
    rw [room_of_get?_eq_some hi, register_of_get?_eq_some hi]
    rfl

/-- **A label is the spelling from any table that has grown out of the one it left behind.** -/
theorem spelling_of_extends_record {n : Naming} {v : Var} {t u : NameTable}
    (hu : u.Extends (n.record v t)) :
    n.spelling v (t.vars.idxOf v) = n.spelling v (u.vars.idxOf v) := by
  rw [spelling_idxOf_of_extends hu (fun hnum => mem_vars_record hnum t), idxOf_vars_record]

end Naming

end Emission
