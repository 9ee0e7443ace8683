import Emission.Fault
import Emission.Log
import Emission.NameTable

/-!
# Giving out numbers

Numbers are given out from a ledger, a name table and the log it is reported to. A computation that may
give out numbers (`Numbering`) fails where a variable asks for one and there is none left.

* `Numbering.allocate` gives the number of a variable, a new one if it has none, and reports it if it is
  new; what it does in each of the three cases is stated beside it;
* `Numbering.allocateAll` does so for some variables, one after the other.
-/

namespace Emission

/-- A name table, and the log that new numbers are reported to. -/
structure Ledger where
  table : NameTable
  log : Array Report

/-- A computation that may give out numbers; it may fail. -/
abbrev Numbering : Type → Type := StateT Ledger (Except Fault)

namespace Numbering

/-- The number of `v`. A variable without one gets the next, as long as there are any, and that is
    reported. -/
def allocate (v : Var) : Numbering Nat := fun ⟨table, log⟩ =>
  match table.get? v with
  | some i => .ok (i, ⟨table, log⟩)
  | none =>
    let id := table.size
    if id < nameCapacity then .ok (id, ⟨table.enter v, log.push (.allocated v id)⟩)
    else .error (.namesExhausted id)

/-- The numbers of some variables, in order. -/
def allocateAll : List Var → Numbering (List Nat)
  | [] => return []
  | v :: vs => do
    let i ← allocate v
    return i :: (← allocateAll vs)

section

variable {table : NameTable} {v : Var}

/-- A variable with a number keeps it, and nothing is reported. -/
theorem allocate_of_get?_eq_some {i : Nat} (h : table.get? v = some i) (log : Array Report) :
    allocate v ⟨table, log⟩ = .ok (i, ⟨table, log⟩) := by
  simp only [allocate, h]

/-- A variable without a number gets the next one, and that is reported. -/
theorem allocate_of_get?_eq_none (h : table.get? v = none) (hroom : table.size < nameCapacity)
    (log : Array Report) :
    allocate v ⟨table, log⟩ =
      .ok (table.size, ⟨table.enter v, log.push (.allocated v table.size)⟩) := by
  simp only [allocate, h]
  exact if_pos hroom

/-- A variable without a number gets none where all are given out. -/
theorem allocate_of_full (h : table.get? v = none) (hfull : nameCapacity ≤ table.size)
    (log : Array Report) : allocate v ⟨table, log⟩ = .error (.namesExhausted table.size) := by
  simp only [allocate, h]
  exact if_neg (Nat.not_lt.mpr hfull)

end

end Numbering

end Emission
