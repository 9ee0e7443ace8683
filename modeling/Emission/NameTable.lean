import Emission.Var
import Std.Data.TreeMap

/-!
# Name tables

A name table numbers variables in the order in which they are first asked for: 0, 1, 2, … . It is
read in two directions,

* from a number to its variable, by the list of variables in the order of their numbers (`order`);
* from a variable to its number, by a search tree (`index`);

and the two always agree (`index_eq_some_iff`). So a variable has at most one number and a number at
most one variable, and the table is determined by its order. Each operation is described by what it
does to the order.

That there are only so many numbers to give is a matter of those who give them (`Emission.Numbering`),
and so is the report on each.
-/

namespace Emission

/-- A numbering of variables, from 0 upwards without gaps. -/
structure NameTable where
  /-- The numbered variables; the one at place `i` has the number `i`. -/
  order : Array Var
  /-- The number of each numbered variable. -/
  index : Std.TreeMap Var Nat
  index_eq_some_iff : ∀ (v : Var) (i : Nat), index[v]? = some i ↔ order[i]? = some v

namespace NameTable

/-! ## 1. Operations -/

/-- The table without variables. -/
def empty : NameTable where
  order := #[]
  index := ∅
  index_eq_some_iff := by simp

instance : EmptyCollection NameTable := ⟨empty⟩
instance : Inhabited NameTable := ⟨empty⟩

/-- How many variables have a number; this is also the next number. -/
def size (t : NameTable) : Nat :=
  t.order.size

def isEmpty (t : NameTable) : Bool :=
  t.order.isEmpty

/-- The number of `v`, if it has one. -/
def get? (t : NameTable) (v : Var) : Option Nat :=
  t.index[v]?

/-- The numbered variables with their numbers, in increasing order. -/
def entries (t : NameTable) : List (Var × Nat) :=
  t.order.toList.zipIdx

theorem index_insert_eq_some_iff (t : NameTable) {v : Var} (h : t.index[v]? = none) (w : Var)
    (i : Nat) :
    (t.index.insert v t.order.size)[w]? = some i ↔ (t.order.push v)[i]? = some w := by
  have hv : ∀ i : Nat, t.order[i]? ≠ some v := fun i hi => by
    simp [(t.index_eq_some_iff v i).mpr hi] at h
  rw [Std.TreeMap.getElem?_insert, Array.getElem?_push]
  by_cases hvw : v = w
  · subst hvw
    by_cases hi : i = t.order.size
    · simp [hi]
    · simp [hi, hv i, Ne.symm hi]
  · have hcmp : compare v w ≠ .eq := fun h => hvw (Var.eq_of_compare_eq h)
    by_cases hi : i = t.order.size
    · subst hi
      simp [hcmp, hvw, t.index_eq_some_iff]
    · simp [hcmp, hi, t.index_eq_some_iff]

/-- The table with `v` in it: a variable without a number is put at the end of the order, so that it
    has the next number; for a variable with a number the table is as before. -/
def enter (t : NameTable) (v : Var) : NameTable :=
  match h : t.index[v]? with
  | some _ => t
  | none =>
    let id := t.order.size
    { order := t.order.push v
      index := t.index.insert v id
      index_eq_some_iff := t.index_insert_eq_some_iff h }

/-! ## 2. The order is the whole table -/

/-- **The number of a variable is its place in the order.** -/
theorem get?_eq_some_iff {t : NameTable} {v : Var} {i : Nat} :
    t.get? v = some i ↔ t.order[i]? = some v :=
  t.index_eq_some_iff v i

theorem get?_eq_none_iff {t : NameTable} {v : Var} : t.get? v = none ↔ v ∉ t.order := by
  rw [Array.mem_iff_getElem?]
  constructor
  · rintro h ⟨i, hi⟩
    simp [get?_eq_some_iff.mpr hi] at h
  · intro h
    cases hv : t.get? v with
    | none => rfl
    | some i => exact absurd ⟨i, get?_eq_some_iff.mp hv⟩ h

@[simp] theorem order_empty : empty.order = #[] := rfl

@[simp] theorem get?_empty (v : Var) : empty.get? v = none :=
  get?_eq_none_iff.mpr (by simp)

theorem size_eq (t : NameTable) : t.size = t.order.size := rfl

theorem lt_size_of_get?_eq_some {t : NameTable} {v : Var} {i : Nat} (h : t.get? v = some i) :
    i < t.size :=
  (Array.getElem?_eq_some_iff.mp (get?_eq_some_iff.mp h)).1

/-- A variable with a number is left alone. -/
theorem enter_of_get?_eq_some {t : NameTable} {v : Var} {i : Nat} (h : t.get? v = some i) :
    t.enter v = t := by
  have h' : t.index[v]? = some i := h
  unfold enter
  split <;> simp_all

/-- A variable without a number is put at the end of the order. -/
theorem order_enter_of_get?_eq_none {t : NameTable} {v : Var} (h : t.get? v = none) :
    (t.enter v).order = t.order.push v := by
  have h' : t.index[v]? = none := h
  unfold enter
  split
  · simp_all
  · rfl

/-- **What entering does to the order.** -/
theorem order_enter (t : NameTable) (v : Var) :
    (t.enter v).order = if v ∈ t.order then t.order else t.order.push v := by
  cases h : t.get? v with
  | none => rw [order_enter_of_get?_eq_none h, if_neg (get?_eq_none_iff.mp h)]
  | some i =>
    rw [enter_of_get?_eq_some h, if_pos]
    exact Array.mem_iff_getElem?.mpr ⟨i, get?_eq_some_iff.mp h⟩

/-- **A variable without a number gets the next one.** -/
theorem get?_enter_of_get?_eq_none {t : NameTable} {v : Var} (h : t.get? v = none) :
    (t.enter v).get? v = some t.size := by
  rw [get?_eq_some_iff, order_enter_of_get?_eq_none h, size_eq]
  exact Array.getElem?_push_size

end NameTable

end Emission
