/-!
# Shelves

A shelf keeps values under names. A value put under a name takes the place of the one kept there
before. The view of a shelf is the look-up `get?`; what the other operations do to it is stated
beside them (`get?_erase`, `get?_put`).
-/

namespace Emission

/-- Values kept under names. -/
structure Shelf (α : Type) where
  slots : List (String × α)

namespace Shelf

variable {α : Type}

def empty : Shelf α := ⟨[]⟩

instance : EmptyCollection (Shelf α) := ⟨empty⟩

/-- The first value in `slots` under `key`. -/
def find? (key : String) : List (String × α) → Option α
  | [] => none
  | (k, a) :: slots => if key = k then some a else find? key slots

/-- The value kept under `key`. -/
def get? (shelf : Shelf α) (key : String) : Option α :=
  find? key shelf.slots

/-- The shelf without what is kept under `key`. -/
def erase (shelf : Shelf α) (key : String) : Shelf α :=
  ⟨shelf.slots.filter fun slot => slot.1 ≠ key⟩

/-- Keeps `a` under `key`. -/
def put (shelf : Shelf α) (key : String) (a : α) : Shelf α :=
  ⟨(key, a) :: (shelf.erase key).slots⟩

@[simp] theorem get?_empty (key : String) : (empty : Shelf α).get? key = none := rfl

/-- **What is kept after something was taken away.** -/
theorem get?_erase (shelf : Shelf α) (key other : String) :
    (shelf.erase key).get? other = if other = key then none else shelf.get? other := by
  obtain ⟨slots⟩ := shelf
  induction slots with
  | nil => simp [erase, get?, find?]
  | cons slot slots ih =>
    obtain ⟨k, a⟩ := slot
    simp only [erase, get?] at ih ⊢
    by_cases hk : k = key <;> by_cases ho : other = k <;> simp_all [find?]

/-- **What is kept after something was put under a name.** -/
theorem get?_put (shelf : Shelf α) (key other : String) (a : α) :
    (shelf.put key a).get? other = if other = key then some a else shelf.get? other := by
  have h := get?_erase shelf key other
  by_cases ho : other = key
  · simp [put, get?, find?, ho]
  · simp only [if_neg ho] at h ⊢
    rw [← h]
    simp [put, get?, find?, ho]

end Shelf

end Emission
