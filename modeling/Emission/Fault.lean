import Emission.Text.Decimal

/-!
# Limits and faults

Two things cannot grow for ever: a text, which has at most `maxTextSize` bytes, and a name table, which
has numbers for `nameCapacity` variables. Where one of them would pass its limit, what is being done
ends with a `Fault`, and nothing of it is left.
-/

namespace Emission

/-- The greatest size of a text, in bytes: half of what a word of 64 bits can count. -/
def maxTextSize : Nat := UInt64.size / 2 - 1

/-- How many variables can have a number: as many as there are words of 32 bits. -/
def nameCapacity : Nat := UInt32.size

/-- What ends a computation early. -/
inductive Fault where
  /-- A text would have more bytes than a text can have. -/
  | capacityOverflow
  /-- A variable asked for a number when all numbers were given out, to `size` variables. -/
  | namesExhausted (size : Nat)
  deriving DecidableEq, Repr

/-- The wording of a fault. -/
def Fault.message : Fault → String
  | .capacityOverflow => "capacity overflow"
  | .namesExhausted size =>
    "unique name store exceeded capacity: " ++ Text.natural size ++ " variables, max is " ++
      Text.natural (nameCapacity - 1)

/-! ## Results that something is done with -/

section

variable {ε α β : Type} {x : Except ε α} {f : α → β} {g : α → Except ε β}

theorem map_eq_ok_iff {b : β} : x.map f = .ok b ↔ ∃ a, x = .ok a ∧ f a = b := by
  cases x with
  | error e =>
    refine ⟨fun h => ?_, fun h => ?_⟩
    · cases h
    · obtain ⟨a, ha, -⟩ := h
      cases ha
  | ok a =>
    constructor
    · intro h
      cases h
      exact ⟨a, rfl, rfl⟩
    · rintro ⟨a', ha', rfl⟩
      cases ha'
      rfl

theorem map_eq_error_iff {e : ε} : x.map f = .error e ↔ x = .error e := by
  cases x with
  | error e' =>
    refine ⟨fun h => ?_, fun h => ?_⟩
    · cases h
      rfl
    · cases h
      rfl
  | ok a =>
    refine ⟨fun h => ?_, fun h => ?_⟩
    · cases h
    · cases h

/-- What does not fail has a result. -/
theorem exists_of_isOk (h : x.isOk = true) : ∃ a, x = .ok a := by
  cases x with
  | error e => cases h
  | ok a => exact ⟨a, rfl⟩

/-- **One computation after another does not fail** if neither does. -/
theorem bind_eq_ok_iff {b : β} : x >>= g = .ok b ↔ ∃ a, x = .ok a ∧ g a = .ok b := by
  cases x with
  | error e =>
    refine ⟨fun h => ?_, fun h => ?_⟩
    · cases h
    · obtain ⟨a, ha, -⟩ := h
      cases ha
  | ok a =>
    refine ⟨fun h => ⟨a, rfl, h⟩, fun h => ?_⟩
    obtain ⟨a', ha', hb⟩ := h
    cases ha'
    exact hb

/-- It fails as the first does, or else as the second. -/
theorem bind_eq_error_iff {e : ε} :
    x >>= g = .error e ↔ x = .error e ∨ ∃ a, x = .ok a ∧ g a = .error e := by
  cases x with
  | error e' =>
    constructor
    · intro h
      cases h
      exact .inl rfl
    · rintro (h | ⟨a, ha, -⟩)
      · cases h
        rfl
      · cases ha
  | ok a =>
    constructor
    · exact fun h => .inr ⟨a, rfl, h⟩
    · rintro (h | ⟨a', ha', h⟩)
      · cases h
      · cases ha'
        exact h

end

end Emission
