import Emission.Config
import Emission.Fault

/-!
# Indentations

An indentation is the unit of depth repeated as often as the depth says. One that would have more than
`maxTextSize` bytes cannot be written.

* `Config.indentation` is the text, or the fault;
* it is a fault exactly when the width passes the limit (`indentation_eq_error_iff`), which a depth
  with an empty unit never does.
-/

namespace Emission

namespace Config

/-- The text of an indentation at the current depth. At depth 0, and with an empty unit at any depth,
    it is empty. -/
def indentation (c : Config) : Except Fault String :=
  if c.indentLevel = 0 ∨ c.indentUnit = "" then .ok ""
  else if maxTextSize < c.indentLevel * c.indentUnit.utf8ByteSize then .error .capacityOverflow
  else .ok (Text.copies c.indentUnit c.indentLevel)

/-- **An indentation fails exactly when its width passes the limit.** -/
theorem indentation_eq_error_iff (c : Config) {e : Fault} :
    c.indentation = .error e ↔
      e = .capacityOverflow ∧ maxTextSize < c.indentLevel * c.indentUnit.utf8ByteSize := by
  unfold indentation
  split
  · rename_i h
    rcases h with h | h <;> simp [h]
  · split
    · rename_i hlong
      rw [Except.error.injEq, and_iff_left hlong, eq_comm]
    · rename_i hlong
      refine ⟨fun h => ?_, fun h => ?_⟩
      · cases h
      · exact absurd h.2 hlong

/-- **An indentation that does not fail is the unit, as often as the depth says.** -/
theorem indentation_eq_ok {c : Config} {s : String} (h : c.indentation = .ok s) :
    s = Text.copies c.indentUnit c.indentLevel := by
  unfold indentation at h
  split at h
  · rename_i hc
    simp only [Except.ok.injEq] at h
    subst h
    rcases hc with hc | hc <;> simp [hc]
  · split at h
    · simp at h
    · simp only [Except.ok.injEq] at h
      exact h.symm

end Config

end Emission
