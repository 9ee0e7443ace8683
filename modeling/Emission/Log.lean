import Emission.Var

/-!
# The log of a run

What a run reports about itself, in the order in which it happens: that it begins and ends, each
variable when it is numbered, and the size of the result when the text is finished.
-/

namespace Emission

/-- One report. -/
inductive Report where
  /-- A run begins. -/
  | entered
  /-- A run ends. -/
  | left
  /-- The variable has been numbered. -/
  | allocated (v : Var) (id : Nat)
  /-- The text is finished: its bytes, its pieces, and how many variables have a number. -/
  | finished (bytes pieces names : Nat)
  deriving DecidableEq, Repr

end Emission
