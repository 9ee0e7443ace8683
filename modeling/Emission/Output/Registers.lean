import Emission.Output.Sink
import Emission.Shelf

/-!
# Registers of output

Several outputs under names, and the things that can be done to them one after the other. A register
that was never written to holds the empty output. Taking a register out leaves it empty, so a
register can be appended to itself: it is taken out first.

`Registers.Action.perform` is one thing done, with what it answers; `Registers.run` runs a list of steps
and notes after each the counts of the register it acted on. Nothing but a `flatten` can fail.
-/

namespace Emission

/-- Outputs under names. -/
abbrev Registers : Type := Shelf Output

namespace Registers

/-- What the register holds. -/
def read (rs : Registers) (key : String) : Output :=
  (rs.get? key).getD .empty

/-- What the register holds, taken out of it. -/
def takeOut (rs : Registers) (key : String) : Output × Registers :=
  (rs.read key, rs.erase key)

/-- Takes several registers out, one after the other; the second time a register is empty. -/
def takeOutAll (rs : Registers) : List String → List Output × Registers
  | [] => ([], rs)
  | key :: keys =>
    let (o, rs) := rs.takeOut key
    let (os, rs) := rs.takeOutAll keys
    (o :: os, rs)

@[simp] theorem read_put (rs : Registers) (key other : String) (o : Output) :
    Registers.read (rs.put key o) other = if other = key then o else rs.read other := by
  unfold Registers.read
  rw [Shelf.get?_put]
  split <;> rfl

@[simp] theorem read_erase (rs : Registers) (key other : String) :
    Registers.read (rs.erase key) other = if other = key then .empty else rs.read other := by
  unfold Registers.read
  rw [Shelf.get?_erase]
  split <;> rfl

/-! ## Steps -/

/-- What can be done to a register. -/
inductive Action where
  /-- Hands a text or a newline over to it. -/
  | call (call : Call)
  /-- Takes `source` out and appends it. -/
  | append (source : String)
  /-- Takes all the sources out, then appends them. -/
  | extend (sources : List String)
  /-- Makes it hold what `source` holds. -/
  | copy (source : String)
  /-- Makes it hold the empty output. -/
  | clear
  /-- Asks whether it equals another register. -/
  | eq (other : String)
  /-- Asks for its text. -/
  | text
  /-- Asks for its counts. -/
  | inspect
  /-- Asks for its pieces. -/
  | pieces
  /-- Takes it out and asks for its text. -/
  | flatten
  /-- Writes it to a sink. -/
  | write (sink : Sink)
  deriving DecidableEq, Repr

/-- What an action answers. -/
inductive Answer where
  | done
  | truth (b : Bool)
  | text (s : String)
  | pieces (ss : List String)
  | receipt (r : Receipt)
  deriving DecidableEq, Repr

/-- The action done to the register `key`: its answer, and the registers afterwards. -/
def Action.perform (key : String) (rs : Registers) : Action → Except Fault (Answer × Registers)
  | call c => return (.done, rs.put key (c.run (rs.read key)))
  | append source =>
    let (o, rs) := rs.takeOut source
    return (.done, rs.put key (rs.read key ++ o))
  | extend sources =>
    let (os, rs) := rs.takeOutAll sources
    return (.done, rs.put key ((rs.read key).extend os))
  | copy source => return (.done, rs.put key (rs.read source))
  | clear => return (.done, rs.put key .empty)
  | eq other => return (.truth (rs.read key == rs.read other), rs)
  | text => return (.text (toString (rs.read key)), rs)
  | inspect => return (.text (rs.read key).inspect, rs)
  | pieces => return (.pieces (rs.read key).pieces.toList, rs)
  | flatten => do
    let (o, rs) := rs.takeOut key
    return (.text (← o.flatten), rs)
  | write sink => return (.receipt ((rs.read key).writeTo sink), rs)

/-- An action and the register it is done to. -/
structure Step where
  on : String
  action : Action
  deriving DecidableEq, Repr

/-- What is noted after a step: its answer, and of the register it acted on the bytes, the number of
    pieces and whether it is empty. -/
structure Note where
  answer : Answer
  bytes : Nat
  pieces : Nat
  isEmpty : Bool
  deriving DecidableEq, Repr

/-- One step, with its note. -/
def Step.run (rs : Registers) (step : Step) : Except Fault (Note × Registers) := do
  let (answer, rs) ← step.action.perform step.on rs
  let o := rs.read step.on
  return (⟨answer, o.bytes, o.count, o.isEmpty⟩, rs)

/-- The steps in order, with their notes. -/
def run : List Step → Registers → Except Fault (List Note × Registers)
  | [], rs => return ([], rs)
  | step :: steps, rs => do
    let (note, rs) ← step.run rs
    let (notes, rs) ← run steps rs
    return (note :: notes, rs)

end Registers

end Emission
