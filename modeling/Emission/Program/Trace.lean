import Emission.Program.Step
import Emission.Shelf

/-!
# Traces

What is noted while a program runs: an entry after each step, and one more when the body of a step
begins. An entry has the step's answer and what can be counted at that moment: the bytes and the
pieces of the output, the depth, and the variables with a number.

A notebook has the trace so far and the outputs kept by captures.
-/

namespace Emission

/-- When an entry was made. -/
inductive Moment where
  /-- At the beginning of the step's body. -/
  | entered (deed : Deed)
  /-- After the step. -/
  | done (deed : Deed)
  deriving DecidableEq, Repr

/-- What a step answers. -/
inductive Answer where
  | nothing
  | text (s : String)
  | id? (i : Option Nat)
  | width (n : Nat)
  | config (c : Config)
  /-- The length of the trace at the end of the body. -/
  | body (entries : Nat)
  /-- The same, where the body was run. -/
  | header (entries : Option Nat)
  /-- The same, with the text captured and the number of its pieces. -/
  | capture (entries : Nat) (text : String) (pieces : Nat)
  deriving DecidableEq, Repr

structure Entry where
  moment : Moment
  bytes : Nat
  pieces : Nat
  level : Nat
  names : Nat
  answer : Answer
  deriving DecidableEq, Repr

/-- What the runner of a program has at hand beside the run itself. -/
structure Notebook where
  /-- The captured outputs, under their names. -/
  kept : Shelf Output
  trace : Array Entry

namespace Notebook

def empty : Notebook := ⟨.empty, #[]⟩

/-- The notebook with one more entry, on the state `c`. -/
def note (book : Notebook) (c : Context) (moment : Moment) (answer : Answer) : Notebook :=
  { book with
    trace := book.trace.push
      ⟨moment, c.output.bytes, c.output.count, c.config.indentLevel, c.names.size, answer⟩ }

end Notebook

end Emission
