import Emission.Naming
import Emission.Shelf
import Emission.Text.Decimal

/-!
# Sessions with a name table

A session works on one current table and one text, and can save the table under a name and load it
back. A saved table is a value of its own: what is done to the current table later does not reach it.
A session ends with a fault where it asks the current table for a number that there is not.

`Session.Step.perform` is what one step does, with what it answers; `Session.run` runs a list of steps
and notes the size of the current table after each.
-/

namespace Emission

/-- The state of a session. -/
structure Session where
  /-- The current table. -/
  table : NameTable
  /-- The text that labels are written to. -/
  text : String
  /-- The saved tables. -/
  saved : Shelf NameTable
  /-- The reports on the variables numbered, in order. -/
  log : Array Report

namespace Session

/-- A session starts with an empty table, no text and nothing saved. -/
def start : Session := ⟨.empty, "", .empty, #[]⟩

/-- Gives out numbers from the current table. -/
def numbering {α : Type} (act : Numbering α) : Session → Except Fault (α × Session) :=
  fun ⟨table, text, saved, log⟩ => do
    let (a, ⟨table, log⟩) ← act ⟨table, log⟩
    return (a, ⟨table, text, saved, log⟩)

/-- The internal variables named `stem` followed by the numerals of `first` up to, and without,
    `last`. -/
def family (stem : String) (first last : Nat) : List Var :=
  (List.range' first (last - first)).map fun i => .internal (stem ++ Text.natural i)

/-- What can be done in a session. -/
inductive Step where
  /-- Numbers a variable. -/
  | allocate (v : Var)
  /-- Asks for the number of a variable. -/
  | get (v : Var)
  /-- Asks for the label of a variable. -/
  | label (naming : Naming) (v : Var)
  /-- Writes the label of a variable after the text; answers with the whole text. -/
  | writeLabel (naming : Naming) (v : Var)
  /-- Numbers a family of variables; answers with the first number and the last. -/
  | fill (stem : String) (first last : Nat)
  /-- Asks for all entries. -/
  | entries
  /-- Saves the table. -/
  | save (key : String)
  /-- Loads a saved table, or an empty one if there is none. -/
  | load (key : String)
  deriving DecidableEq, Repr

/-- What a step answers. -/
inductive Answer where
  | done
  | id (i : Nat)
  | id? (i : Option Nat)
  | text (s : String)
  | ends (ids : Option (Nat × Nat))
  | entries (es : List (Var × Nat))
  deriving DecidableEq, Repr

/-- The first and the last of some numbers. -/
def ends (ids : List Nat) : Option (Nat × Nat) :=
  match ids.head?, ids.getLast? with
  | some first, some last => some (first, last)
  | _, _ => none

/-- What the step does: its answer, and the session afterwards. -/
def Step.perform (s : Session) : Step → Except Fault (Answer × Session)
  | allocate v => do
    let (i, s) ← s.numbering (Numbering.allocate v)
    return (.id i, s)
  | get v => return (.id? (s.table.get? v), s)
  | label naming v => do
    let (l, s) ← s.numbering (naming.label v)
    return (.text l, s)
  | writeLabel naming v => do
    let (text, s) ← s.numbering (naming.writeLabel v s.text)
    return (.text text, { s with text })
  | fill stem first last => do
    let (ids, s) ← s.numbering (Numbering.allocateAll (family stem first last))
    return (.ends (ends ids), s)
  | entries => return (.entries s.table.entries, s)
  | save key => return (.done, { s with saved := s.saved.put key s.table })
  | load key => return (.done, { s with table := (s.saved.get? key).getD .empty })

/-- What is noted after a step: its answer, and the size of the current table. -/
structure Note where
  answer : Answer
  size : Nat
  isEmpty : Bool
  deriving DecidableEq, Repr

/-- One step, with its note. -/
def Step.run (s : Session) (step : Step) : Except Fault (Note × Session) := do
  let (answer, s) ← step.perform s
  return (⟨answer, s.table.size, s.table.isEmpty⟩, s)

/-- The steps in order, with their notes. -/
def run : List Step → Session → Except Fault (List Note × Session)
  | [], s => return ([], s)
  | step :: steps, s => do
    let (note, s) ← step.run s
    let (notes, s) ← run steps s
    return (note :: notes, s)

end Session

end Emission
