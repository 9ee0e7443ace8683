import Emission.Render.Node

/-!
# Programs

A program is a list of steps that drive an emission run. A step is either an act, which is done at
once, or it has a body of further steps: a scope, a header, or a capture, whose output is kept under
a name until it is written somewhere (`splice`).
-/

namespace Emission

/-- A step without a body. -/
inductive Act where
  /-- Writes a text. -/
  | emit (how : Handover) (text : String)
  /-- Writes a newline where lines end. -/
  | newline
  /-- Writes the label of a variable. -/
  | var (v : Var)
  /-- Asks for the label of a variable. -/
  | name (v : Var)
  /-- Asks for the number of a variable. -/
  | get (v : Var)
  /-- Asks for the width of an indentation. -/
  | width
  /-- Asks for the configuration. -/
  | config
  /-- Asks for the text written so far. -/
  | output
  /-- Writes the output kept under a name, which is kept no longer. -/
  | splice (key : String)
  /-- Renders a node. -/
  | render (node : Node)
  /-- Renders nodes with a separator between neighbours. -/
  | sep (items : List Node) (separator : String)
  deriving Repr

/-- One step of a program. -/
inductive Step where
  | act (act : Act)
  /-- Runs the body in a scope. -/
  | within (scope : Scope) (body : List Step)
  /-- Runs the body where headers are written. -/
  | header (body : List Step)
  /-- Runs the body with an output of its own, and keeps it under a name. -/
  | capture (key : String) (body : List Step)
  deriving Repr

/-- The steps of a program, in order. -/
abbrev Program : Type := List Step

/-- What a step does, without its parts. -/
inductive Deed where
  | emit (how : Handover)
  | newline
  | var
  | name
  | get
  | width
  | config
  | output
  | splice
  | render
  | sep
  | indent
  | line
  | further
  | level
  | header
  | capture
  deriving DecidableEq, Repr

def Act.deed : Act → Deed
  | emit how _ => .emit how
  | newline => .newline
  | var _ => .var
  | name _ => .name
  | get _ => .get
  | width => .width
  | config => .config
  | output => .output
  | splice _ => .splice
  | render _ => .render
  | sep _ _ => .sep

def Scope.deed : Scope → Deed
  | indent => .indent
  | line => .line
  | further => .further
  | level _ => .level

end Emission
