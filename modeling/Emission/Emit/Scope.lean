import Emission.Emit

/-!
# Scopes

A scope runs a computation, its body, with something done around it:

* `indent` writes an indentation before it, `line` also a newline after it;
* `atLevel` runs it at a given depth and `further` one step further in; the depth found is put back
  at the end, however the body left it;
* `header` runs it only where headers are written;
* `capture` runs it with an output of its own, and hands that output over instead of writing it.

Each gives what its body gives; `header` only where the body was run, and `capture` with the output
beside it. A `Scope` is one of those that always run their body and write it where it stands.
-/

namespace Emission

namespace Emit

variable {α : Type}

/-- Writes a newline where lines end. -/
def newline : Emit Unit := do
  if (← get).config.newlines then emitFixed "\n"

/-- Writes an indentation at the current depth. -/
def indentation : Emit Unit := do
  emitOwned (← (← get).config.indentation)

/-- Runs `body` after an indentation. -/
def indent (body : Emit α) : Emit α := do
  indentation
  body

/-- Runs `body` on a line of its own. -/
def line (body : Emit α) : Emit α := do
  let a ← indent body
  newline
  return a

/-- Changes the depth. -/
def setLevel (level : Nat) : Emit Unit :=
  modify fun c => { c with config := { c.config with indentLevel := level } }

/-- Runs `body` at the depth `level`. -/
def atLevel (level : Nat) (body : Emit α) : Emit α := do
  let found := (← get).config.indentLevel
  setLevel level
  let a ← body
  setLevel found
  return a

/-- Runs `body` one step further in. -/
def further (body : Emit α) : Emit α := do
  atLevel (← get).config.further body

/-- Runs `body` where headers are written. -/
def header (body : Emit α) : Emit (Option α) := do
  if (← get).config.header then return some (← body) else return none

/-- Changes the output; gives the one there was. -/
def swapOutput (o : Output) : Emit Output :=
  modifyGet fun c => (c.output, { c with output := o })

/-- Runs `body` with an empty output, and gives what it wrote beside what it gives. -/
def capture (body : Emit α) : Emit (α × Output) := do
  let outer ← swapOutput .empty
  let a ← body
  let inner ← swapOutput outer
  return (a, inner)

/-! ## What the scopes do to the state -/

theorem newline_apply (c : Context) :
    newline c =
      .ok ((), if c.config.newlines then { c with output := c.output.push "\n" } else c) := by
  obtain ⟨⟨_, _, _, newlines, _, _⟩, _, _, _⟩ := c
  cases newlines <;> rfl

theorem indentation_apply (c : Context) :
    indentation c =
      c.config.indentation.map fun s => ((), { c with output := c.output.push s }) := by
  change (do let p ← (do let s ← c.config.indentation; return (s, c)); emitOwned p.1 p.2) = _
  cases c.config.indentation <;> rfl

/-- **The depth is put back, whatever the body did to it.** -/
theorem atLevel_apply (level : Nat) (body : Emit α) (c : Context) :
    atLevel level body c =
      (body { c with config := { c.config with indentLevel := level } }).map fun (a, c') =>
        (a, { c' with config := { c'.config with indentLevel := c.config.indentLevel } }) := by
  change (do let p ← body _; _) = _
  cases body { c with config := { c.config with indentLevel := level } } <;> rfl

theorem further_apply (body : Emit α) (c : Context) :
    further body c = atLevel c.config.further body c := rfl

theorem header_apply (body : Emit α) (c : Context) :
    header body c =
      if c.config.header then (body c).map fun (a, c') => (some a, c') else .ok (none, c) := by
  obtain ⟨⟨_, _, _, _, header, _⟩, _, _, _⟩ := c
  cases header
  · rfl
  · change (do let p ← body _; _) = _
    rw [if_pos rfl]
    cases body _ <;> rfl

/-- **A capture starts from the empty output, and the output there was is put back.** -/
theorem capture_apply (body : Emit α) (c : Context) :
    capture body c = (body { c with output := .empty }).map fun (a, c') =>
      ((a, c'.output), { c' with output := c.output }) := by
  change (do let p ← body _; _) = _
  cases body { c with output := .empty } <;> rfl

end Emit

/-- A scope that runs its body and writes it where it stands. -/
inductive Scope where
  | indent
  | line
  | further
  | level (level : Nat)
  deriving DecidableEq, Repr

/-- Runs `body` in the scope. -/
def Scope.run {α : Type} : Scope → Emit α → Emit α
  | indent, body => body.indent
  | line, body => body.line
  | further, body => body.further
  | level n, body => body.atLevel n

end Emission
