import Emission.Program.Trace

/-!
# Running programs

The runner of a program steps through an emission run and keeps a notebook (`Scripted`). Scopes take
the whole of a body, so they are used on bodies with a notebook as they are; `header` and `capture`
give more than their body gives, and hand the notebook on.

`Program.run` is a run of its own, `Program.drive` one that is stepped through by hand; both give the
trace beside what any run leaves behind.
-/

namespace Emission

/-- An emission run with a notebook. -/
abbrev Scripted : Type → Type := StateT Notebook Emit

namespace Scripted

variable {α : Type}

/-- Notes the answer of a step. -/
def note (moment : Moment) (answer : Answer) : Scripted Unit := do
  let c ← getThe Context
  modify (·.note c moment answer)

/-- Runs the body of a step, with a note at its beginning; gives the length of the trace at its
    end. -/
def inside (deed : Deed) (body : Scripted Unit) : Scripted Nat := do
  note (.entered deed) .nothing
  body
  return (← get).trace.size

/-- Runs `body` in a scope. -/
def within (scope : Scope) (body : Scripted α) : Scripted α :=
  fun book => scope.run (body book)

/-- Runs `body` where headers are written. -/
def header (body : Scripted α) : Scripted (Option α) := fun book => do
  match ← Emit.header (body book) with
  | none => return (none, book)
  | some (a, book) => return (some a, book)

/-- Runs `body` with an output of its own, and keeps that output under `key`. -/
def capture (key : String) (body : Scripted α) : Scripted (α × Output) := fun book => do
  let ((a, book), o) ← Emit.capture (body book)
  return ((a, o), { book with kept := book.kept.put key o })

/-- The output kept under `key`, which is kept no longer. -/
def takeKept (key : String) : Scripted Output :=
  modifyGet fun book =>
    ((book.kept.get? key).getD .empty, { book with kept := book.kept.erase key })

/-! ## What the runner does -/

theorem bind_apply {β : Type} (x : Scripted α) (f : α → Scripted β) (book : Notebook)
    (c : Context) :
    (x >>= f) book c =
      match x book c with
      | .error e => .error e
      | .ok r => f r.1.1 r.1.2 r.2 := by
  change (do let r ← x book c; f r.1.1 r.1.2 r.2) = _
  cases x book c <;> rfl

/-- What the run does by itself leaves the notebook alone. -/
theorem lift_apply (x : Emit α) (book : Notebook) (c : Context) :
    (liftM x : Scripted α) book c = (x c).map fun r => ((r.1, book), r.2) := by
  change (do let r ← x c; _) = _
  cases x c <;> rfl

theorem header_apply (body : Scripted α) (book : Notebook) (c : Context) :
    header body book c =
      if c.config.header then
        (body book c).map fun r => ((some r.1.1, r.1.2), r.2)
      else .ok ((none, book), c) := by
  change (do let r ← Emit.header (body book) c; _) = _
  rw [Emit.header_apply]
  by_cases h : c.config.header = true
  · rw [if_pos h, if_pos h]
    cases body book c <;> rfl
  · rw [if_neg h, if_neg h]
    rfl

/-- **What a body wrote is kept under the name, beside what the body itself kept.** -/
theorem capture_apply (key : String) (body : Scripted α) (book : Notebook) (c : Context) :
    capture key body book c =
      (body book { c with output := .empty }).map fun r =>
        (((r.1.1, r.2.output), { r.1.2 with kept := r.1.2.kept.put key r.2.output }),
          { r.2 with output := c.output }) := by
  change (do let r ← Emit.capture (body book) c; _) = _
  rw [Emit.capture_apply]
  cases body book { c with output := .empty } <;> rfl

end Scripted

open Scripted (note inside takeKept)

/-- Does the act, and gives its answer. -/
def Act.perform : Act → Scripted Answer
  | emit how text => do
    Emit.call (.text how text)
    return .nothing
  | newline => do
    Emit.newline
    return .nothing
  | var v => do
    Emit.emitVar v
    return .nothing
  | name v => return .text (← Emit.name v)
  | get v => return .id? ((← getThe Context).names.get? v)
  | width => return .width (← getThe Context).config.indentWidth
  | config => return .config (← getThe Context).config
  | output => return .text (← getThe Context).output.text
  | splice key => do
    Emit.emitOutput (← takeKept key)
    return .nothing
  | render node => do
    node.render
    return .nothing
  | sep items separator => do
    renderSep items separator
    return .nothing

mutual

/-- Runs the step, and notes its answer. -/
def Step.exec : Step → Scripted Unit
  | .act a => do
    let answer ← a.perform
    note (.done a.deed) answer
  | .within scope body => do
    let n ← Scripted.within scope (inside scope.deed (Step.execAll body))
    note (.done scope.deed) (.body n)
  | .header body => do
    let n ← Scripted.header (inside .header (Step.execAll body))
    note (.done .header) (.header n)
  | .capture key body => do
    let (n, o) ← Scripted.capture key (inside .capture (Step.execAll body))
    note (.done .capture) (.capture n o.text o.count)

/-- Runs the steps in order. -/
def Step.execAll : List Step → Scripted Unit
  | [] => pure ()
  | step :: steps => do
    step.exec
    Step.execAll steps

end

namespace Program

/-- The program as a computation that gives its notebook. -/
def script (p : Program) : Emit Notebook := do
  let ((), book) ← Step.execAll p .empty
  return book

/-- Runs the program from `config`. -/
def run (config : Config) (p : Program) : Except Fault (Outcome Notebook) :=
  Emit.run config p.script

/-- Runs the program from `config`, stepping through the run by hand. -/
def drive (config : Config) (p : Program) : Except Fault (Outcome Notebook) :=
  Emit.drive config p.script

/-- **A run is its steps, from nothing but the configuration, and what is left of them.** -/
theorem run_apply (config : Config) (p : Program) :
    run config p =
      (do
        let r ← Step.execAll p .empty ((Context.start config).report .entered)
        (r.2.finish r.1.2).map .leave) := by
  rw [run, Emit.run_apply]
  change (do let r ← (do let r ← Step.execAll p .empty _; _); _) = _
  cases Step.execAll p .empty ((Context.start config).report .entered) <;> rfl

end Program

end Emission
