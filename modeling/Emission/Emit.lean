import Emission.Config.Indentation
import Emission.Naming
import Emission.Output

/-!
# Emission runs

A run writes one text. It is a computation (`Emit`) over a state (`Context`) of parts that live
differently:

* the configuration stays as it is, but for the depth inside a scope (`Emission.Emit.Scope`);
* the name table only grows, whatever scope a variable is named in;
* the output only grows at its end, but for a capture, which has an output of its own;
* the log only grows at its end.

A run starts from a configuration with nothing else in it (`Context.start`), and what is left of it
is the text, the table and the log (`Outcome`). The text is joined at the end, which fails where it would
be too long. `Emit.run` also reports where the run begins and ends; `Emit.drive` is for a caller that
steps through a run by hand, and does not.
-/

namespace Emission

/-- The state of an emission run. -/
structure Context where
  config : Config
  names : NameTable
  output : Output
  log : Array Report

/-- What a run leaves behind. -/
structure Outcome (α : Type) where
  /-- What the computation gave. -/
  result : α
  text : String
  names : NameTable
  log : Array Report

/-- The same, with one more report, that the run ends. -/
def Outcome.leave {α : Type} (o : Outcome α) : Outcome α :=
  { o with log := o.log.push .left }

/-- A computation that writes text; it may fail. -/
abbrev Emit : Type → Type := StateT Context (Except Fault)

namespace Context

/-- The state before anything has been written. -/
def start (config : Config) : Context := ⟨config, .empty, .empty, #[]⟩

/-- The state with one more report. -/
def report (c : Context) (r : Report) : Context :=
  { c with log := c.log.push r }

/-- Ends the run: its size is reported, and the text is joined. -/
def finish {α : Type} (c : Context) (result : α) : Except Fault (Outcome α) := do
  let log := c.log.push (.finished c.output.bytes c.output.count c.names.size)
  return ⟨result, ← c.output.flatten, c.names, log⟩

end Context

namespace Emit

variable {α : Type}

/-! ## 1. Writing -/

/-- Makes a call on the output. -/
def call (call : Call) : Emit Unit :=
  modify fun c => { c with output := call.run c.output }

/-- Writes a text that is lent. -/
def emit (text : String) : Emit Unit :=
  call (.text .lent text)

/-- Writes a text that is given away. -/
def emitOwned (text : String) : Emit Unit :=
  call (.text .owned text)

/-- Writes a text that is fixed. -/
def emitFixed (text : String) : Emit Unit :=
  call (.text .fixed text)

/-- Writes what was captured before. -/
def emitOutput (o : Output) : Emit Unit :=
  modify fun c => { c with output := c.output ++ o }

/-! ## 2. Naming -/

/-- Gives out numbers from the names of the run. -/
def numbering (act : Numbering α) : Emit α := fun ⟨config, names, output, log⟩ => do
  let (a, ⟨names, log⟩) ← act ⟨names, log⟩
  return (a, ⟨config, names, output, log⟩)

/-- The label of `v` under the strategy of the run; writes nothing. -/
def name (v : Var) : Emit String := do
  numbering ((← get).config.naming.label v)

/-- Writes the label of `v`. -/
def emitVar (v : Var) : Emit Unit := do
  emitOwned (← name v)

/-! ## 3. Runs -/

/-- A run that the caller steps through by hand. -/
def drive (config : Config) (body : Emit α) : Except Fault (Outcome α) := do
  let (result, c) ← body (.start config)
  c.finish result

/-- A run of its own, with its beginning and end reported. -/
def run (config : Config) (body : Emit α) : Except Fault (Outcome α) := do
  let (result, c) ← body ((Context.start config).report .entered)
  return (← c.finish result).leave

/-! ## 4. What the writing and naming do to the state -/

theorem call_apply (k : Call) (c : Context) :
    call k c = .ok ((), { c with output := k.run c.output }) := rfl

theorem emitOutput_apply (o : Output) (c : Context) :
    emitOutput o c = .ok ((), { c with output := c.output ++ o }) := rfl

/-- **The label is computed from the names and the log**, and nothing else is touched. -/
theorem name_apply (v : Var) (c : Context) :
    name v c = (c.config.naming.label v ⟨c.names, c.log⟩).map fun r =>
      (r.1, { c with names := r.2.table, log := r.2.log }) := by
  change (do let r ← c.config.naming.label v ⟨c.names, c.log⟩; _) = _
  cases c.config.naming.label v ⟨c.names, c.log⟩ <;> rfl

/-- **Writing the label of a variable is computing it and pushing it.** -/
theorem emitVar_apply (v : Var) (c : Context) :
    emitVar v c = (name v c).map fun r => ((), { r.2 with output := r.2.output.push r.1 }) := by
  change (do let r ← name v c; _) = _
  cases name v c <;> rfl

/-- **A run is its body, from nothing but the configuration**, and what is left of that. -/
theorem run_apply (config : Config) (body : Emit α) :
    run config body =
      (do let r ← body ((Context.start config).report .entered); (r.2.finish r.1).map .leave) := by
  unfold run
  cases body ((Context.start config).report .entered) with
  | error e => rfl
  | ok r =>
    change (do let o ← r.2.finish r.1; return o.leave) = (r.2.finish r.1).map .leave
    cases r.2.finish r.1 <;> rfl

end Emit

end Emission
