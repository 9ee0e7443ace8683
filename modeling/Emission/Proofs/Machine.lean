import Emission.Program.Exec
import Emission.Proofs.Spelling

/-!
# Runs in small steps

A run of a program, taken apart into moves. A move is a thing done at once: a text written, a label
computed, a depth changed, an entry noted. What a scope or a capture has to put back at its end lies
on a stack meanwhile, so a state in the middle of a run (`Machine`) is complete in itself, and what
has been said of one move can be said of a whole run by induction on a list.

* `Program.moves` are the moves of a program. They depend on the program, and on the configuration
  only in whether headers are written.
* `Move.exec` does one move, `Machine.run` a list of them. An indentation can fail, and so can a move that
  computes a label (`Context.room`).
* `Machine.finish` ends a run, which fails where the text is too long (`Machine.finish_eq`).
* A move changes the context in three ways only (`Move.exists_context_exec`). Of the configuration
  it changes nothing but the depth (`config_exec`), and so does a run (`config_run`).

That the moves, done in order, are the run of the program is the subject of
`Emission.Proofs.Machine.Run`.
-/

namespace Emission

namespace Context

/-- The label of `v` at this moment. -/
def labelOf (v : Var) (c : Context) : String :=
  c.config.naming.spelling v (c.names.vars.idxOf v)

/-- The state after the label of `v` was computed. -/
def named (v : Var) (c : Context) : Context :=
  { c with
    names := c.config.naming.record v c.names
    log := c.log ++ c.config.naming.reports v c.names }

/-- Fails if the label of `v` needs a number that there is not. -/
def room (v : Var) (c : Context) : Except Fault Unit :=
  c.config.naming.room v c.names

/-- The state with `s` written. -/
def write (s : String) (c : Context) : Context :=
  { c with output := c.output.push s }

/-- The state at another depth. -/
def atDepth (depth : Nat) (c : Context) : Context :=
  { c with config := { c.config with indentLevel := depth } }

/-- What is left behind of a run that ends in this state, however long its text. -/
def outcome {α : Type} (c : Context) (result : α) : Outcome α where
  result := result
  text := c.output.text
  names := c.names
  log := c.log.push (.finished c.output.bytes c.output.count c.names.size)

/-- **A run ends where a text can have so many bytes.** -/
theorem finish_eq {α : Type} (c : Context) (result : α) :
    c.finish result =
      if maxTextSize < c.output.bytes then .error .capacityOverflow else .ok (c.outcome result) := by
  unfold finish
  rw [Output.flatten_eq]
  split <;> rfl

/-- A run that has ended left its state behind. -/
theorem of_finish_eq_ok {α : Type} {c : Context} {result : α} {o : Outcome α}
    (h : c.finish result = .ok o) :
    c.output.bytes ≤ maxTextSize ∧ o = c.outcome result := by
  rw [finish_eq] at h
  split at h
  · cases h
  · rename_i hshort
    cases h
    exact ⟨Nat.le_of_not_lt hshort, rfl⟩

end Context

/-- **Computing a label**, in one step. -/
theorem Emit.name_eq (v : Var) (c : Context) :
    name v c = (c.room v).map fun _ => (c.labelOf v, c.named v) := by
  rw [name_apply, Naming.label_apply]
  show (Except.map _ (c.room v)).map _ = _
  cases c.room v <;> rfl

/-- Writing the label of a variable, in one step. -/
theorem Emit.emitVar_eq (v : Var) (c : Context) :
    emitVar v c = (c.room v).map fun _ => ((), (c.named v).write (c.labelOf v)) := by
  rw [emitVar_apply, name_eq]
  cases c.room v <;> rfl

/-! ## 1. Machines -/

/-- A state in the middle of a run. -/
structure Machine where
  context : Context
  book : Notebook
  /-- The depths to be put back, the innermost first. -/
  depths : List Nat
  /-- The outputs to be put back, the innermost first. -/
  outers : List Output

namespace Machine

/-- A run starts with nothing but the configuration. -/
def start (config : Config) : Machine :=
  ⟨(Context.start config).report .entered, .empty, [], []⟩

/-- What a run leaves behind that ends here, however long its text. -/
def outcome (m : Machine) : Outcome Notebook :=
  (m.context.outcome m.book).leave

/-- Ends a run. -/
def finish (m : Machine) : Except Fault (Outcome Notebook) :=
  (m.context.finish m.book).map .leave

/-- **A run ends where a text can have so many bytes as were written.** -/
theorem finish_eq (m : Machine) :
    m.finish =
      if maxTextSize < m.context.output.bytes then .error .capacityOverflow else .ok m.outcome := by
  unfold finish
  rw [Context.finish_eq]
  split <;> rfl

/-- It cannot end where there are more. -/
theorem finish_eq_error_iff {m : Machine} {e : Fault} :
    m.finish = .error e ↔ e = .capacityOverflow ∧ maxTextSize < m.context.output.bytes := by
  rw [finish_eq]
  split
  · rename_i hlong
    exact ⟨fun h => ⟨(Except.error.inj h).symm, hlong⟩, fun h => h.1 ▸ rfl⟩
  · rename_i hshort
    refine ⟨fun h => ?_, fun h => absurd h.2 hshort⟩
    cases h

/-- Changes the context. -/
def onContext (f : Context → Context) (m : Machine) : Machine :=
  { m with context := f m.context }

/-- Notes an answer. -/
def note (moment : Moment) (answer : Answer) (m : Machine) : Machine :=
  { m with book := m.book.note m.context moment answer }

/-- Goes to another depth. -/
def enter (depth : Nat) (m : Machine) : Machine :=
  { m with
    context := m.context.atDepth depth
    depths := m.context.config.indentLevel :: m.depths }

/-- Goes back to the depth before. -/
def leave (m : Machine) : Machine :=
  match m.depths with
  | [] => m
  | depth :: depths => { m with context := m.context.atDepth depth, depths }

/-- Begins a capture: the output is put aside. -/
def setAside (m : Machine) : Machine :=
  { m with
    context := { m.context with output := .empty }
    outers := m.context.output :: m.outers }

/-- Ends a capture: the output before is put back, and the one there is is kept under `key`. -/
def keep (key : String) (m : Machine) : Machine :=
  match m.outers with
  | [] => m
  | outer :: outers =>
    { m with
      context := { m.context with output := outer }
      book := { m.book with kept := m.book.kept.put key m.context.output }
      outers }

/-- Writes what is kept under `key`, and keeps it no longer. -/
def splice (key : String) (m : Machine) : Machine :=
  { m with
    context := { m.context with
      output := m.context.output ++ (m.book.kept.get? key).getD .empty }
    book := { m.book with kept := m.book.kept.erase key } }

end Machine

/-! ## 2. Moves -/

/-- What there is to say in an entry. -/
inductive Remark where
  | nothing
  /-- The number of a variable. -/
  | id? (v : Var)
  | width
  | config
  | output
  /-- The length of the trace after a body. -/
  | body
  /-- The same, after the body of a header. -/
  | header
  /-- A header was not written. -/
  | skipped
  deriving DecidableEq, Repr

/-- The answer to be noted. -/
def Remark.answer (m : Machine) : Remark → Answer
  | nothing => .nothing
  | id? v => .id? (m.context.names.get? v)
  | width => .width m.context.config.indentWidth
  | config => .config m.context.config
  | output => .text m.context.output.text
  | body => .body m.book.trace.size
  | header => .header (some m.book.trace.size)
  | skipped => .header none

/-- A thing done at once. -/
inductive Move where
  /-- Writes a text. -/
  | write (s : String)
  /-- Writes a newline where lines end. -/
  | newline
  | indentation
  /-- Writes the label of a variable. -/
  | label (v : Var)
  /-- Computes the label of a variable, and notes it. -/
  | name (v : Var)
  | splice (key : String)
  /-- Goes one step further in. -/
  | further
  /-- Goes to a depth. -/
  | level (depth : Nat)
  /-- Goes back to the depth before. -/
  | leave
  /-- Begins a capture. -/
  | setAside
  /-- Ends a capture, and notes what was captured. -/
  | keep (key : String)
  /-- Notes something else. -/
  | note (moment : Moment) (remark : Remark)
  deriving DecidableEq, Repr

/-- The variable whose label the move computes, if it computes one. -/
def Move.var? : Move → Option Var
  | label v | name v => some v
  | write _ | newline | indentation | splice _ | further | level _ | leave | setAside | keep _
  | note _ _ => none

/-- Does the move. -/
def Move.exec (m : Machine) : Move → Except Fault Machine
  | write s => .ok (m.onContext (·.write s))
  | newline => .ok (if m.context.config.newlines then m.onContext (·.write "\n") else m)
  | indentation => m.context.config.indentation.map fun s => m.onContext (·.write s)
  | label v => (m.context.room v).map fun _ => m.onContext fun c => (c.named v).write (c.labelOf v)
  | name v =>
    (m.context.room v).map fun _ =>
      (m.onContext (·.named v)).note (.done .name) (.text (m.context.labelOf v))
  | splice key => .ok (m.splice key)
  | further => .ok (m.enter m.context.config.further)
  | level depth => .ok (m.enter depth)
  | leave => .ok m.leave
  | setAside => .ok m.setAside
  | keep key =>
    .ok ((m.keep key).note (.done .capture)
      (.capture m.book.trace.size m.context.output.text m.context.output.count))
  | note moment remark => .ok (m.note moment (remark.answer m))

section

variable {m n : Machine} {v : Var}

/-- **An indentation that does not fail writes its text.** -/
theorem Move.exists_of_indentation_exec (h : indentation.exec m = .ok n) :
    ∃ s, m.context.config.indentation = .ok s ∧ n = m.onContext (·.write s) := by
  obtain ⟨s, hs, hn⟩ := map_eq_ok_iff.mp h
  exact ⟨s, hs, hn.symm⟩

/-- A label that can be computed is written. -/
theorem Move.eq_of_label_exec (h : (label v).exec m = .ok n) :
    n = m.onContext fun c => (c.named v).write (c.labelOf v) := by
  obtain ⟨-, -, hn⟩ := map_eq_ok_iff.mp h
  exact hn.symm

/-- A label that can be computed is noted. -/
theorem Move.eq_of_name_exec (h : (name v).exec m = .ok n) :
    n = (m.onContext (·.named v)).note (.done .name) (.text (m.context.labelOf v)) := by
  obtain ⟨-, -, hn⟩ := map_eq_ok_iff.mp h
  exact hn.symm

/-- A move that computes a label finds a number for it, or it fails. -/
theorem Move.room_of_exec {mv : Move} (h : mv.exec m = .ok n) (hv : mv.var? = some v) :
    m.context.room v = .ok () := by
  cases mv with
  | label w | name w =>
    cases hv
    obtain ⟨⟨⟩, hroom, -⟩ := map_eq_ok_iff.mp h
    exact hroom
  | write | newline | indentation | splice | further | level | leave | setAside | keep | note =>
    cases hv

/-- **A move fails in one of two ways**: an indentation is too long, or there is no number for the label
    that it computes. -/
theorem Move.exec_eq_error {mv : Move} {e : Fault} (h : mv.exec m = .error e) :
    mv = .indentation ∧ m.context.config.indentation = .error e ∨
      ∃ v, mv.var? = some v ∧ m.context.room v = .error e := by
  cases mv with
  | indentation => exact .inl ⟨rfl, map_eq_error_iff.mp h⟩
  | label v | name v => exact .inr ⟨v, rfl, map_eq_error_iff.mp h⟩
  | write | newline | splice | further | level | leave | setAside | keep | note => cases h

end

/-- Does the moves in order. -/
def Machine.run (mvs : List Move) (m : Machine) : Except Fault Machine :=
  mvs.foldlM Move.exec m

namespace Machine

theorem run_cons (mv : Move) (mvs : List Move) (m : Machine) :
    run (mv :: mvs) m = mv.exec m >>= run mvs := rfl

theorem run_append (mvs mvs' : List Move) (m : Machine) :
    run (mvs ++ mvs') m = run mvs m >>= run mvs' :=
  List.foldlM_append

/-- **What every move keeps, a run keeps.** -/
theorem run_induction {P : Machine → Prop} {mvs : List Move} {m m' : Machine}
    (hstep : ∀ mv ∈ mvs, ∀ m m', P m → mv.exec m = .ok m' → P m') (hm : P m)
    (h : run mvs m = .ok m') : P m' := by
  induction mvs generalizing m with
  | nil =>
    cases h
    exact hm
  | cons mv mvs ih =>
    obtain ⟨m₁, hmv, hrest⟩ := bind_eq_ok_iff.mp h
    have hm₁ : P m₁ := hstep mv List.mem_cons_self m m₁ hm hmv
    exact ih (fun mv' hmem => hstep mv' (List.mem_cons_of_mem mv hmem)) hm₁ hrest

end Machine

/-- **What a move can do to the context**: record the variable that it looks up, go to another depth,
    and change the output. -/
theorem Move.exists_context_exec {mv : Move} {m m' : Machine} (h : mv.exec m = .ok m') :
    ∃ depth output, m'.context =
      { mv.var?.elim m.context (m.context.named ·) with
        config := { m.context.config with indentLevel := depth }
        output } := by
  cases mv with
  | newline =>
    cases h
    by_cases hn : m.context.config.newlines = true
    · rw [if_pos hn]
      exact ⟨_, _, rfl⟩
    · rw [if_neg hn]
      exact ⟨_, _, rfl⟩
  | indentation =>
    obtain ⟨s, -, rfl⟩ := Move.exists_of_indentation_exec h
    exact ⟨_, _, rfl⟩
  | leave =>
    cases h
    unfold Machine.leave
    cases m.depths with
    | nil => exact ⟨_, _, rfl⟩
    | cons depth depths => exact ⟨depth, _, rfl⟩
  | keep key =>
    cases h
    unfold Machine.keep
    cases m.outers with
    | nil => exact ⟨_, _, rfl⟩
    | cons outer outers => exact ⟨_, outer, rfl⟩
  | label v =>
    rw [Move.eq_of_label_exec h]
    exact ⟨_, _, rfl⟩
  | name v =>
    rw [Move.eq_of_name_exec h]
    exact ⟨_, _, rfl⟩
  | write | splice | further | level | setAside | note =>
    cases h
    exact ⟨_, _, rfl⟩

/-- A move changes nothing of the configuration but the depth. -/
theorem Move.config_exec {mv : Move} {m m' : Machine} (h : mv.exec m = .ok m') :
    m'.context.config =
      { m.context.config with indentLevel := m'.context.config.indentLevel } := by
  obtain ⟨depth, output, hcontext⟩ := Move.exists_context_exec h
  rw [hcontext]

/-- **A run changes nothing of the configuration but the depth.** -/
theorem Machine.config_run {mvs : List Move} {m m' : Machine} (h : run mvs m = .ok m') :
    m'.context.config =
      { m.context.config with indentLevel := m'.context.config.indentLevel } := by
  refine run_induction (P := fun n => n.context.config =
    { m.context.config with indentLevel := n.context.config.indentLevel }) ?_ rfl h
  intro mv _ n n' hn hmv
  have hconfig := Move.config_exec hmv
  rw [hn] at hconfig
  exact hconfig

/-! ## 3. The moves of a program -/

/-- The moves by which a scope begins. -/
def Scope.before : Scope → List Move
  | indent | line => [.indentation]
  | further => [.further]
  | level n => [.level n]

/-- The moves by which a scope ends. -/
def Scope.after : Scope → List Move
  | indent => []
  | line => [.newline]
  | further | level _ => [.leave]

/-- Moves with a text written between neighbours. -/
def Move.separated (separator : String) : List (List Move) → List Move
  | [] => []
  | mvs :: rest => mvs ++ rest.flatMap fun mvs => .write separator :: mvs

/-- What is put between neighbours has no part in what is picked out, if it is not picked itself. -/
theorem filterMap_flatMap_cons {α β : Type} {f : α → Option β} {a : α} (ha : f a = none)
    (ls : List (List α)) : (ls.flatMap (a :: ·)).filterMap f = ls.flatten.filterMap f := by
  induction ls with
  | nil => rfl
  | cons l ls ih =>
    rw [List.flatMap_cons, List.flatten_cons, List.cons_append, List.filterMap_cons_none ha,
      List.filterMap_append, List.filterMap_append, ih]

mutual

/-- The moves that write a node. -/
def Node.moves : Node → List Move
  | .text s | .literal s => [.write s]
  | .var v => [.label v]
  | .list nodes => (Node.movesEach nodes).flatten
  | .absent => []
  | .present node | .boxed node | .ref node => node.moves
  | .within scope node => scope.before ++ node.moves ++ scope.after
  | .sep separator nodes => Move.separated separator (Node.movesEach nodes)

/-- The moves of each of some nodes. -/
def Node.movesEach : List Node → List (List Move)
  | [] => []
  | node :: nodes => node.moves :: Node.movesEach nodes

end

/-- The moves of an act. -/
def Act.moves : Act → List Move
  | emit how s => [.write s, .note (.done (.emit how)) .nothing]
  | newline => [.newline, .note (.done .newline) .nothing]
  | var v => [.label v, .note (.done .var) .nothing]
  | name v => [.name v]
  | get v => [.note (.done .get) (.id? v)]
  | width => [.note (.done .width) .width]
  | config => [.note (.done .config) .config]
  | output => [.note (.done .output) .output]
  | splice key => [.splice key, .note (.done .splice) .nothing]
  | render node => node.moves ++ [.note (.done .render) .nothing]
  | sep items separator =>
    Move.separated separator (Node.movesEach items) ++ [.note (.done .sep) .nothing]

mutual

/-- The moves of a step, where headers are written or are not. -/
def Step.moves (header : Bool) : Step → List Move
  | .act a => a.moves
  | .within scope body =>
    scope.before ++ .note (.entered scope.deed) .nothing :: Step.movesAll header body ++
      scope.after ++ [.note (.done scope.deed) .body]
  | .header body =>
    if header then
      .note (.entered .header) .nothing :: Step.movesAll header body ++
        [.note (.done .header) .header]
    else [.note (.done .header) .skipped]
  | .capture key body =>
    .setAside :: .note (.entered .capture) .nothing :: Step.movesAll header body ++ [.keep key]

/-- The moves of some steps. -/
def Step.movesAll (header : Bool) : List Step → List Move
  | [] => []
  | step :: steps => step.moves header ++ Step.movesAll header steps

end

theorem Step.movesAll_append (header : Bool) (ss tt : List Step) :
    Step.movesAll header (ss ++ tt) = Step.movesAll header ss ++ Step.movesAll header tt := by
  induction ss with
  | nil => rfl
  | cons s ss ih => rw [List.cons_append, Step.movesAll, ih, Step.movesAll, List.append_assoc]

/-- The moves of a program, run from a configuration. -/
def Program.moves (config : Config) (p : Program) : List Move :=
  Step.movesAll config.header p

end Emission
