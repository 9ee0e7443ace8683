import Emission.Output.Registers
import Emission.Proofs.Log
import Emission.Proofs.Output

/-!
# How texts are handed over

A caller lends a text, gives it away, or has it as a fixed part of the program; and a newline is a text
like any other. An output takes each of these by a way of its own, but what it keeps is the same: the
texts that a transcript of the calls has, without the empty ones (`Output.runAll_eq_append`).

So one way of handing over can be put in place of another.

* `Call.asLent`, `Registers.Step.asLent` and `Step.asLent` say what is the same but for the ways of
  handing over: two things that are the same once every text is lent.
* Steps on registers answer and leave the same (`Registers.run_map_asLent`).
* Of the steps of a run the name shows in the trace, and tells how the text was handed over. A machine
  whose trace has the names that lent texts give (`Machine.asLent`) goes from state to state as the
  machine itself does (`Move.exec_asLent`), so that nothing else in a run can tell.
-/

namespace Emission

/-! ## 1. Calls -/

/-- The call as if its text were lent. -/
def Call.asLent (call : Call) : Call :=
  .text .lent call.payload

/-- The emitter as if it said nothing but how it takes a lent text. -/
@[reducible]
def Emitter.byLending (σ : Type) [Emitter σ] : Emitter σ where
  emit := Emitter.emit

namespace Output

/-- Calls that hand over the same text do the same. -/
theorem run_eq_run_of_payload {call call' : Call} (h : call.payload = call'.payload) (o : Output) :
    call'.run o = call.run o := by
  rw [run_eq_push, run_eq_push, h]

/-- **No call can tell** whether an output has ways of its own to take what is not lent. -/
theorem run_byLending (call : Call) (o : Output) :
    @Call.run Output (Emitter.byLending Output) call o = call.run o := by
  have hlent : @Call.run Output (Emitter.byLending Output) call o = call.asLent.run o := by
    cases call with
    | text how s => cases how <;> rfl
    | newline => rfl
  have hpayload : call.payload = call.asLent.payload := rfl
  rw [hlent, run_eq_run_of_payload hpayload]

theorem runAll_byLending (calls : List Call) (o : Output) :
    @Call.runAll Output (Emitter.byLending Output) calls o = Call.runAll calls o := by
  induction calls generalizing o with
  | nil => rfl
  | cons call calls ih =>
    have hcall := run_byLending call o
    show @Call.runAll Output (Emitter.byLending Output) calls
      (@Call.run Output (Emitter.byLending Output) call o) = Call.runAll calls (call.run o)
    rw [hcall, ih]

/-- **Calls put the texts that they hand over at the end of the output.** -/
theorem runAll_eq_append (calls : List Call) (o : Output) :
    Call.runAll calls o = o ++ ofTexts (calls.map Call.payload) := by
  rw [← foldl_push, List.foldl_map]
  induction calls generalizing o with
  | nil => rfl
  | cons call calls ih =>
    show Call.runAll calls (call.run o) = _
    rw [run_eq_push, ih, List.foldl_cons]

end Output

/-! ## 2. Steps on registers -/

namespace Registers

/-- The action as if the text of a call were lent. -/
def Action.asLent : Action → Action
  | call k => .call k.asLent
  | action => action

theorem Action.perform_asLent (key : String) (rs : Registers) (action : Action) :
    action.asLent.perform key rs = action.perform key rs := by
  cases action with
  | call k =>
    have hpayload : k.payload = k.asLent.payload := rfl
    rw [asLent, perform, perform, Output.run_eq_run_of_payload hpayload]
  | append | extend | copy | clear | eq | text | inspect | pieces | flatten | write => rfl

/-- The step as if the text of a call were lent. -/
def Step.asLent (step : Step) : Step :=
  { step with action := step.action.asLent }

/-- **Steps on registers answer the same and leave the same**, or fail alike, as if every text were
    lent. -/
theorem run_map_asLent (steps : List Step) (rs : Registers) :
    run (steps.map Step.asLent) rs = run steps rs := by
  induction steps generalizing rs with
  | nil => rfl
  | cons step steps ih =>
    have hstep : step.asLent.run rs = step.run rs := by
      rw [Step.run, Step.run, Step.asLent, Action.perform_asLent]
    rw [List.map_cons, run, run, hstep]
    simp only [ih]

end Registers

/-! ## 3. Programs -/

section

variable (newlines : Bool)

/-- The act as if its text were lent. Where lines end, a newline is a text to hand over. -/
def Act.asLent : Act → Act
  | emit _ s => .emit .lent s
  | newline => if newlines then .emit .lent "\n" else .newline
  | a => a

mutual

/-- The step as if every text in it were lent. -/
def Step.asLent : Step → Step
  | .act a => .act (a.asLent newlines)
  | .within scope body => .within scope (Step.asLentAll body)
  | .header body => .header (Step.asLentAll body)
  | .capture key body => .capture key (Step.asLentAll body)

/-- The steps as if every text in them were lent. -/
def Step.asLentAll : List Step → List Step
  | [] => []
  | step :: steps => step.asLent :: Step.asLentAll steps

end

/-- The program as if every text in it were lent. -/
def Program.asLent (p : Program) : Program :=
  Step.asLentAll newlines p

/-! ## 4. What is noted -/

/-- What the step does, as if its text were lent. -/
def Deed.asLent : Deed → Deed
  | emit _ => .emit .lent
  | newline => if newlines then .emit .lent else .newline
  | deed => deed

def Moment.asLent : Moment → Moment
  | entered deed => .entered deed
  | done deed => .done (deed.asLent newlines)

/-- The entry with the name of the step as if its text were lent; the rest is as it is. -/
def Entry.asLent (e : Entry) : Entry :=
  { e with moment := e.moment.asLent newlines }

def Notebook.asLent (book : Notebook) : Notebook :=
  { book with trace := book.trace.map (Entry.asLent newlines) }

/-- What a run leaves behind, with the names of the steps as if their texts were lent. -/
def Outcome.asLent (o : Outcome Notebook) : Outcome Notebook :=
  { o with result := o.result.asLent newlines }

/-- An entry goes into the notebook under the name that it would have. -/
theorem Notebook.asLent_note (book : Notebook) (c : Context) (moment : Moment) (answer : Answer) :
    (book.note c moment answer).asLent newlines =
      (book.asLent newlines).note c (moment.asLent newlines) answer := by
  rw [note, note, asLent, asLent, Array.map_push]
  rfl

/-! ## 5. Moves -/

/-- The move as if its text were lent. Where lines end, it makes no difference either which move writes a
    newline. -/
def Move.asLent : Move → Move
  | newline => if newlines then .write "\n" else .newline
  | note moment remark => .note (moment.asLent newlines) remark
  | mv => mv

theorem Act.map_moves_asLent (a : Act) :
    (a.asLent newlines).moves.map (Move.asLent newlines) =
      a.moves.map (Move.asLent newlines) := by
  cases a with
  | newline => cases newlines <;> rfl
  | emit | var | name | get | width | config | output | splice | render | sep => rfl

mutual

/-- **The moves of a step are those of the step as if its texts were lent**, but for how they hand these
    over. -/
theorem Step.map_moves_asLent (header : Bool) : ∀ step : Step,
    ((step.asLent newlines).moves header).map (Move.asLent newlines) =
      (step.moves header).map (Move.asLent newlines)
  | .act a => Act.map_moves_asLent newlines a
  | .within scope body => by
    simp only [Step.asLent, Step.moves, List.map_append, List.map_cons,
      Step.map_movesAll_asLentAll header body]
  | .header body => by
    rw [Step.asLent, Step.moves, Step.moves]
    split
    · simp only [List.map_append, List.map_cons, Step.map_movesAll_asLentAll header body]
    · rfl
  | .capture key body => by
    simp only [Step.asLent, Step.moves, List.map_append, List.map_cons,
      Step.map_movesAll_asLentAll header body]

theorem Step.map_movesAll_asLentAll (header : Bool) : ∀ steps : List Step,
    (Step.movesAll header (Step.asLentAll newlines steps)).map (Move.asLent newlines) =
      (Step.movesAll header steps).map (Move.asLent newlines)
  | [] => rfl
  | step :: steps => by
    rw [Step.asLentAll, Step.movesAll, Step.movesAll, List.map_append, List.map_append,
      Step.map_moves_asLent header step, Step.map_movesAll_asLentAll header steps]

end

end

/-! ## 6. Machines -/

namespace Machine

variable (newlines : Bool)

/-- The machine with the names of the steps as if their texts were lent. -/
def asLent (m : Machine) : Machine :=
  { m with book := m.book.asLent newlines }

/-- The names are others, but there are as many entries. -/
theorem size_trace_asLent (m : Machine) :
    (m.asLent newlines).book.trace.size = m.book.trace.size :=
  Array.size_map

theorem asLent_note (m : Machine) (moment : Moment) (answer : Answer) :
    (m.note moment answer).asLent newlines =
      (m.asLent newlines).note (moment.asLent newlines) answer :=
  congrArg (fun book => { m with book }) (m.book.asLent_note newlines m.context moment answer)

theorem asLent_keep (m : Machine) (key : String) :
    (m.keep key).asLent newlines = (m.asLent newlines).keep key := by
  obtain ⟨c, book, depths, outers⟩ := m
  cases outers <;> rfl

theorem asLent_leave (m : Machine) : m.leave.asLent newlines = (m.asLent newlines).leave := by
  obtain ⟨c, book, depths, outers⟩ := m
  cases depths <;> rfl

end Machine

/-- There is the same to say, since no answer tells the name of a step. -/
theorem Remark.answer_asLent (newlines : Bool) (m : Machine) (remark : Remark) :
    remark.answer (m.asLent newlines) = remark.answer m := by
  have hsize := m.size_trace_asLent newlines
  cases remark with
  | body => exact congrArg Answer.body hsize
  | header => exact congrArg (fun n => Answer.header (some n)) hsize
  | nothing | id? | width | config | output | skipped => rfl

/-- **A move does the same as if its text were lent**, but for the names that stand in the trace. -/
theorem Move.exec_asLent (mv : Move) {newlines : Bool} {m : Machine}
    (h : m.context.config.newlines = newlines) :
    (mv.asLent newlines).exec (m.asLent newlines) =
      (mv.exec m).map (Machine.asLent newlines) := by
  cases mv with
  | newline =>
    have hcontext : (m.asLent newlines).context.config.newlines = newlines := h
    rw [asLent, exec, h]
    cases newlines with
    | true => rfl
    | false =>
      rw [if_neg Bool.false_ne_true, if_neg Bool.false_ne_true, exec, hcontext,
        if_neg Bool.false_ne_true]
      rfl
  | indentation =>
    show m.context.config.indentation.map _ = (m.context.config.indentation.map _).map _
    cases m.context.config.indentation <;> rfl
  | label v =>
    show (m.context.room v).map _ = ((m.context.room v).map _).map _
    cases m.context.room v <;> rfl
  | name v =>
    have hnoted := (m.onContext (·.named v)).asLent_note newlines (.done .name)
      (.text (m.context.labelOf v))
    show (m.context.room v).map _ = ((m.context.room v).map _).map _
    cases m.context.room v with
    | error e => rfl
    | ok room => exact congrArg Except.ok hnoted.symm
  | leave => exact congrArg Except.ok (m.asLent_leave newlines).symm
  | keep key =>
    show Except.ok (Machine.note _ (.capture (m.asLent newlines).book.trace.size _ _) _) = _
    rw [Machine.size_trace_asLent, ← Machine.asLent_keep]
    have hnoted := (m.keep key).asLent_note newlines (.done .capture)
      (.capture m.book.trace.size m.context.output.text m.context.output.count)
    exact congrArg Except.ok hnoted.symm
  | note moment remark =>
    show Except.ok ((m.asLent newlines).note _ (remark.answer (m.asLent newlines))) = _
    rw [Remark.answer_asLent, ← Machine.asLent_note]
    rfl
  | write | splice | further | level | setAside => rfl

/-- **So does a run.** Whether lines end is settled for all of it. -/
theorem Machine.run_asLent (mvs : List Move) {newlines : Bool} {m : Machine}
    (h : m.context.config.newlines = newlines) :
    run (mvs.map (Move.asLent newlines)) (m.asLent newlines) =
      (run mvs m).map (asLent newlines) := by
  induction mvs generalizing m with
  | nil => rfl
  | cons mv mvs ih =>
    rw [List.map_cons, run_cons, run_cons, Move.exec_asLent mv h]
    cases hmv : mv.exec m with
    | error e => rfl
    | ok n =>
      -- the move may have gone to another depth, but it leaves the rest of the configuration
      have hn := congrArg Config.newlines (Move.config_exec hmv)
      exact ih (hn.trans h)

/-- Moves that are the same as if their texts were lent come to the same state, but for the names. -/
theorem Machine.run_eq_of_map_asLent {mvs mvs' : List Move} {newlines : Bool} {m : Machine}
    (hmoves : mvs.map (Move.asLent newlines) = mvs'.map (Move.asLent newlines))
    (h : m.context.config.newlines = newlines) :
    (run mvs' m).map (asLent newlines) = (run mvs m).map (asLent newlines) := by
  rw [← run_asLent mvs h, ← run_asLent mvs' h, hmoves]

/-! ## 7. Runs -/

section

variable (newlines : Bool)

/-- Whether a run can end depends on its text, not on the names of its steps. -/
theorem Context.finish_asLent (c : Context) (book : Notebook) :
    (c.finish book).map (Outcome.asLent newlines) = c.finish (book.asLent newlines) := by
  rw [finish_eq, finish_eq]
  split <;> rfl

theorem Machine.finish_asLent (m : Machine) :
    m.finish.map (Outcome.asLent newlines) = (m.asLent newlines).finish := by
  show ((m.context.finish m.book).map _).map _ = (m.context.finish (m.book.asLent newlines)).map _
  rw [← Context.finish_asLent]
  cases m.context.finish m.book <;> rfl

end

/-- Steps that are the same as if their texts were lent make the same moves as if theirs were. -/
theorem Step.map_movesAll_eq {newlines : Bool} {steps steps' : List Step}
    (h : Step.asLentAll newlines steps = Step.asLentAll newlines steps') (header : Bool) :
    (Step.movesAll header steps).map (Move.asLent newlines) =
      (Step.movesAll header steps').map (Move.asLent newlines) := by
  rw [← Step.map_movesAll_asLentAll, h, Step.map_movesAll_asLentAll]

/-- **Steps that are the same as if their texts were lent** do the same, from any state and with any
    notebook: they fail for the same reason, or end in the same state and with the same notebook, but for
    the names of the steps in it. -/
theorem Step.map_execAll_eq {steps steps' : List Step} {c : Context}
    (h : Step.asLentAll c.config.newlines steps = Step.asLentAll c.config.newlines steps')
    (book : Notebook) :
    (Step.execAll steps' book c).map (fun r => (r.2, r.1.2.asLent c.config.newlines)) =
      (Step.execAll steps book c).map fun r => (r.2, r.1.2.asLent c.config.newlines) := by
  have hview : ∀ steps : List Step,
      (Step.execAll steps book c).map (fun r => (r.2, r.1.2.asLent c.config.newlines)) =
        ((Machine.run (Step.movesAll c.config.header steps) ⟨c, book, [], []⟩).map
          (Machine.asLent c.config.newlines)).map fun m => (m.context, m.book) := by
    intro steps
    rw [(does_steps c.config.header steps book).run_eq rfl]
    cases Step.execAll steps book c <;> rfl
  rw [hview, hview, Machine.run_eq_of_map_asLent (Step.map_movesAll_eq h c.config.header) rfl]

section

variable {config : Config} {p p' : Program}
  (h : p.asLent config.newlines = p'.asLent config.newlines)

include h

/-- **Programs that are the same as if their texts were lent** have the same runs, but for the names of the
    steps. -/
theorem Program.map_run_eq :
    (p'.run config).map (Outcome.asLent config.newlines) =
      (p.run config).map (Outcome.asLent config.newlines) := by
  have hview : ∀ x : Except Fault Machine,
      (x >>= Machine.finish).map (Outcome.asLent config.newlines) =
        x.map (Machine.asLent config.newlines) >>= Machine.finish := by
    intro x
    cases x with
    | error e => rfl
    | ok m => exact m.finish_asLent config.newlines
  have hmoves := Step.map_movesAll_eq h config.header
  rw [Program.run_eq, Program.run_eq, hview, hview, Program.moves, Program.moves,
    Machine.run_eq_of_map_asLent hmoves rfl]

theorem Program.map_drive_eq :
    (p'.drive config).map (Outcome.asLent config.newlines) =
      (p.drive config).map (Outcome.asLent config.newlines) := by
  have hview : ∀ x : Except Fault Machine,
      (x >>= fun m => m.context.finish m.book).map (Outcome.asLent config.newlines) =
        x.map (Machine.asLent config.newlines) >>= fun m => m.context.finish m.book := by
    intro x
    cases x with
    | error e => rfl
    | ok m => exact m.context.finish_asLent config.newlines m.book
  have hmoves := Step.map_movesAll_eq h config.header
  rw [Program.drive_eq, Program.drive_eq, hview, hview, Program.moves, Program.moves,
    Machine.run_eq_of_map_asLent hmoves rfl]

end

/-- **It makes no difference how a text is handed over.**

    * A transcript of some calls, which says nothing but how it takes a lent text, has the texts that they
      hand over; and of these an output has exactly those that are not empty, in this order. It has the
      same if it too says nothing but how it takes a lent text.
    * Calls that hand over the same texts leave any output the same: in its text, its pieces, its bytes,
      and in what it is equal to. In any computation one call can be put in place of another.
    * Among steps on registers calls can be put in place of each other: the steps fail for the same
      reason, or the answers are the same, and so is what is noted of each register, and what the
      registers hold in the end.
    * Among the steps of a run texts can be handed over in other ways, and where lines end so can
      newlines. From any state the steps fail for the same reason, or end in the same state, with the same
      notebook but for the names of the steps in the trace; and so do runs, also those that are stepped
      through by hand, with the same text, names and reports. -/
theorem Handover.interchangeable :
    (∀ calls : List Call,
      let texts := (Call.runAll calls Transcript.empty).texts.toList
      texts = calls.map Call.payload ∧
        (Call.runAll calls Output.empty).pieces.toList = texts.filter (fun s => s ≠ "") ∧
        ∀ o : Output, @Call.runAll Output (Emitter.byLending Output) calls o = Call.runAll calls o) ∧
    (∀ calls calls' : List Call, calls.map Call.payload = calls'.map Call.payload →
      ∀ o : Output, Call.runAll calls' o = Call.runAll calls o) ∧
    (∀ call call' : Call, call.payload = call'.payload → Emit.call call' = Emit.call call) ∧
    (∀ steps steps' : List Registers.Step,
      steps.map Registers.Step.asLent = steps'.map Registers.Step.asLent →
        ∀ rs : Registers, Registers.run steps' rs = Registers.run steps rs) ∧
    (∀ (steps steps' : List Step) (c : Context),
      Step.asLentAll c.config.newlines steps = Step.asLentAll c.config.newlines steps' →
        ∀ book : Notebook,
          (Step.execAll steps' book c).map (fun r => (r.2, r.1.2.asLent c.config.newlines)) =
            (Step.execAll steps book c).map fun r => (r.2, r.1.2.asLent c.config.newlines)) ∧
    (∀ (config : Config) (p p' : Program),
      p.asLent config.newlines = p'.asLent config.newlines →
        (p'.run config).map (Outcome.asLent config.newlines) =
            (p.run config).map (Outcome.asLent config.newlines) ∧
          (p'.drive config).map (Outcome.asLent config.newlines) =
            (p.drive config).map (Outcome.asLent config.newlines)) := by
  refine ⟨fun calls => ?_, fun calls calls' h o => ?_, fun call call' h => ?_,
    fun steps steps' h rs => ?_, fun _ _ _ => Step.map_execAll_eq,
    fun _ _ _ h => ⟨Program.map_run_eq h, Program.map_drive_eq h⟩⟩
  · have htexts : (Call.runAll calls Transcript.empty).texts.toList = calls.map Call.payload := by
      rw [Transcript.texts_runAll]
      simp [Transcript.empty]
    refine ⟨htexts, ?_, Output.runAll_byLending calls⟩
    rw [htexts, Output.runAll_eq_append, Output.empty_append, Output.pieces_ofTexts]
  · rw [Output.runAll_eq_append, Output.runAll_eq_append, h]
  · funext c
    rw [Emit.call_apply, Emit.call_apply, Output.run_eq_run_of_payload h]
  · rw [← Registers.run_map_asLent, ← h, Registers.run_map_asLent]

/-- Empty texts, a letter of two bytes, and newlines: as calls, on two registers that are compared, and in a
    run with a capture, where one of the newlines is a step of its own. -/
theorem Handover.interchangeable_mixed :
    let calls : List Call := [.text .lent "", .text .owned "é", .text .fixed "", .newline]
    let calls' : List Call := [.text .fixed "", .text .lent "é", .text .owned "", .text .fixed "\n"]
    let steps : List Registers.Step :=
      [⟨"a", .call (.text .fixed "\n")⟩, ⟨"b", .append "a"⟩, ⟨"a", .call .newline⟩, ⟨"a", .eq "b"⟩]
    let steps' : List Registers.Step :=
      [⟨"a", .call .newline⟩, ⟨"b", .append "a"⟩, ⟨"a", .call (.text .lent "\n")⟩, ⟨"a", .eq "b"⟩]
    let p : Program :=
      [.capture "k" [.act (.emit .owned "é"), .act .newline], .act (.splice "k"), .act .output]
    let p' : Program :=
      [.capture "k" [.act (.emit .fixed "é"), .act (.emit .lent "\n")], .act (.splice "k"),
        .act .output]
    (Call.runAll calls Output.empty).pieces = #["é", "\n"] ∧
      Call.runAll calls' Output.empty = Call.runAll calls Output.empty ∧
      Registers.run steps' .empty = Registers.run steps .empty ∧
      (Registers.run steps .empty).map (fun r => r.1.map Registers.Note.answer) =
        .ok [.done, .done, .done, .truth true] ∧
      (p.run .pretty).map Outcome.text = .ok "é\n" ∧
      (p'.run .pretty).map (Outcome.asLent true) = (p.run .pretty).map (Outcome.asLent true) := by
  intro calls calls' steps steps' p p'
  obtain ⟨-, hcalls, -, hsteps, -, hruns⟩ := Handover.interchangeable
  refine ⟨by decide +kernel, hcalls calls calls' rfl .empty, hsteps steps steps' rfl .empty,
    by decide +kernel, by decide +kernel, (hruns .pretty p p' rfl).1⟩

end Emission
