import Emission.Proofs.Lookups
import Emission.Proofs.Machine.Alike
import Emission.Proofs.Machine.Notes

/-!
# Headers

Whether headers are written can be settled before a run, in the program: each header makes place for
its body where headers are written, and for nothing where they are not (`Step.resolved`). There are no
headers left then, so that the program is the same whether headers are written or not.

* The moves of such a program are those of the program with headers, but for what is noted of them
  (`Step.movesAll_resolvedAll`).
* So both come to the same (`Program.run_resolved`): nothing in a header that is not written has any part
  in a run, and all that is in one that is written is done as if it stood there alone.
-/

namespace Emission

/-! ## 1. Programs without headers -/

mutual

/-- What becomes of a step when its headers are settled, at every depth. -/
def Step.resolved (header : Bool) : Step → List Step
  | .act a => [.act a]
  | .within scope body => [.within scope (Step.resolvedAll header body)]
  | .header body => if header then Step.resolvedAll header body else []
  | .capture key body => [.capture key (Step.resolvedAll header body)]

def Step.resolvedAll (header : Bool) : List Step → List Step
  | [] => []
  | step :: steps => step.resolved header ++ Step.resolvedAll header steps

end

/-- The program with its headers settled. -/
def Program.resolved (header : Bool) (p : Program) : Program :=
  Step.resolvedAll header p

/-! ## 2. What is noted of headers -/

def Moment.deed : Moment → Deed
  | entered deed | done deed => deed

/-- Whether the move notes something of a header. -/
def Move.ofHeader : Move → Bool
  | note moment _ => moment.deed = .header
  | write _ | newline | indentation | label _ | name _ | splice _ | further | level _ | leave
  | setAside | keep _ => false

/-- Some entries without those of headers, and the others without what headers have a part in. -/
def Entry.besideHeaders (es : List Entry) : List Entry :=
  (es.filter fun e => e.moment.deed ≠ .header).map Entry.unheaded

theorem Entry.besideHeaders_concat (es : List Entry) (e : Entry) :
    besideHeaders (es ++ [e]) =
      besideHeaders es ++ if e.moment.deed = .header then [] else [e.unheaded] := by
  rw [besideHeaders, List.filter_append, List.map_append]
  by_cases h : e.moment.deed = .header <;> simp [h, besideHeaders]

/-- Notes of headers may be left out. -/
theorem Move.exists_note_of_ofHeader {mv : Move} (h : (!mv.ofHeader) = false) :
    ∃ moment remark, mv = .note moment remark ∧ moment.deed = .header := by
  cases mv with
  | note moment remark =>
    have hdeed : decide (moment.deed = .header) = true := (Bool.not_eq_false' _).mp h
    exact ⟨moment, remark, rfl, of_decide_eq_true hdeed⟩
  | write | newline | indentation | label | name | splice | further | level | leave | setAside
  | keep => cases h

/-! ## 3. Moves -/

section

variable (written header : Bool)

theorem Move.filter_ofHeader {mvs : List Move} (h : ∀ mv ∈ mvs, mv.draws = true) :
    mvs.filter (fun mv => !mv.ofHeader) = mvs :=
  Move.filter_of_draws (fun _ hmv =>
    let ⟨moment, remark, hnote, _⟩ := Move.exists_note_of_ofHeader hmv
    ⟨moment, remark, hnote⟩) h

theorem Act.filter_moves (a : Act) : a.moves.filter (fun mv => !mv.ofHeader) = a.moves := by
  cases a with
  | render node =>
    rw [Act.moves, List.filter_append, Move.filter_ofHeader (Node.draws_moves node)]
    rfl
  | sep items separator =>
    have hitems := Move.filter_ofHeader (Node.draws_moves (.sep separator items))
    rw [Node.moves] at hitems
    rw [Act.moves, List.filter_append, hitems]
    rfl
  | emit | newline | var | name | get | width | config | output | splice => rfl

mutual

/-- **A step with its headers settled makes the moves that it made before**, but for what was noted of
    headers; and now it makes them whether headers are written or not. -/
theorem Step.movesAll_resolved : ∀ s : Step,
    Step.movesAll header (s.resolved written) =
      (s.moves written).filter fun mv => !mv.ofHeader
  | .act a => by
    rw [Step.resolved, Step.movesAll, Step.movesAll, List.append_nil, Step.moves, Step.moves,
      Act.filter_moves]
  | .within scope body => by
    have hentered : (Move.note (.entered scope.deed) .nothing).ofHeader = false := by
      cases scope <;> rfl
    have hdone : (Move.note (.done scope.deed) .body).ofHeader = false := by
      cases scope <;> rfl
    simp only [Step.resolved, Step.movesAll, Step.moves, List.append_nil, List.filter_append,
      List.filter_cons, List.filter_nil, hentered, hdone, Bool.not_false, if_true,
      Move.filter_ofHeader scope.draws_before,
      Move.filter_ofHeader scope.draws_after, Step.movesAll_resolvedAll body]
  | .header body => by
    rw [Step.resolved, Step.moves]
    split
    · rw [List.filter_append, Step.movesAll_resolvedAll body]
      exact (List.append_nil _).symm
    · rfl
  | .capture key body => by
    rw [Step.resolved, Step.movesAll, Step.movesAll, List.append_nil, Step.moves, Step.moves,
      List.filter_append, Step.movesAll_resolvedAll body]
    rfl

theorem Step.movesAll_resolvedAll : ∀ steps : List Step,
    Step.movesAll header (Step.resolvedAll written steps) =
      (Step.movesAll written steps).filter fun mv => !mv.ofHeader
  | [] => rfl
  | step :: steps => by
    rw [Step.resolvedAll, Step.movesAll_append, Step.movesAll_resolved step,
      Step.movesAll_resolvedAll steps, Step.movesAll, List.filter_append]

end

end

/-! ## 4. Runs -/

/-- The same was noted beside headers. -/
def AlikeBesideHeaders (t t' : List Entry) : Prop :=
  Entry.besideHeaders t' = Entry.besideHeaders t

theorem extensible_alikeBesideHeaders : Extensible AlikeBesideHeaders := by
  intro t t' e e' ht he
  have hmoments := congrArg Entry.moment he
  have hmoment : e'.moment = e.moment := hmoments
  rw [AlikeBesideHeaders, Entry.besideHeaders_concat, Entry.besideHeaders_concat, hmoment, he,
    show Entry.besideHeaders t' = Entry.besideHeaders t from ht]

theorem Move.exists_left_of_ofHeader (mv : Move) (h : (!mv.ofHeader) = false) :
    ∃ moment remark, mv = .note moment remark ∧ ∀ t t' e, e.moment = moment →
      AlikeBesideHeaders t t' → AlikeBesideHeaders (t ++ [e]) t' := by
  obtain ⟨moment, remark, rfl, hdeed⟩ := Move.exists_note_of_ofHeader h
  refine ⟨moment, remark, rfl, fun t t' e he ht => ?_⟩
  rw [AlikeBesideHeaders, Entry.besideHeaders_concat, he, if_pos hdeed, List.append_nil]
  exact ht

/-- **Machines that are alike look the same up**, also if the second leaves notes out. -/
theorem Machine.Alike.lookups {header : Bool} {T : List Entry → List Entry → Prop}
    (hT : Extensible T) {kept : Move → Bool}
    (hleft : ∀ mv, kept mv = false → ∃ moment remark, mv = .note moment remark ∧
      ∀ t t' e, e.moment = moment → T t t' → T (t ++ [e]) t')
    (mvs : List Move) {m m' : Machine} (h : m.Alike header T m') :
    Machine.lookups (mvs.filter kept) m' = Machine.lookups mvs m := by
  induction mvs generalizing m m' with
  | nil => rfl
  | cons mv mvs ih =>
    cases hmv : kept mv with
    | true =>
      have hlabel : ∀ v, m'.context.labelOf v = m.context.labelOf v := by
        intro v
        rw [h.eq_withHeader.1]
        rfl
      rw [List.filter_cons_of_pos hmv]
      have hexec := Move.alike_exec hT mv h
      cases hm : mv.exec m with
      | error e =>
        rw [lookups_cons_of_error hm, lookups_cons_of_error (hexec.eq_error_iff.mp hm)]
      | ok n =>
        obtain ⟨n', hm', hn⟩ := hexec.exists_of_ok hm
        rw [lookups_cons_of_ok hm, lookups_cons_of_ok hm', ih hn]
        simp only [hlabel]
    | false =>
      obtain ⟨moment, remark, rfl, hT'⟩ := hleft mv hmv
      obtain ⟨c, depths, outers, hkept, htrace⟩ := h
      rw [List.filter_cons_of_neg (Bool.eq_false_iff.mp hmv), lookups_cons_of_ok rfl]
      refine ih (.mk c depths outers hkept ?_)
      rw [Notebook.toList_trace_note]
      exact hT' _ _ _ rfl htrace

/-- What comes of steps with their headers settled, where headers are written as `header` says, beside
    what comes of the steps as they are: all is the same, but for what was noted of headers. -/
structure Resolved (header : Bool) (r r' : (Unit × Notebook) × Context) : Prop where
  context : r'.2 = r.2.withHeader header
  kept : r'.1.2.kept = r.1.2.kept
  trace : AlikeBesideHeaders r.1.2.trace.toList r'.1.2.trace.toList

/-- **Steps and the same with their headers settled** come to the same. -/
theorem Step.matches_resolvedAll (header : Bool) (steps : List Step) (book : Notebook) (c : Context) :
    Matches (Resolved header) (Step.execAll steps book c)
      (Step.execAll (Step.resolvedAll c.config.header steps) book (c.withHeader header)) := by
  have hkept : book.kept = book.kept := rfl
  have h := Step.alike_execAll extensible_alikeBesideHeaders Move.exists_left_of_ofHeader
    (Step.movesAll_resolvedAll c.config.header header steps) hkept rfl
  exact h.mono fun _ _ ⟨hcontext, hkept, htrace⟩ => ⟨hcontext, hkept, htrace⟩

/-- **A header that is not written does nothing**, whatever is in it. -/
theorem Step.exec_header_of_not (body : List Step) (book : Notebook) {c : Context}
    (h : c.config.header = false) :
    (Step.header body).exec book c =
      .ok (((), book.note c (.done .header) (.header none)), c) := by
  rw [Step.exec, Scripted.bind_apply, Scripted.header_apply, h]
  rfl

/-- **Headers can be settled before a run.** In the program each header is replaced by its body, if
    `written`, or else deleted, at every depth. Run with headers or without, the program then makes
    the moves that it made where headers are written as `written` says, but for what was noted of
    headers. From any state it fails for the same reason, or leaves the same output in the same pieces,
    the same names, the same depth and reports, the same kept captures, and the same notes beside those
    of headers. A run has the same text, names, reports, captures and notes, and computes the same
    labels, also up to a fault. And a header that is not written does nothing, but that this is noted: it
    does not fail, names nothing, and leaves the captures alone. -/
theorem Program.run_resolved (p : Program) (written header : Bool) (config : Config) :
    (p.resolved written).moves { config with header } =
      (p.moves { config with header := written }).filter (fun mv => !mv.ofHeader) ∧
    (∀ book c, c.config.header = written →
      Matches (Resolved header) (Step.execAll p book c)
        (Step.execAll (p.resolved written) book (c.withHeader header))) ∧
    Matches (fun o o' : Outcome Notebook =>
        o'.text = o.text ∧ o'.names = o.names ∧ o'.log = o.log ∧ o'.result.kept = o.result.kept ∧
          AlikeBesideHeaders o.result.trace.toList o'.result.trace.toList)
      (p.run { config with header := written }) ((p.resolved written).run { config with header }) ∧
    (p.resolved written).lookups { config with header } =
      p.lookups { config with header := written } ∧
    (∀ body book c, c.config.header = false →
      (Step.header body).exec book c =
        .ok (((), book.note c (.done .header) (.header none)), c)) := by
  have hmoves : (p.resolved written).moves { config with header } =
      (p.moves { config with header := written }).filter fun mv => !mv.ofHeader :=
    Step.movesAll_resolvedAll written header p
  refine ⟨hmoves, fun book c hc => hc ▸ Step.matches_resolvedAll header p book c, ?_, ?_,
    fun body book c => Step.exec_header_of_not body book⟩
  · rw [Program.run_apply, Program.run_apply]
    refine (Step.matches_resolvedAll header p .empty
      ((Context.start { config with header := written }).report .entered)).bind fun r r' hr => ?_
    refine Context.matches_finish (congrArg (·.output.bytes) hr.context) ?_
    rw [hr.context]
    exact ⟨rfl, rfl, rfl, hr.kept, hr.trace⟩
  · have hstart : Machine.Alike header AlikeBesideHeaders
        (.start { config with header := written }) (.start { config with header }) :=
      .mk ((Context.start { config with header := written }).report .entered) [] [] rfl rfl
    rw [Program.lookups, hmoves, hstart.lookups extensible_alikeBesideHeaders
      Move.exists_left_of_ofHeader, Program.lookups]

/-- A header in a capture in a header: its body takes a number, and keeps what it wrote. -/
example :
    let p : Program :=
      [.header [.act (.var (.internal "a")), .capture "k" [.header [.act (.var (.internal "b"))]]],
        .act (.var (.internal "c")), .act (.splice "k")]
    let text := fun (p : Program) (header : Bool) =>
      (p.run { Config.compact with header }).toOption.map Outcome.text
    text p true = some "_0_2_1" ∧ text (p.resolved true) false = some "_0_2_1" ∧
      text p false = some "_0" ∧ text (p.resolved false) true = some "_0" := by
  decide +kernel

end Emission
