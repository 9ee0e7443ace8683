import Emission.Proofs.Machine.Frame
import Emission.Proofs.Machine.Run

/-!
# Runs that are alike but for their notes

Whether headers are written is settled before a run, when its moves are told. The moves themselves do
not look at it, except to note it; and what has been noted before they only count. So two machines
that differ in these things alone stay alike (`Move.alike_exec`), also when one of them leaves out notes
that the other makes (`Machine.alike_run_filter`).

How far their notes may differ is left open here: `Machine.Alike` has a relation between the two traces,
of which nothing is asked but that entries which are the same may be added to both (`Extensible`).
-/

namespace Emission

/-- The state, where headers are written as `header` says. -/
def Context.withHeader (header : Bool) (c : Context) : Context :=
  { c with config := { c.config with header } }

/-! ## 1. Entries -/

/-- The answer without what headers have a part in: how many entries there are, and whether headers are
    written. -/
def Answer.unheaded : Answer → Answer
  | body _ => .body 0
  | header entries => .header (entries.map fun _ => 0)
  | capture _ s pieces => .capture 0 s pieces
  | config c => .config { c with header := false }
  | answer => answer

/-- The entry without what headers have a part in. -/
def Entry.unheaded (e : Entry) : Entry :=
  { e with answer := e.answer.unheaded }

/-- The relation between traces holds on when an entry is added to both, if the two are the same but for
    what headers have a part in. -/
def Extensible (T : List Entry → List Entry → Prop) : Prop :=
  ∀ t t' e e', T t t' → e'.unheaded = e.unheaded → T (t ++ [e]) (t' ++ [e'])

/-! ## 2. Machines -/

/-- The machines are the same, but that in the second headers are written as `header` says, and that
    the traces are two that `T` relates. -/
inductive Machine.Alike (header : Bool) (T : List Entry → List Entry → Prop) :
    Machine → Machine → Prop where
  | mk (c : Context) (depths : List Nat) (outers : List Output) {book book' : Notebook}
    (hkept : book'.kept = book.kept) (htrace : T book.trace.toList book'.trace.toList) :
    Alike header T ⟨c, book, depths, outers⟩ ⟨c.withHeader header, book', depths, outers⟩

section

variable {header : Bool} {T : List Entry → List Entry → Prop} {m m' : Machine}

theorem Machine.Alike.eq_withHeader (h : m.Alike header T m') :
    m'.context = m.context.withHeader header ∧ m'.book.kept = m.book.kept ∧
      T m.book.trace.toList m'.book.trace.toList := by
  obtain ⟨c, depths, outers, hkept, htrace⟩ := h
  exact ⟨rfl, hkept, htrace⟩

/-- **A note in both**, of the same but for what headers have a part in. -/
theorem Machine.Alike.note (hT : Extensible T) (h : m.Alike header T m') (moment : Moment)
    {answer answer' : Answer} (hanswer : answer'.unheaded = answer.unheaded) :
    (m.note moment answer).Alike header T (m'.note moment answer') := by
  obtain ⟨c, depths, outers, hkept, htrace⟩ := h
  have hentry : ((c.withHeader header).entry moment answer').unheaded =
      (c.entry moment answer).unheaded :=
    congrArg (Entry.mk moment c.output.bytes c.output.count c.config.indentLevel c.names.size) hanswer
  refine .mk c depths outers hkept ?_
  rw [Notebook.toList_trace_note, Notebook.toList_trace_note]
  exact hT _ _ _ _ htrace hentry

/-- Machines that are alike have the same to say, but for what headers have a part in. -/
theorem Remark.unheaded_answer (h : m.Alike header T m') (remark : Remark) :
    (remark.answer m').unheaded = (remark.answer m).unheaded := by
  obtain ⟨c, depths, outers, hkept, htrace⟩ := h
  cases remark <;> rfl

/-- **Moves keep machines alike.** -/
theorem Move.alike_exec (hT : Extensible T) (mv : Move) (h : m.Alike header T m') :
    Matches (Machine.Alike header T) (mv.exec m) (mv.exec m') := by
  have hnote := fun moment remark => h.note hT moment (Remark.unheaded_answer h remark)
  obtain ⟨c, depths, outers, hkept, htrace⟩ := h
  cases mv with
  | newline =>
    show Matches _ (.ok (if c.config.newlines then _ else _))
      (.ok (if c.config.newlines then _ else _))
    split
    · exact .ok (.mk (c.write "\n") depths outers hkept htrace)
    · exact .ok (.mk c depths outers hkept htrace)
  | indentation =>
    exact .map_self c.config.indentation fun s => .mk (c.write s) depths outers hkept htrace
  | write s => exact .ok (.mk (c.write s) depths outers hkept htrace)
  | label v =>
    exact .map_self (c.room v) fun _ =>
      .mk ((c.named v).write (c.labelOf v)) depths outers hkept htrace
  | name v =>
    rename_i book book'
    have hnamed : Machine.Alike header T ⟨c.named v, book, depths, outers⟩
        ⟨(c.withHeader header).named v, book', depths, outers⟩ :=
      .mk (c.named v) depths outers hkept htrace
    exact .map_self (c.room v) fun _ => hnamed.note hT (.done .name) rfl
  | splice key =>
    rename_i book book'
    obtain ⟨kept, trace⟩ := book
    obtain ⟨kept', trace'⟩ := book'
    obtain rfl : kept' = kept := hkept
    exact .ok (.mk { c with output := c.output ++ (kept'.get? key).getD .empty } depths outers rfl
      htrace)
  | further => exact .ok (.mk (c.atDepth c.config.further) _ outers hkept htrace)
  | level depth => exact .ok (.mk (c.atDepth depth) _ outers hkept htrace)
  | leave =>
    cases depths with
    | nil => exact .ok (.mk c [] outers hkept htrace)
    | cons depth depths => exact .ok (.mk (c.atDepth depth) depths outers hkept htrace)
  | setAside => exact .ok (.mk { c with output := .empty } depths _ hkept htrace)
  | keep key =>
    rename_i book book'
    have hended : Machine.Alike header T (Machine.keep key ⟨c, book, depths, outers⟩)
        (Machine.keep key ⟨c.withHeader header, book', depths, outers⟩) := by
      cases outers with
      | nil => exact .mk c depths [] hkept htrace
      | cons outer outers =>
        exact .mk { c with output := outer } depths outers (congrArg (·.put key c.output) hkept) htrace
    exact .ok (hended.note hT (.done .capture) rfl)
  | note moment remark => exact .ok (hnote moment remark)

/-- **Runs of which the second leaves notes out** end alike. -/
theorem Machine.alike_run_filter (hT : Extensible T) {kept : Move → Bool}
    (hleft : ∀ mv, kept mv = false → ∃ moment remark, mv = .note moment remark ∧
      ∀ t t' e, e.moment = moment → T t t' → T (t ++ [e]) t')
    (mvs : List Move) (h : m.Alike header T m') :
    Matches (Alike header T) (run mvs m) (run (mvs.filter kept) m') := by
  refine Machine.matches_run_filter (fun mv _ _ _ => Move.alike_exec hT mv)
    (fun mv hmv n n' hn => ?_) mvs h
  obtain ⟨moment, remark, rfl, hT'⟩ := hleft mv hmv
  obtain ⟨c, depths, outers, hkept, htrace⟩ := hn
  refine ⟨_, rfl, .mk c depths outers hkept ?_⟩
  rw [Notebook.toList_trace_note]
  exact hT' _ _ _ rfl htrace

end

/-! ## 3. Steps -/

/-- **Steps of which the second leave notes out**, run from states that are the same but for the header,
    fail for the same reason or end alike. -/
theorem Step.alike_execAll {header : Bool} {T : List Entry → List Entry → Prop} (hT : Extensible T)
    {kept : Move → Bool}
    (hleft : ∀ mv, kept mv = false → ∃ moment remark, mv = .note moment remark ∧
      ∀ t t' e, e.moment = moment → T t t' → T (t ++ [e]) t')
    {steps steps' : List Step} {c : Context}
    (hmoves : Step.movesAll header steps' = (Step.movesAll c.config.header steps).filter kept)
    {book book' : Notebook} (hkept : book'.kept = book.kept)
    (htrace : T book.trace.toList book'.trace.toList) :
    Matches (fun r r' : (Unit × Notebook) × Context =>
        r'.2 = r.2.withHeader header ∧ r'.1.2.kept = r.1.2.kept ∧
          T r.1.2.trace.toList r'.1.2.trace.toList)
      (Step.execAll steps book c) (Step.execAll steps' book' (c.withHeader header)) := by
  have hstart : Machine.Alike header T ⟨c, book, [], []⟩ ⟨c.withHeader header, book', [], []⟩ :=
    .mk c [] [] hkept htrace
  have hrun := Machine.alike_run_filter hT hleft (Step.movesAll c.config.header steps) hstart
  rw [← hmoves, (does_steps c.config.header steps book).run_eq rfl,
    (does_steps header steps' book').run_eq rfl] at hrun
  exact hrun.of_map fun _ _ hr => hr.eq_withHeader

end Emission
