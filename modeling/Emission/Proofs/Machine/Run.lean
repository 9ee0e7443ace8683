import Emission.Proofs.Machine

/-!
# A run is its moves

The moves of a program, done in order from the start, are the run of the program: `Program.run_eq`.

`Does` says that some moves do what a computation does, beside what becomes of the notebook, and
leave the stacks of the machine as they found them. There is a rule for one computation after another
(`Does.bind`) and one for each scope, and from them one theorem for nodes (`does_node`) and one for
steps (`does_step`).
-/

namespace Emission

variable {α β : Type}

/-- Where headers are written as `header` says and the notebook is `book`, the moves do what `x`
    does: they fail as `x` fails, or else end in the same state, with a notebook that `post` describes
    and the stacks as before. -/
def Does (header : Bool) (mvs : List Move) (book : Notebook) (x : Emit α)
    (post : α → Notebook → Prop) : Prop :=
  ∀ m : Machine, m.context.config.header = header → m.book = book →
    match x m.context with
    | .error e => Machine.run mvs m = .error e
    | .ok (a, c) =>
      ∃ book', post a book' ∧ Machine.run mvs m = .ok { m with context := c, book := book' }

variable {header : Bool} {mvs mvs' : List Move} {book : Notebook}

/-! ## 1. Rules -/

theorem does_pure {a : α} {post : α → Notebook → Prop} (h : post a book) :
    Does header [] book (pure a) post := by
  intro m _ hbook
  subst hbook
  exact ⟨m.book, h, rfl⟩

theorem Does.mono {x : Emit α} {post post' : α → Notebook → Prop}
    (hx : Does header mvs book x post) (h : ∀ a b, post a b → post' a b) :
    Does header mvs book x post' := by
  intro m hheader hbook
  have hm := hx m hheader hbook
  cases hxm : x m.context with
  | error e =>
    rw [hxm] at hm
    exact hm
  | ok r =>
    rw [hxm] at hm
    obtain ⟨book', hpost, hrun⟩ := hm
    exact ⟨book', h r.1 book' hpost, hrun⟩

/-- **One after the other.** -/
theorem Does.bind {x : Emit α} {f : α → Emit β} {mid : α → Notebook → Prop}
    {post : β → Notebook → Prop} (hx : Does header mvs book x mid)
    (hf : ∀ a b, mid a b → Does header mvs' b (f a) post) :
    Does header (mvs ++ mvs') book (x >>= f) post := by
  intro m hheader hbook
  have hm := hx m hheader hbook
  change match (do let r ← x m.context; f r.1 r.2) with | .error e => _ | .ok (a, c) => _
  rw [Machine.run_append]
  cases hxm : x m.context with
  | error e =>
    rw [hxm] at hm
    rw [hm]
    rfl
  | ok r =>
    rw [hxm] at hm
    obtain ⟨book', hmid, hrun⟩ := hm
    -- the configuration may be at another depth by now, but its header is the same
    have hconfig := congrArg Config.header (Machine.config_run hrun)
    rw [hrun]
    exact hf r.1 book' hmid { m with context := r.2, book := book' } (hconfig.trans hheader) rfl

/-- A computation that leaves the notebook alone, and another after it. -/
theorem Does.seq {x : Emit α} {y : Emit β} {post : β → Notebook → Prop}
    (hx : Does header mvs book x fun _ b => b = book) (hy : Does header mvs' book y post) :
    Does header (mvs ++ mvs') book (do let _ ← x; y) post :=
  hx.bind fun _ _ hb => hb ▸ hy

/-- What is done to the result afterwards takes no move. -/
theorem Does.map {x : Emit α} {f : α → β} {post : β → Notebook → Prop}
    (hx : Does header mvs book x fun a b => post (f a) b) :
    Does header mvs book (do return f (← x)) post := by
  have hpure : ∀ a b, post (f a) b → Does header [] b (pure (f a) : Emit β) post :=
    fun a b hb => does_pure hb
  have h := hx.bind hpure
  rw [List.append_nil] at h
  exact h

theorem does_call (k : Call) :
    Does header [.write k.payload] book (Emit.call k) fun _ b => b = book := by
  intro m _ hbook
  rw [Emit.call_apply, Output.run_eq_push]
  exact ⟨m.book, hbook, rfl⟩

theorem does_newline : Does header [.newline] book Emit.newline fun _ b => b = book := by
  intro m _ hbook
  rw [Emit.newline_apply]
  refine ⟨m.book, hbook, ?_⟩
  change Except.ok (if m.context.config.newlines then _ else m) = _
  split <;> rfl

theorem does_indentation :
    Does header [.indentation] book Emit.indentation fun _ b => b = book := by
  intro m _ hbook
  rw [Emit.indentation_apply]
  cases hi : m.context.config.indentation with
  | error e =>
    change (m.context.config.indentation.map _ >>= Machine.run []) = _
    rw [hi]
    rfl
  | ok s =>
    refine ⟨m.book, hbook, ?_⟩
    change (m.context.config.indentation.map _ >>= Machine.run []) = _
    rw [hi]
    rfl

theorem does_emitVar (v : Var) :
    Does header [.label v] book (Emit.emitVar v) fun _ b => b = book := by
  intro m _ hbook
  have hrun : Machine.run [.label v] m =
      (m.context.room v).map fun _ => m.onContext fun c => (c.named v).write (c.labelOf v) := by
    change ((m.context.room v).map _ >>= Machine.run []) = _
    cases m.context.room v <;> rfl
  rw [Emit.emitVar_eq, hrun]
  cases m.context.room v with
  | error e => rfl
  | ok _ => exact ⟨m.book, hbook, rfl⟩

/-! ## 2. Scopes -/

theorem does_atLevel {x : Emit α} {post : α → Notebook → Prop} (level : Nat)
    (hx : Does header mvs book x post) :
    Does header (.level level :: mvs ++ [.leave]) book (Emit.atLevel level x) post := by
  intro m hheader hbook
  have hm := hx (m.enter level) hheader hbook
  have hcontext : (m.enter level).context =
      { m.context with config := { m.context.config with indentLevel := level } } := rfl
  have hrun : Machine.run (.level level :: mvs ++ [.leave]) m =
      Machine.run mvs (m.enter level) >>= Machine.run [.leave] :=
    Machine.run_append mvs [.leave] (m.enter level)
  rw [hcontext] at hm
  rw [Emit.atLevel_apply, hrun]
  cases hxm : x { m.context with config := { m.context.config with indentLevel := level } } with
  | error e =>
    rw [hxm] at hm
    rw [hm]
    rfl
  | ok r =>
    rw [hxm] at hm
    obtain ⟨book', hpost, hr⟩ := hm
    rw [hr]
    exact ⟨book', hpost, rfl⟩

theorem does_further {x : Emit α} {post : α → Notebook → Prop}
    (hx : Does header mvs book x post) :
    Does header (.further :: mvs ++ [.leave]) book (Emit.further x) post :=
  fun m hheader hbook => does_atLevel m.context.config.further hx m hheader hbook

/-- **The moves of a scope are those of its body, between those of its begin and of its end.** -/
theorem does_scope {x : Emit α} {post : α → Notebook → Prop} (scope : Scope)
    (hx : Does header mvs book x post) :
    Does header (scope.before ++ mvs ++ scope.after) book (scope.run x) post := by
  cases scope with
  | indent =>
    rw [Scope.before, Scope.after, List.append_nil]
    exact does_indentation.seq hx
  | line =>
    have hbody : Does header ([.indentation] ++ mvs) book x.indent post := does_indentation.seq hx
    refine hbody.bind fun a b hb => ?_
    exact Does.map (does_newline.mono fun _ _ hb' => hb' ▸ hb)
  | further => exact does_further hx
  | level n => exact does_atLevel n hx

/-! ## 3. Nodes -/

mutual

/-- **The moves of a node render it.** -/
theorem does_node (header : Bool) (book : Notebook) : ∀ n : Node,
    Does header n.moves book n.render fun _ b => b = book
  | .text s => does_call (.text .lent s)
  | .literal s => does_call (.text .lent s)
  | .var v => does_emitVar v
  | .list ns => does_nodes header book ns
  | .absent => does_pure rfl
  | .present n => does_node header book n
  | .boxed n => does_node header book n
  | .ref n => does_node header book n
  | .within scope n => does_scope scope (does_node header book n)
  | .sep _ [] => does_pure rfl
  | .sep separator (n :: ns) =>
    (does_node header book n).seq (does_separated header book separator ns)

theorem does_nodes (header : Bool) (book : Notebook) : ∀ ns : List Node,
    Does header (Node.movesEach ns).flatten book (Emit.inOrder (Node.renderings ns))
      fun _ b => b = book
  | [] => does_pure rfl
  | n :: ns => (does_node header book n).seq (does_nodes header book ns)

/-- With a separator before each node. -/
theorem does_separated (header : Bool) (book : Notebook) (separator : String) : ∀ ns : List Node,
    Does header ((Node.movesEach ns).flatMap fun mvs => .write separator :: mvs) book
      (Emit.inOrder ((Node.renderings ns).map fun body => do
        Emit.emit separator
        body))
      fun _ b => b = book
  | [] => does_pure rfl
  | n :: ns =>
    have hfirst : Does header (.write separator :: n.moves) book
        (do Emit.emit separator; n.render) fun _ b => b = book :=
      (does_call (.text .lent separator)).seq (does_node header book n)
    hfirst.seq (does_separated header book separator ns)

end

theorem does_renderSep (header : Bool) (book : Notebook) (separator : String) (ns : List Node) :
    Does header (Move.separated separator (Node.movesEach ns)) book (renderSep ns separator)
      fun _ b => b = book := by
  have h := does_node header book (.sep separator ns)
  rw [Node.render, Node.renderings_eq_map] at h
  exact h

/-! ## 4. Steps -/

/-- The notebook is the one that a computation with a notebook gives. -/
def Given (res : α × Notebook) (b : Notebook) : Prop :=
  res.2 = b

theorem does_note (moment : Moment) (answer : Answer) (remark : Remark)
    (h : ∀ m : Machine, m.book = book → remark.answer m = answer) :
    Does header [.note moment remark] book (Scripted.note moment answer book) Given := by
  intro m _ hbook
  refine ⟨m.book.note m.context moment answer, ?_, ?_⟩
  · rw [hbook]
    rfl
  · change Except.ok (m.note moment (remark.answer m)) = _
    rw [h m hbook]
    rfl

/-- A computation that leaves the notebook alone and has nothing to answer, noted as done. -/
theorem does_done {x : Emit Unit} (deed : Deed) (hx : Does header mvs book x fun _ b => b = book) :
    Does header (mvs ++ [.note (.done deed) .nothing]) book
      ((do
        let answer ← (do liftM x; return Answer.nothing : Scripted Answer)
        Scripted.note (.done deed) answer : Scripted Unit) book) Given := by
  have hlift : Does header mvs book (do let a ← x; return (a, book)) Given :=
    Does.map (hx.mono fun _ _ hb => hb.symm)
  have hanswer : Does header mvs book
      (do let r ← (do let a ← x; return (a, book)); return (Answer.nothing, r.2))
      fun r b => r = (.nothing, b) :=
    Does.map (hlift.mono fun r b hb => by rw [show r.2 = b from hb])
  refine hanswer.bind (f := fun r => Scripted.note (.done deed) r.1 r.2) fun r b hr => ?_
  subst hr
  exact does_note (.done deed) .nothing .nothing fun _ _ => rfl

/-- A body, with a note at its beginning, gives the length of the trace at its end. -/
theorem does_inside {x : Scripted Unit} (deed : Deed)
    (hx : ∀ b, Does header mvs b (x b) Given) :
    Does header (.note (.entered deed) .nothing :: mvs) book (Scripted.inside deed x book)
      fun res b => res = (b.trace.size, b) := by
  have hbody : ∀ b, Does header mvs b (do let r ← x b; return (r.2.trace.size, r.2))
      fun res b => res = (b.trace.size, b) :=
    fun b => Does.map ((hx b).mono fun r b' hb => by rw [hb])
  have hentered : Does header [.note (.entered deed) .nothing] book
      (Scripted.note (.entered deed) .nothing book) Given :=
    does_note (.entered deed) .nothing .nothing fun _ _ => rfl
  refine hentered.bind (f := fun r => do let r ← x r.2; return (r.2.trace.size, r.2))
    fun r b hb => ?_
  rw [show r.2 = b from hb]
  exact hbody b

theorem does_within {x : Scripted Unit} (scope : Scope) (hx : ∀ b, Does header mvs b (x b) Given) :
    Does header
      (scope.before ++ .note (.entered scope.deed) .nothing :: mvs ++ scope.after ++
        [.note (.done scope.deed) .body]) book
      ((do
        let n ← Scripted.within scope (Scripted.inside scope.deed x)
        Scripted.note (.done scope.deed) (.body n) : Scripted Unit) book) Given := by
  have hinside : Does header (.note (.entered scope.deed) .nothing :: mvs) book
      (Scripted.inside scope.deed x book) fun res b => res = (b.trace.size, b) :=
    does_inside scope.deed hx
  have hbody := does_scope scope hinside
  refine hbody.bind (f := fun r => Scripted.note (.done scope.deed) (.body r.1) r.2)
    fun r b hr => ?_
  subst hr
  exact does_note (.done scope.deed) (.body b.trace.size) .body fun m hm => by rw [← hm]; rfl

theorem does_header_on {x : Scripted Unit} (hx : ∀ b, Does true mvs b (x b) Given) :
    Does true (.note (.entered .header) .nothing :: mvs ++ [.note (.done .header) .header]) book
      ((do
        let n ← Scripted.header (Scripted.inside .header x)
        Scripted.note (.done .header) (.header n) : Scripted Unit) book) Given := by
  have hbody : Does true (.note (.entered .header) .nothing :: mvs) book
      (Scripted.header (Scripted.inside .header x) book)
      fun res b => res = (some b.trace.size, b) := by
    intro m hheader hbook
    have hm := does_inside .header hx m hheader hbook
    rw [Scripted.header_apply, hheader, if_pos rfl]
    cases hxm : Scripted.inside .header x book m.context with
    | error e =>
      rw [hxm] at hm
      exact hm
    | ok r =>
      rw [hxm] at hm
      obtain ⟨b, hpost, hr⟩ := hm
      refine ⟨b, ?_, hr⟩
      rw [hpost]
  refine hbody.bind (f := fun r => Scripted.note (.done .header) (.header r.1) r.2) fun r b hr => ?_
  subst hr
  exact does_note (.done .header) (.header (some b.trace.size)) .header
    fun m hm => by rw [← hm]; rfl

theorem does_header_off (x : Scripted Unit) :
    Does false [.note (.done .header) .skipped] book
      ((do
        let n ← Scripted.header (Scripted.inside .header x)
        Scripted.note (.done .header) (.header n) : Scripted Unit) book) Given := by
  intro m hheader hbook
  rw [Scripted.bind_apply, Scripted.header_apply, hheader]
  subst hbook
  exact ⟨_, rfl, rfl⟩

/-- **A capture puts the output aside, and the notebook keeps what its body wrote.** -/
theorem does_capture {x : Scripted Unit} (key : String) (hx : ∀ b, Does header mvs b (x b) Given) :
    Does header (.setAside :: .note (.entered .capture) .nothing :: mvs ++ [.keep key]) book
      ((do
        let (n, o) ← Scripted.capture key (Scripted.inside .capture x)
        Scripted.note (.done .capture) (.capture n o.text o.count) : Scripted Unit) book) Given := by
  intro m hheader hbook
  have hm := does_inside .capture hx m.setAside hheader hbook
  have hcontext : m.setAside.context = { m.context with output := .empty } := rfl
  have hrun : Machine.run (.setAside :: .note (.entered .capture) .nothing :: mvs ++ [.keep key]) m =
      Machine.run (.note (.entered .capture) .nothing :: mvs) m.setAside >>=
        Machine.run [.keep key] :=
    Machine.run_append _ [.keep key] m.setAside
  rw [hcontext] at hm
  rw [Scripted.bind_apply, Scripted.capture_apply, hrun]
  cases hxm : Scripted.inside .capture x book { m.context with output := .empty } with
  | error e =>
    rw [hxm] at hm
    rw [hm]
    rfl
  | ok r =>
    rw [hxm] at hm
    obtain ⟨book', hpost, hr⟩ := hm
    obtain ⟨⟨n, b⟩, c⟩ := r
    cases hpost
    rw [hr]
    exact ⟨_, rfl, rfl⟩

/-- **The moves of an act do it, and note its answer.** -/
theorem does_act (header : Bool) (a : Act) (book : Notebook) :
    Does header a.moves book ((Step.act a).exec book) Given := by
  cases a with
  | emit how s => exact does_done (.emit how) (does_call (.text how s))
  | newline => exact does_done .newline does_newline
  | var v => exact does_done .var (does_emitVar v)
  | name v =>
    intro m _ hbook
    subst hbook
    have hexec : (Step.act (.name v)).exec m.book m.context =
        (Emit.name v m.context).map fun r =>
          (((), m.book.note r.2 (.done .name) (.text r.1)), r.2) := by
      rw [Step.exec, Act.perform, Scripted.bind_apply, Scripted.bind_apply, Scripted.lift_apply]
      cases Emit.name v m.context <;> rfl
    have hrun : Machine.run (Act.name v).moves m = (Move.name v).exec m := by
      change (Move.name v).exec m >>= Machine.run [] = _
      cases (Move.name v).exec m <;> rfl
    rw [hexec, hrun, Emit.name_eq, Move.exec]
    cases m.context.room v with
    | error e => rfl
    | ok _ => exact ⟨_, rfl, rfl⟩
  | get v | width | config | output =>
    intro m _ hbook
    subst hbook
    exact ⟨_, rfl, rfl⟩
  | splice key =>
    intro m _ hbook
    subst hbook
    exact ⟨_, rfl, rfl⟩
  | render n => exact does_done .render (does_node header book n)
  | sep items separator => exact does_done .sep (does_renderSep header book separator items)

mutual

/-- **The moves of a step do it.** -/
theorem does_step (header : Bool) : ∀ (s : Step) (book : Notebook),
    Does header (s.moves header) book (s.exec book) Given
  | .act a, book => does_act header a book
  | .within scope body, _ => does_within scope (does_steps header body)
  | .header body, book => by
    cases header with
    | true => exact does_header_on (does_steps true body)
    | false => exact does_header_off _
  | .capture key body, _ => does_capture key (does_steps header body)

theorem does_steps (header : Bool) : ∀ (ss : List Step) (book : Notebook),
    Does header (Step.movesAll header ss) book (Step.execAll ss book) Given
  | [], _ => does_pure rfl
  | s :: ss, book => by
    refine (does_step header s book).bind (f := fun r => Step.execAll ss r.2) fun r b hb => ?_
    rw [show r.2 = b from hb]
    exact does_steps header ss b

end

/-- **Moves that do what a computation does run as it does**, on any stacks. -/
theorem Does.run_eq {x : Scripted Unit} (hx : Does header mvs book (x book) Given) {c : Context}
    (hheader : c.config.header = header) (depths : List Nat) (outers : List Output) :
    Machine.run mvs ⟨c, book, depths, outers⟩ =
      (x book c).map fun r => ⟨r.2, r.1.2, depths, outers⟩ := by
  have hm := hx ⟨c, book, depths, outers⟩ hheader rfl
  have hcontext : (⟨c, book, depths, outers⟩ : Machine).context = c := rfl
  rw [hcontext] at hm
  cases hxc : x book c with
  | error e =>
    rw [hxc] at hm
    exact hm
  | ok r =>
    rw [hxc] at hm
    obtain ⟨book', hbook, hrun⟩ := hm
    rw [hrun, ← show r.1.2 = book' from hbook]
    rfl

/-- A step that does not fail, as a run of its moves on empty stacks. -/
theorem Step.run_moves {s : Step} {book : Notebook} {c : Context}
    {r : (Unit × Notebook) × Context} (h : s.exec book c = .ok r) :
    Machine.run (s.moves c.config.header) ⟨c, book, [], []⟩ = .ok ⟨r.2, r.1.2, [], []⟩ := by
  rw [(does_step c.config.header s book).run_eq rfl, h]
  rfl

/-! ## 5. Runs -/

/-- **A program is its moves**, done in order from any state and an empty notebook. -/
theorem Program.script_apply (p : Program) (c : Context) :
    p.script c =
      (Machine.run (Step.movesAll c.config.header p) ⟨c, .empty, [], []⟩).map
        fun m => (m.book, m.context) := by
  rw [(does_steps c.config.header p .empty).run_eq rfl]
  change (do let r ← Step.execAll p .empty c; _) = _
  cases Step.execAll p .empty c <;> rfl

/-- The state that the machine comes to is the one the run ends in. -/
theorem Program.script_eq (config : Config) (p : Program) :
    p.script ((Context.start config).report .entered) =
      (Machine.run (p.moves config) (.start config)).map fun m => (m.book, m.context) :=
  p.script_apply _

/-- **A run is its moves, done in order from the start**, and what is left behind at their end. -/
theorem Program.run_eq (config : Config) (p : Program) :
    p.run config = Machine.run (p.moves config) (.start config) >>= Machine.finish := by
  rw [Program.run, Emit.run_apply, Program.script_eq]
  cases Machine.run (p.moves config) (.start config) <;> rfl

end Emission
