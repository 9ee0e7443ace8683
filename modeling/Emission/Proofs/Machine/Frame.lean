import Emission.Proofs.Machine.Pairs
import Emission.Proofs.Machine.Places
import Emission.Proofs.Output

/-!
# What an output begins with

Moves write at the end of an output. What it begins with they leave as it is, and nothing that they
do depends on it, beside what is noted of the output itself.

* `Notebook.Beside` compares two notebooks: they keep the same, and what was noted since a moment is
  the same but for what it says of the output.
* `Machine.Beside` compares two machines: one of their outputs begins with `o` in the second, and what
  lies beneath it may be anything; all else is the same. A move keeps the two beside each other
  (`Move.beside_exec`), and so does a run (`Machine.beside_run`), as long as it does not take up what
  lies beneath.
-/

namespace Emission

/-! ## 1. Notes without what they say of the output -/

/-- The answer, with `n` more entries in the trace before. -/
def Answer.later (n : Nat) : Answer → Answer
  | body entries => .body (entries + n)
  | header (some entries) => .header (some (entries + n))
  | capture entries s pieces => .capture (entries + n) s pieces
  | answer => answer

@[simp] theorem Answer.later_zero (answer : Answer) : answer.later 0 = answer := by
  cases answer with
  | header entries => cases entries <;> rfl
  | nothing | text | id? | width | config | body | capture => rfl

/-- The entry, with `n` more entries in the trace before. -/
def Entry.later (n : Nat) (e : Entry) : Entry :=
  { e with answer := e.answer.later n }

/-- The entry without what it says of the output: the counts, and the text where it was asked for. -/
def Entry.withoutOutput (e : Entry) : Entry :=
  { e with
    bytes := 0
    pieces := 0
    answer := if e.moment = .done .output then .nothing else e.answer }

/-- What is noted in the state `c`. -/
def Context.entry (c : Context) (moment : Moment) (answer : Answer) : Entry :=
  ⟨moment, c.output.bytes, c.output.count, c.config.indentLevel, c.names.size, answer⟩

theorem Notebook.toList_trace_note (b : Notebook) (c : Context) (moment : Moment)
    (answer : Answer) :
    (b.note c moment answer).trace.toList = b.trace.toList ++ [c.entry moment answer] :=
  Array.toList_push

/-- The notebooks keep the same, and what was noted since the traces were `t` and `t'` is the same but
    for what it says of the output. There are `n` more entries in the first. -/
structure Notebook.Beside (n : Nat) (t t' : List Entry) (b b' : Notebook) : Prop where
  kept : b'.kept = b.kept
  size : b.trace.size = b'.trace.size + n
  trace : ∃ es es', b.trace.toList = t ++ es ∧ b'.trace.toList = t' ++ es' ∧
    es.map Entry.withoutOutput = es'.map fun e => (e.later n).withoutOutput

namespace Notebook

variable {n : Nat} {t t' : List Entry}

theorem beside_of_kept {b b' : Notebook} (hkept : b'.kept = b.kept)
    (hsize : b.trace.size = b'.trace.size + n) :
    Beside n b.trace.toList b'.trace.toList b b' where
  kept := hkept
  size := hsize
  trace := ⟨[], [], (List.append_nil _).symm, (List.append_nil _).symm, rfl⟩

theorem beside_self (b : Notebook) : Beside 0 b.trace.toList b.trace.toList b b :=
  beside_of_kept rfl rfl

/-- **An entry in each**, on the same state but for the output. -/
theorem Beside.note {b b' : Notebook} (h : Beside n t t' b b') (c : Context) (o : Output)
    (moment : Moment) {answer answer' : Answer}
    (hanswer : moment = .done .output ∨ answer = answer'.later n) :
    Beside n t t' (b.note c moment answer) (b'.note { c with output := o } moment answer') where
  kept := h.kept
  size := by
    simp only [Notebook.note, Array.size_push, h.size]
    omega
  trace := by
    obtain ⟨es, es', hes, hes', hmap⟩ := h.trace
    have hentry : (c.entry moment answer).withoutOutput =
        ((Context.entry { c with output := o } moment answer').later n).withoutOutput := by
      cases hanswer with
      | inl houtput =>
        subst houtput
        rfl
      | inr hanswer =>
        subst hanswer
        rfl
    refine ⟨es ++ [c.entry moment answer],
      es' ++ [Context.entry { c with output := o } moment answer'], ?_, ?_, ?_⟩
    · rw [toList_trace_note, hes, List.append_assoc]
    · rw [toList_trace_note, hes', List.append_assoc]
    · rw [List.map_append, List.map_append, hmap, List.map_singleton, List.map_singleton, hentry]

/-- The same done to what is kept in each. -/
theorem Beside.keeping {b b' : Notebook} (h : Beside n t t' b b') (f : Shelf Output → Shelf Output) :
    Beside n t t' { b with kept := f b.kept } { b' with kept := f b'.kept } where
  kept := congrArg f h.kept
  size := h.size
  trace := h.trace

/-- Two notebooks beside a third are beside each other. -/
theorem Beside.trans {b₀ b b' : Notebook} {t₀ : List Entry} (h : Beside 0 t₀ t b₀ b)
    (h' : Beside 0 t₀ t' b₀ b') : Beside 0 t t' b b' where
  kept := h'.kept.trans h.kept.symm
  size := h.size.symm.trans h'.size
  trace := by
    obtain ⟨es₀, es, hes₀, hes, hmap⟩ := h.trace
    obtain ⟨es₀', es', hes₀', hes', hmap'⟩ := h'.trace
    cases List.append_cancel_left (hes₀.symm.trans hes₀')
    refine ⟨es, es', hes, hes', ?_⟩
    rw [← hmap', hmap]
    simp only [Entry.later, Answer.later_zero]

end Notebook

/-! ## 2. Machines beside each other -/

/-- Stacks of outputs which are the same down to one that begins with `o` in the second; beneath that
    lies `base` in the first and `base'` in the second. -/
inductive Over (o : Output) (base base' : List Output) : List Output → List Output → Prop where
  | here (p : Output) : Over o base base' (p :: base) ((o ++ p) :: base')
  | above (p : Output) {ps qs : List Output} (h : Over o base base' ps qs) :
    Over o base base' (p :: ps) (p :: qs)

namespace Over

variable {o p q : Output} {base base' ps qs : List Output}

theorem exists_cons (h : Over o base base' ps qs) :
    ∃ p ps' q qs', ps = p :: ps' ∧ qs = q :: qs' := by
  cases h with
  | here p => exact ⟨_, _, _, _, rfl, rfl⟩
  | above p h => exact ⟨_, _, _, _, rfl, rfl⟩

theorem length_lt (h : Over o base base' ps qs) : base.length < ps.length := by
  induction h with
  | here p => exact Nat.lt_succ_self base.length
  | above p _ ih => exact Nat.lt_succ_of_lt ih

/-- With nothing above it, the output on top is the one that begins with `o`. -/
theorem eq_append (h : Over o base base' (p :: base) (q :: base')) : q = o ++ p := by
  cases h with
  | here => rfl
  | above _ h => exact absurd h.length_lt (Nat.lt_irrefl base.length)

/-- **What is taken over comes at the end.** -/
theorem append (h : Over o base base' (p :: ps) (q :: qs)) (r : Output) :
    Over o base base' ((p ++ r) :: ps) ((q ++ r) :: qs) := by
  cases h with
  | here =>
    rw [Output.append_assoc]
    exact .here (p ++ r)
  | above _ h => exact .above (p ++ r) h

theorem push (h : Over o base base' (p :: ps) (q :: qs)) (s : String) :
    Over o base base' (p.push s :: ps) (q.push s :: qs) := by
  rw [Output.push_eq_append, Output.push_eq_append s q]
  exact h.append _

end Over

/-- The machines are the same, but that one output begins with `o` in the second, whatever lies
    beneath, and but for what the notes say of the output. -/
inductive Machine.Beside (o : Output) (base base' : List Output) (n : Nat) (t t' : List Entry) :
    Machine → Machine → Prop where
  | mk (c : Context) (depths : List Nat) {book book' : Notebook} {p : Output}
    {outers outers' : List Output} (hbook : book.Beside n t t' book')
    (hover : Over o base base' (c.output :: outers) (p :: outers')) :
    Beside o base base' n t t' ⟨c, book, depths, outers⟩
      ⟨{ c with output := p }, book', depths, outers'⟩

/-- Where the text of the output is noted, it was asked for. -/
def Move.forthright : Move → Bool
  | note moment remark => decide (remark = .output → moment = .done .output)
  | write _ | newline | indentation | label _ | name _ | splice _ | further | level _ | leave
  | setAside | keep _ => true

section

variable {o : Output} {base base' : List Output} {n : Nat} {t t' : List Entry}

/-- Beside each other, the machines have the same to say, but for the output. -/
theorem Remark.answer_beside {moment : Moment} {remark : Remark}
    (h : (Move.note moment remark).forthright = true) {m m' : Machine}
    (hm : m.Beside o base base' n t t' m') :
    moment = .done .output ∨ remark.answer m = (remark.answer m').later n := by
  obtain ⟨c, depths, hbook, -⟩ := hm
  cases remark with
  | output => exact .inl (of_decide_eq_true h rfl)
  | body => exact .inr (congrArg Answer.body hbook.size)
  | header => exact .inr (congrArg (Answer.header ∘ some) hbook.size)
  | nothing | id? | width | config | skipped => exact .inr rfl

/-- **A move keeps the machines beside each other**, if it does not end a capture that began beneath. -/
theorem Move.beside_exec {mv : Move} (hmv : mv.forthright = true) {m m' : Machine}
    (hm : m.Beside o base base' n t t' m') (hne : base ≠ [])
    (hbase : ∀ k, mv.exec m = .ok k → base <:+ k.outers) :
    Matches (Machine.Beside o base base' n t t') (mv.exec m) (mv.exec m') := by
  have hanswer := fun moment remark (h : mv = .note moment remark) =>
    Remark.answer_beside (h ▸ hmv) hm
  obtain ⟨c, depths, hbook, hover⟩ := hm
  cases mv with
  | write s => exact .ok (.mk (c.write s) depths hbook (hover.push s))
  | newline =>
    change Matches _ (.ok (if c.config.newlines then _ else _))
      (.ok (if c.config.newlines then _ else _))
    split
    · exact .ok (.mk (c.write "\n") depths hbook (hover.push "\n"))
    · exact .ok (.mk c depths hbook hover)
  | indentation =>
    exact .map_self c.config.indentation fun s => .mk (c.write s) depths hbook (hover.push s)
  | label v =>
    exact .map_self (c.room v) fun _ =>
      .mk ((c.named v).write (c.labelOf v)) depths hbook (hover.push (c.labelOf v))
  | name v =>
    exact .map_self (c.room v) fun _ =>
      .mk (c.named v) depths (hbook.note (c.named v) _ (.done .name) (.inr rfl)) hover
  | splice key =>
    rename_i book book' p outers outers'
    let spliced := (book.kept.get? key).getD .empty
    have hover' : Over o base base' ((c.output ++ spliced) :: outers)
        ((p ++ (book'.kept.get? key).getD .empty) :: outers') := by
      rw [hbook.kept]
      exact hover.append spliced
    exact .ok (.mk { c with output := c.output ++ spliced } depths
      (hbook.keeping (·.erase key)) hover')
  | further => exact .ok (.mk (c.atDepth c.config.further) _ hbook hover)
  | level depth => exact .ok (.mk (c.atDepth depth) _ hbook hover)
  | leave =>
    cases depths with
    | nil => exact .ok (.mk c [] hbook hover)
    | cons depth depths => exact .ok (.mk (c.atDepth depth) depths hbook hover)
  | setAside => exact .ok (.mk { c with output := .empty } depths hbook (hover.above .empty))
  | keep key =>
    cases hover with
    | here =>
      -- the capture began beneath: the move would take up what lies there
      cases base with
      | nil => exact absurd rfl hne
      | cons b bs =>
        have hlength := (hbase _ rfl).length_le
        exact absurd hlength (Nat.not_succ_le_self bs.length)
    | above _ hover =>
      obtain ⟨q, outers, q', outers', rfl, rfl⟩ := hover.exists_cons
      have hkept := hbook.keeping (·.put key c.output)
      refine .ok (.mk { c with output := q } depths (hkept.note _ _ (.done .capture) ?_) hover)
      exact .inr (by rw [Answer.later, hbook.size])
  | note moment remark =>
    exact .ok (.mk c depths (hbook.note c _ moment (hanswer moment remark rfl)) hover)

/-- **A run keeps the machines beside each other**, if it never takes up what lies beneath. -/
theorem Machine.beside_run {mvs : List Move} (hmvs : ∀ mv ∈ mvs, mv.forthright = true)
    (hne : base ≠ []) {m m' : Machine} (hm : m.Beside o base base' n t t' m')
    (hbase : ∀ before after k, mvs = before ++ after → run before m = .ok k → base <:+ k.outers) :
    Matches (Beside o base base' n t t') (run mvs m) (run mvs m') := by
  induction mvs generalizing m m' with
  | nil => exact .ok hm
  | cons mv mvs ih =>
    have hrun : ∀ {k}, mv.exec m = .ok k → ∀ before, run (mv :: before) m = run before k := by
      intro k hexec before
      rw [run_cons, hexec]
      rfl
    have hstep : Matches (Beside o base base' n t t') (mv.exec m) (mv.exec m') :=
      Move.beside_exec (hmvs mv List.mem_cons_self) hm hne fun k hexec =>
        hbase [mv] mvs k rfl (hrun hexec [])
    refine hstep.bind_of_ok fun k k' hexec hk => ?_
    refine ih (fun mv' hmem => hmvs mv' (List.mem_cons_of_mem mv hmem)) hk ?_
    intro before after k₁ hsplit hbefore
    refine hbase (mv :: before) after k₁ (congrArg (mv :: ·) hsplit) ?_
    rw [hrun hexec]
    exact hbefore

end

end Emission
