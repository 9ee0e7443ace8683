import Emission.Proofs.Machine.Frame
import Emission.Proofs.Machine.Notes
import Emission.Proofs.Machine.Run

/-!
# Captures

What steps write is put at the end of the output, and does not depend on what the output began with
(`Step.execAll_frame`). So it makes no difference whether steps write where they stand, or are
captured and written there afterwards.

* `Inlined` says what is the same.
* `Step.capture_splice_inline`: a capture that is spliced at once is the same as its body in its place;
  and meanwhile the output before it lies untouched.
-/

namespace Emission

/-! ## 1. Where the text of the output is noted -/

/-- **The text of the output is noted where it is asked for**, and nowhere else. -/
theorem Step.forthright_movesAll (header : Bool) (steps : List Step) :
    ∀ mv ∈ Step.movesAll header steps, mv.forthright = true := by
  intro mv hmv
  have hfits := Step.fits_movesAll header steps mv hmv
  cases mv with
  | note moment remark =>
    refine decide_eq_true fun hremark => ?_
    subst hremark
    exact Remark.eq_done_of_fits_output hfits
  | write | newline | indentation | label | name | splice | further | level | leave | setAside
  | keep => rfl

/-! ## 2. The output before -/

/-- **What the output begins with makes no difference to steps**: run on any output they fail for the
    same reason as on the empty one, or write the same after it, and leave the rest of the state the
    same. -/
theorem Step.execAll_frame (body : List Step) (c : Context) (o : Output) {n : Nat}
    {book book' : Notebook}
    (hbook : book.Beside n book.trace.toList book'.trace.toList book') :
    Matches (fun r r' : (Unit × Notebook) × Context =>
        r'.2 = { r.2 with output := o ++ r.2.output } ∧
          r.1.2.Beside n book.trace.toList book'.trace.toList r'.1.2)
      (Step.execAll body book { c with output := .empty })
      (Step.execAll body book' { c with output := o }) := by
  -- an output beneath the empty one tells the captures of the body from one that began before
  let m : Machine := ⟨{ c with output := .empty }, book, [], [.empty]⟩
  let m' : Machine := ⟨{ c with output := o }, book', [], []⟩
  have hm : m.Beside o [.empty] [] n book.trace.toList book'.trace.toList m' := by
    have hover : Over o [.empty] [] [.empty, .empty] [o] := by
      have h : Over o [.empty] [] [.empty, .empty] [o ++ .empty] := .here .empty
      rwa [Output.append_empty] at h
    exact .mk { c with output := .empty } [] hbook hover
  have hbeneath : ∀ before after k,
      Step.movesAll c.config.header body = before ++ after → Machine.run before m = .ok k →
        [.empty] <:+ k.outers := by
    intro before after k hmoves hrun
    rw [← Step.map_move_placedAll c.config.header []] at hmoves
    exact (keeps_steps c.config.header [] body).suffix_outers (c := c.config) rfl hmoves hrun
  have hrun := Machine.beside_run (Step.forthright_movesAll c.config.header body)
    (List.cons_ne_nil _ _) hm hbeneath
  have hdoes := does_steps c.config.header body
  rw [(hdoes book).run_eq (c := { c with output := .empty }) rfl,
    (hdoes book').run_eq (c := { c with output := o }) rfl] at hrun
  refine hrun.of_map fun r r' hr => ?_
  obtain ⟨⟨⟨⟩, book₁⟩, c₁⟩ := r
  obtain ⟨⟨⟨⟩, book₁'⟩, c₁'⟩ := r'
  obtain ⟨-, -, hbook₁, hover⟩ := hr
  cases hover.eq_append
  exact ⟨rfl, hbook₁⟩

/-- **What steps write does not depend on the output before**: it is the same text in the same pieces
    on any output. -/
theorem Step.exists_written {body : List Step} {book : Notebook} {c : Context}
    {r : (Unit × Notebook) × Context} (h : Step.execAll body book c = .ok r) :
    ∃ d : Output, ∀ o, ∃ r', Step.execAll body book { c with output := o } = .ok r' ∧
      r'.2 = { r.2 with output := o ++ d } ∧
      r.1.2.Beside 0 book.trace.toList book.trace.toList r'.1.2 := by
  have hframe := fun o => Step.execAll_frame body c o (Notebook.beside_self book)
  obtain ⟨r₀, hempty, hcontext, hbook⟩ := (hframe c.output).swap.exists_of_ok h
  refine ⟨r₀.2.output, fun o => ?_⟩
  obtain ⟨r', hr', hcontext', hbook'⟩ := (hframe o).exists_of_ok hempty
  refine ⟨r', hr', ?_, hbook.trans hbook'⟩
  rw [hcontext', hcontext]

/-- Whether steps fail does not depend on it either. -/
theorem Step.execAll_eq_error_iff {body : List Step} {book : Notebook} {c : Context} {e : Fault}
    (o : Output) :
    Step.execAll body book c = .error e ↔
      Step.execAll body book { c with output := o } = .error e := by
  have hframe := fun o => Step.execAll_frame body c o (Notebook.beside_self book)
  exact (hframe c.output).eq_error_iff.symm.trans (hframe o).eq_error_iff

/-! ## 3. Captures -/

theorem Scripted.inside_apply (deed : Deed) (x : Scripted Unit) (book : Notebook) (c : Context) :
    Scripted.inside deed x book c =
      (x (book.note c (.entered deed) .nothing) c).map fun r =>
        ((r.1.2.trace.size, r.1.2), r.2) := by
  change (do let r ← x (book.note c (.entered deed) .nothing) c; _) = _
  cases x (book.note c (.entered deed) .nothing) c <;> rfl

/-- What a capture makes of what its body left: the output found is put back, and the one there is
    is kept. -/
def Step.afterCapture (key : String) (found : Output) (r : (Unit × Notebook) × Context) :
    (Unit × Notebook) × Context :=
  let c := { r.2 with output := found }
  (((), Notebook.note { r.1.2 with kept := r.1.2.kept.put key r.2.output } c (.done .capture)
    (.capture r.1.2.trace.size r.2.output.text r.2.output.count)), c)

/-- What a splice makes of what it finds. -/
def Step.afterSplice (key : String) (r : (Unit × Notebook) × Context) :
    (Unit × Notebook) × Context :=
  let c := { r.2 with output := r.2.output ++ (r.1.2.kept.get? key).getD .empty }
  (((), Notebook.note { r.1.2 with kept := r.1.2.kept.erase key } c (.done .splice) .nothing), c)

/-- **A capture runs its body on the empty output, and gives the output back as it was.** -/
theorem Step.exec_capture (key : String) (body : List Step) (book : Notebook) (c : Context) :
    (Step.capture key body).exec book c =
      (Step.execAll body (book.note { c with output := .empty } (.entered .capture) .nothing)
        { c with output := .empty }).map (Step.afterCapture key c.output) := by
  rw [Step.exec, Scripted.bind_apply, Scripted.capture_apply, Scripted.inside_apply]
  cases Step.execAll body _ { c with output := .empty } <;> rfl

theorem Step.execAll_capture_splice (key : String) (body : List Step) (book : Notebook)
    (c : Context) :
    Step.execAll [.capture key body, .act (.splice key)] book c =
      (Step.execAll body (book.note { c with output := .empty } (.entered .capture) .nothing)
        { c with output := .empty }).map fun r =>
          Step.afterSplice key (Step.afterCapture key c.output r) := by
  rw [Step.execAll, Scripted.bind_apply, Step.exec_capture]
  cases Step.execAll body _ { c with output := .empty } <;> rfl

section

variable (key : String) (found : Output) (r : (Unit × Notebook) × Context)

/-- **What was captured is put after the output found.** -/
theorem Step.context_afterSplice :
    (Step.afterSplice key (Step.afterCapture key found r)).2 =
      { r.2 with output := found ++ r.2.output } := by
  change { r.2 with output := found ++ ((r.1.2.kept.put key r.2.output).get? key).getD .empty } = _
  rw [Shelf.get?_put, if_pos rfl]
  rfl

/-- Under other names the same is kept as the body left. -/
theorem Step.kept_afterSplice {other : String} (h : other ≠ key) :
    (Step.afterSplice key (Step.afterCapture key found r)).1.2.kept.get? other =
      r.1.2.kept.get? other := by
  change ((r.1.2.kept.put key r.2.output).erase key).get? other = _
  rw [Shelf.get?_erase, if_neg h, Shelf.get?_put, if_neg h]

theorem Step.trace_afterSplice :
    ∃ captured spliced : Entry,
      (Step.afterSplice key (Step.afterCapture key found r)).1.2.trace.toList =
        r.1.2.trace.toList ++ [captured, spliced] ∧
      captured.moment = .done .capture ∧ spliced.moment = .done .splice := by
  refine ⟨Context.entry { r.2 with output := found } (.done .capture)
      (.capture r.1.2.trace.size r.2.output.text r.2.output.count),
    Context.entry (Step.afterSplice key (Step.afterCapture key found r)).2 (.done .splice) .nothing,
    ?_, rfl, rfl⟩
  rw [Step.afterSplice, Notebook.toList_trace_note]
  change (Notebook.note _ _ _ _).trace.toList ++ _ = _
  rw [Notebook.toList_trace_note, List.append_assoc]
  rfl

end

/-- What comes of a body that was captured under `key` and spliced at once, beside what comes of it in
    its place: the same state with the same output, the same kept under other names, and the same
    notes but for what they say of the output, between one more note at the beginning of the capture
    and one at its end and one for the splice. -/
structure Inlined (key : String) (book : Notebook) (r r' : (Unit × Notebook) × Context) : Prop where
  context : r.2 = r'.2
  kept : ∀ other, other ≠ key → r.1.2.kept.get? other = r'.1.2.kept.get? other
  trace : ∃ (es es' : List Entry) (entered captured spliced : Entry),
    r.1.2.trace.toList = book.trace.toList ++ entered :: es ++ [captured, spliced] ∧
    r'.1.2.trace.toList = book.trace.toList ++ es' ∧
    es.map Entry.withoutOutput = (es'.map fun e => (e.later 1).withoutOutput) ∧
    entered.moment = .entered .capture ∧ captured.moment = .done .capture ∧
    spliced.moment = .done .splice

/-- **A capture that is spliced at once is its body in its place.** -/
theorem Step.inlined_capture_splice (key : String) (body : List Step) (book : Notebook)
    (c : Context) :
    Matches (Inlined key book) (Step.execAll [.capture key body, .act (.splice key)] book c)
      (Step.execAll body book c) := by
  let entry : Entry := Context.entry { c with output := .empty } (.entered .capture) .nothing
  let entered : Notebook := book.note { c with output := .empty } (.entered .capture) .nothing
  have hentered : entered.trace.toList = book.trace.toList ++ [entry] :=
    Notebook.toList_trace_note book _ _ _
  have hbeside : entered.Beside 1 entered.trace.toList book.trace.toList book :=
    Notebook.beside_of_kept rfl (Array.size_push _)
  have hframe : Matches (fun r r' : (Unit × Notebook) × Context =>
      r'.2 = { r.2 with output := c.output ++ r.2.output } ∧
        r.1.2.Beside 1 entered.trace.toList book.trace.toList r'.1.2)
      (Step.execAll body entered { c with output := .empty }) (Step.execAll body book c) :=
    Step.execAll_frame body c c.output hbeside
  -- one more entry is before the body in the capture, so all that it counts comes one later
  rw [Step.execAll_capture_splice]
  refine hframe.map_left fun r r' h => ?_
  obtain ⟨hcontext, hbook⟩ := h
  obtain ⟨es, es', hes, hes', hmap⟩ := hbook.trace
  obtain ⟨captured, spliced, htrace, hcaptured, hspliced⟩ := Step.trace_afterSplice key c.output r
  refine ⟨?_, fun other hother => ?_, ?_⟩
  · exact (Step.context_afterSplice key c.output r).trans hcontext.symm
  · exact (Step.kept_afterSplice key c.output r hother).trans (by rw [hbook.kept])
  · refine ⟨es, es', entry, captured, spliced, ?_, hes', hmap, rfl, hcaptured, hspliced⟩
    rw [htrace, hes, hentered, List.append_assoc _ [entry] es]
    rfl

/-- **The output before a capture lies untouched** beneath whatever the body has begun, until the
    capture ends. -/
theorem Step.suffix_outers_capture {body : List Step} {m n : Machine} {before after : List Move}
    (hmoves : Move.note (.entered .capture) .nothing ::
      Step.movesAll m.context.config.header body = before ++ after)
    (h : Machine.run before m.setAside = .ok n) : m.context.output :: m.outers <:+ n.outers := by
  have hentered : Keeps [] [⟨[], .note (.entered .capture) .nothing⟩] := keeps_move _ rfl
  have hkeeps := hentered.append (keeps_steps m.context.config.header [] body)
  have hplaced : ([Placed.mk [] (.note (.entered .capture) .nothing)] ++
      Step.placedAll m.context.config.header [] body).map Placed.move = before ++ after := by
    rw [List.map_append, Step.map_move_placedAll]
    exact hmoves
  exact hkeeps.suffix_outers (m := m.setAside) (c := m.context.config) rfl hplaced h

/-- **A capture that is spliced at once is its body in its place**, in any state. What the body writes
    does not depend on the output it is run on, and comes after it, piece by piece; neither does
    anything else that it leaves behind, or whether it fails, depend on that output. So it comes to the
    same in a capture of its own: the captured pieces are put where they would have been written. While
    the body is captured the output before lies untouched, and after the capture it is back. -/
theorem Step.capture_splice_inline (body : List Step) (book : Notebook) (c : Context) :
    (∀ r, Step.execAll body book c = .ok r →
      ∃ d : Output, ∀ o, ∃ r', Step.execAll body book { c with output := o } = .ok r' ∧
        r'.2 = { r.2 with output := o ++ d } ∧
        r'.2.output.pieces = o.pieces ++ d.pieces ∧
        r.1.2.Beside 0 book.trace.toList book.trace.toList r'.1.2) ∧
    (∀ e o, Step.execAll body book c = .error e ↔
      Step.execAll body book { c with output := o } = .error e) ∧
    (∀ key, Matches (Inlined key book)
      (Step.execAll [.capture key body, .act (.splice key)] book c)
      (Step.execAll body book c)) ∧
    (∀ key r, (Step.capture key body).exec book c = .ok r → r.2.output = c.output) ∧
    (∀ (m n : Machine) (before after : List Move),
      Move.note (.entered .capture) .nothing ::
          Step.movesAll m.context.config.header body = before ++ after →
        Machine.run before m.setAside = .ok n → m.context.output :: m.outers <:+ n.outers) := by
  refine ⟨fun r h => ?_, fun e o => Step.execAll_eq_error_iff o,
    fun key => Step.inlined_capture_splice key body book c, fun key r h => ?_,
    fun m n before after => Step.suffix_outers_capture⟩
  · obtain ⟨d, hd⟩ := Step.exists_written h
    refine ⟨d, fun o => ?_⟩
    obtain ⟨r', hr', hcontext, hbook⟩ := hd o
    refine ⟨r', hr', hcontext, ?_, hbook⟩
    rw [hcontext]
    exact Output.pieces_append o d
  · rw [Step.exec_capture] at h
    obtain ⟨r', -, rfl⟩ := map_eq_ok_iff.mp h
    rfl

/-- A capture in a capture, and a splice in it of what was kept before. -/
example :
    let body : Program :=
      [.act (.emit .lent "a"), .capture "k" [.act (.emit .lent "b"), .act .output],
        .capture "l" [.act (.splice "k"), .act (.emit .lent "c")], .act (.splice "l")]
    let pieces := fun p : Program =>
      (p.run .pretty).toOption.map fun o => (o.text, o.result.trace.toList.map Entry.pieces)
    pieces (.act (.emit .lent "o") :: body) =
        some ("oabc", [1, 2, 0, 1, 1, 2, 0, 1, 2, 2, 4]) ∧
      pieces (.act (.emit .lent "o") :: [.capture "m" body, .act (.splice "m")]) =
        some ("oabc", [1, 0, 1, 0, 1, 1, 1, 0, 1, 2, 1, 3, 1, 4]) := by
  decide +kernel

end Emission
