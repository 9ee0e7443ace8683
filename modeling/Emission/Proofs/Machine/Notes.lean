import Emission.Proofs.Machine

/-!
# What is noted when

The moment of an entry tells what is in it: after a step that asks for something there is what it asked
for, after a step with a body the number of entries, and after any other step nothing.

* `Remark.fits` says so of one note, and `Step.fits_movesAll` of all that a program notes.
* What writes a node notes nothing (`Node.draws_moves`).
-/

namespace Emission

/-! ## 1. Moves that write a node -/

/-- Whether the move is one of those that write a node. -/
def Move.draws : Move → Bool
  | write _ | newline | indentation | label _ | further | level _ | leave => true
  | name _ | splice _ | setAside | keep _ | note _ _ => false

/-- Where only notes are left out, nothing is left out of moves that write a node. -/
theorem Move.filter_of_draws {kept : Move → Bool}
    (hkept : ∀ mv, kept mv = false → ∃ moment remark, mv = .note moment remark) {mvs : List Move}
    (h : ∀ mv ∈ mvs, mv.draws = true) : mvs.filter kept = mvs := by
  refine List.filter_eq_self.mpr fun mv hmv => ?_
  have hdraws := h mv hmv
  cases hmvkept : kept mv with
  | true => rfl
  | false =>
    obtain ⟨moment, remark, rfl⟩ := hkept mv hmvkept
    cases hdraws

/-- Between neighbours nothing but the separator is written. -/
theorem Move.mem_separated {separator : String} {mss : List (List Move)} {mv : Move}
    (h : mv ∈ Move.separated separator mss) : mv = .write separator ∨ mv ∈ mss.flatten := by
  cases mss with
  | nil => cases h
  | cons mvs rest =>
    rw [Move.separated, List.mem_append, List.mem_flatMap] at h
    rw [List.flatten_cons, List.mem_append, List.mem_flatten]
    obtain hfirst | ⟨mvs', hmem, hmv⟩ := h
    · exact .inr (.inl hfirst)
    · cases hmv with
      | head => exact .inl rfl
      | tail _ hmv => exact .inr (.inr ⟨mvs', hmem, hmv⟩)

theorem Scope.draws_before (scope : Scope) : ∀ mv ∈ scope.before, mv.draws = true := by
  cases scope <;> exact List.forall_mem_singleton.mpr rfl

theorem Scope.draws_after (scope : Scope) : ∀ mv ∈ scope.after, mv.draws = true := by
  cases scope with
  | indent => exact List.forall_mem_nil _
  | line | further | level => exact List.forall_mem_singleton.mpr rfl

mutual

/-- **A node only writes, and goes from depth to depth.** -/
theorem Node.draws_moves : ∀ node : Node, ∀ mv ∈ node.moves, mv.draws = true
  | .text _ | .literal _ | .var _ => List.forall_mem_singleton.mpr rfl
  | .list nodes => Node.draws_movesEach nodes
  | .absent => List.forall_mem_nil _
  | .present node | .boxed node | .ref node => Node.draws_moves node
  | .within scope node => by
    rw [Node.moves]
    refine List.forall_mem_append.mpr ⟨List.forall_mem_append.mpr ⟨?_, ?_⟩, ?_⟩
    · exact scope.draws_before
    · exact Node.draws_moves node
    · exact scope.draws_after
  | .sep separator nodes => by
    intro mv hmv
    rw [Node.moves] at hmv
    obtain rfl | hmem := Move.mem_separated hmv
    · rfl
    · exact Node.draws_movesEach nodes mv hmem

theorem Node.draws_movesEach : ∀ nodes : List Node,
    ∀ mv ∈ (Node.movesEach nodes).flatten, mv.draws = true
  | [] => List.forall_mem_nil _
  | node :: nodes =>
    List.forall_mem_append.mpr ⟨Node.draws_moves node, Node.draws_movesEach nodes⟩

end

/-! ## 2. Notes -/

/-- Whether this is what is noted at a moment: after a step that asks for something, what it asked for;
    after a step with a body, how many entries there are; else nothing. Labels that are asked for, and
    captures, are noted by moves of their own. -/
def Remark.fits : Moment → Remark → Bool
  | .entered _, nothing => true
  | .done (.emit _), nothing | .done .newline, nothing | .done .var, nothing => true
  | .done .splice, nothing | .done .render, nothing | .done .sep, nothing => true
  | .done .get, id? _ | .done .width, width | .done .config, config | .done .output, output => true
  | .done .indent, body | .done .line, body | .done .further, body | .done .level, body => true
  | .done .header, header | .done .header, skipped => true
  | _, _ => false

/-- Whether what the move notes fits the moment. -/
def Move.fits : Move → Bool
  | note moment remark => remark.fits moment
  | write _ | newline | indentation | label _ | name _ | splice _ | further | level _ | leave
  | setAside | keep _ => true

theorem Move.fits_of_draws {mv : Move} (h : mv.draws = true) : mv.fits = true := by
  cases mv with
  | note => cases h
  | write | newline | indentation | label | name | splice | further | level | leave | setAside
  | keep => rfl

theorem Act.fits_moves (a : Act) : ∀ mv ∈ a.moves, mv.fits = true := by
  cases a with
  | render node =>
    refine List.forall_mem_append.mpr ⟨fun mv hmv => ?_, List.forall_mem_singleton.mpr rfl⟩
    exact Move.fits_of_draws (Node.draws_moves node mv hmv)
  | sep items separator =>
    refine List.forall_mem_append.mpr ⟨fun mv hmv => ?_, List.forall_mem_singleton.mpr rfl⟩
    exact Move.fits_of_draws (Node.draws_moves (.sep separator items) mv hmv)
  | emit | newline | var | splice =>
    exact List.forall_mem_cons.mpr ⟨rfl, List.forall_mem_singleton.mpr rfl⟩
  | name | get | width | config | output => exact List.forall_mem_singleton.mpr rfl

theorem Scope.fits_moves {scope : Scope} {mvs : List Move} (h : ∀ mv ∈ mvs, mv.fits = true) :
    ∀ mv ∈ scope.before ++ mvs ++ scope.after ++ [.note (.done scope.deed) .body],
      mv.fits = true := by
  have hdone : (Move.note (.done scope.deed) .body).fits = true := by
    cases scope <;> rfl
  refine List.forall_mem_append.mpr ⟨List.forall_mem_append.mpr
    ⟨List.forall_mem_append.mpr ⟨fun mv hmv => ?_, h⟩, fun mv hmv => ?_⟩,
    List.forall_mem_singleton.mpr hdone⟩
  · exact Move.fits_of_draws (scope.draws_before mv hmv)
  · exact Move.fits_of_draws (scope.draws_after mv hmv)

mutual

/-- **What is noted fits the moment**, in every step. -/
theorem Step.fits_moves (header : Bool) : ∀ s : Step, ∀ mv ∈ s.moves header, mv.fits = true
  | .act a => a.fits_moves
  | .within _ body =>
    Scope.fits_moves (List.forall_mem_cons.mpr ⟨rfl, Step.fits_movesAll header body⟩)
  | .header body => by
    rw [Step.moves]
    split
    · have hbody : ∀ mv ∈ Move.note (.entered .header) .nothing :: Step.movesAll header body,
          mv.fits = true :=
        List.forall_mem_cons.mpr ⟨rfl, Step.fits_movesAll header body⟩
      exact List.forall_mem_append.mpr ⟨hbody, List.forall_mem_singleton.mpr rfl⟩
    · exact List.forall_mem_singleton.mpr rfl
  | .capture key body => by
    have hbody : ∀ mv ∈ Move.setAside :: Move.note (.entered .capture) .nothing ::
        Step.movesAll header body, mv.fits = true :=
      List.forall_mem_cons.mpr
        ⟨rfl, List.forall_mem_cons.mpr ⟨rfl, Step.fits_movesAll header body⟩⟩
    exact List.forall_mem_append.mpr ⟨hbody, List.forall_mem_singleton.mpr rfl⟩

theorem Step.fits_movesAll (header : Bool) : ∀ steps : List Step,
    ∀ mv ∈ Step.movesAll header steps, mv.fits = true
  | [] => List.forall_mem_nil _
  | step :: steps => List.forall_mem_append.mpr
      ⟨Step.fits_moves header step, Step.fits_movesAll header steps⟩

end

/-- The output is noted after steps that ask for it. -/
theorem Remark.eq_done_of_fits_output {moment : Moment} (h : Remark.output.fits moment = true) :
    moment = .done .output := by
  cases moment with
  | entered => cases h
  | done deed => cases deed <;> first | rfl | cases h

end Emission
