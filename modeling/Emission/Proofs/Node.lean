import Emission.Proofs.Capture
import Emission.Proofs.Machine.Alike

/-!
# Nodes as steps

A node is written by steps which can be told from it (`Node.steps`): texts and variables are single
steps, lists and options are the steps of what is in them, a box and a reference are not seen at all,
and in a list with a separator the separator is written between each two neighbours.

* Rendering a node is running these steps, in any state (`Node.matches_steps`). The moves of the steps
  are those of the node, and notes between them (`Node.muted_steps`).
* So what is known of steps is known of nodes: what a node writes does not depend on the output before
  it (`Node.matches_render_onto`), and that is why the pieces of a list with a separator are those of
  the list and the separator between them, even where a node writes nothing
  (`Node.matches_separated`).
* `Node.render_steps` puts this together.
-/

namespace Emission

/-! ## 1. Steps of nodes -/

mutual

/-- The steps that write a node. -/
def Node.steps : Node → List Step
  | .text s | .literal s => [.act (.emit .lent s)]
  | .var v => [.act (.var v)]
  | .list nodes => (Node.stepsEach nodes).flatten
  | .absent => []
  | .present node | .boxed node | .ref node => node.steps
  | .within scope node => [.within scope node.steps]
  | .sep separator nodes => [.act (.emit .lent separator)].intercalate (Node.stepsEach nodes)

/-- The steps of each of some nodes. -/
def Node.stepsEach : List Node → List (List Step)
  | [] => []
  | node :: nodes => node.steps :: Node.stepsEach nodes

end

theorem Node.stepsEach_eq_map (nodes : List Node) : Node.stepsEach nodes = nodes.map Node.steps := by
  induction nodes with
  | nil => rfl
  | cons node nodes ih => rw [Node.stepsEach, ih, List.map_cons]

section

variable {α : Type}

/-- Between neighbours is before each but the first. -/
theorem intercalate_cons_eq_flatMap (between l : List α) (ls : List (List α)) :
    between.intercalate (l :: ls) = l ++ ls.flatMap (between ++ ·) := by
  induction ls generalizing l with
  | nil => rw [List.intercalate_singleton, List.flatMap_nil, List.append_nil]
  | cons l' ls ih =>
    rw [List.intercalate_cons_cons, ih, List.flatMap_cons, List.append_assoc, List.append_assoc]

@[simp] theorem map_intercalate {β : Type} (f : α → β) (between : List α) (ls : List (List α)) :
    (between.intercalate ls).map f = (between.map f).intercalate (ls.map (List.map f)) := by
  cases ls with
  | nil => rfl
  | cons l ls =>
    rw [intercalate_cons_eq_flatMap, List.map_append, List.map_flatMap, List.map_cons,
      intercalate_cons_eq_flatMap, List.flatMap_map]
    simp only [List.map_append]

/-- **Between `k` members there are `k - 1` places.** -/
theorem length_intercalate (between : List α) (ls : List (List α)) :
    (between.intercalate ls).length = ls.flatten.length + (ls.length - 1) * between.length := by
  have hbefore : ∀ ls : List (List α), (ls.flatMap (between ++ ·)).length =
      ls.flatten.length + ls.length * between.length := by
    intro ls
    induction ls with
    | nil => simp
    | cons l ls ih =>
      rw [List.flatMap_cons, List.length_append, List.length_append, ih, List.flatten_cons,
        List.length_append, List.length_cons, Nat.succ_mul]
      omega
  cases ls with
  | nil => simp
  | cons l ls =>
    rw [intercalate_cons_eq_flatMap, List.length_append, hbefore, List.flatten_cons,
      List.length_append, List.length_cons, Nat.add_sub_cancel, Nat.add_assoc]

end

/-! ## 2. Moves of these steps -/

/-- Whether the move makes a note, and does nothing else. -/
def Move.isNote : Move → Bool
  | note _ _ => true
  | write _ | newline | indentation | label _ | name _ | splice _ | further | level _ | leave
  | setAside | keep _ => false

/-- The moves of some steps without the notes. -/
def Step.muted (header : Bool) (steps : List Step) : List Move :=
  (Step.movesAll header steps).filter fun mv => !mv.isNote

theorem Move.exists_note_of_isNote {mv : Move} (h : (!mv.isNote) = false) :
    ∃ moment remark, mv = .note moment remark := by
  cases mv with
  | note moment remark => exact ⟨moment, remark, rfl⟩
  | write | newline | indentation | label | name | splice | further | level | leave | setAside
  | keep => cases h

section

variable (header : Bool)

theorem Step.muted_append (ss tt : List Step) :
    Step.muted header (ss ++ tt) = Step.muted header ss ++ Step.muted header tt := by
  rw [Step.muted, Step.movesAll_append, List.filter_append]
  rfl

theorem Step.muted_flatten (sss : List (List Step)) :
    Step.muted header sss.flatten = (sss.map (Step.muted header)).flatten := by
  induction sss with
  | nil => rfl
  | cons ss sss ih => rw [List.flatten_cons, Step.muted_append, ih, List.map_cons, List.flatten_cons]

/-- **The moves of steps with a separator between them** are theirs with the separator between. -/
theorem Step.muted_intercalate (separator : String) (sss : List (List Step)) :
    Step.muted header ([.act (.emit .lent separator)].intercalate sss) =
      Move.separated separator (sss.map (Step.muted header)) := by
  cases sss with
  | nil => rfl
  | cons ss sss =>
    rw [intercalate_cons_eq_flatMap, Step.muted_append, List.flatMap_def, Step.muted_flatten,
      List.map_map, List.map_cons, Move.separated, List.flatMap_def, List.map_map]
    rfl

mutual

/-- **The steps of a node make its moves**, and notes. -/
theorem Node.muted_steps : ∀ node : Node, Step.muted header node.steps = node.moves
  | .text _ | .literal _ | .var _ | .absent => rfl
  | .list nodes => by
    rw [Node.steps, Step.muted_flatten, Node.map_muted_stepsEach nodes, Node.moves]
  | .present node | .boxed node | .ref node => Node.muted_steps node
  | .within scope node => by
    rw [Node.steps, Step.muted, Step.movesAll, Step.movesAll, List.append_nil, Step.moves,
      List.filter_append, List.filter_append, List.filter_append,
      Move.filter_of_draws (fun _ => Move.exists_note_of_isNote) scope.draws_before,
      Move.filter_of_draws (fun _ => Move.exists_note_of_isNote) scope.draws_after]
    change scope.before ++ Step.muted header node.steps ++ scope.after ++ [] = _
    rw [Node.muted_steps node, List.append_nil, Node.moves]
  | .sep separator nodes => by
    rw [Node.steps, Step.muted_intercalate, Node.map_muted_stepsEach nodes, Node.moves]

theorem Node.map_muted_stepsEach : ∀ nodes : List Node,
    (Node.stepsEach nodes).map (Step.muted header) = Node.movesEach nodes
  | [] => rfl
  | node :: nodes => by
    rw [Node.stepsEach, List.map_cons, Node.muted_steps node, Node.map_muted_stepsEach nodes,
      Node.movesEach]

end

end

/-! ## 3. Rendering is running the steps -/

/-- The moves of a node, done from any state, leave what rendering leaves, and touch nothing else. -/
theorem Node.run_moves (node : Node) (m : Machine) :
    Machine.run node.moves m = (node.render m.context).map fun r => { m with context := r.2 } := by
  have hm := does_node m.context.config.header m.book node m rfl rfl
  cases hrender : node.render m.context with
  | error e =>
    rw [hrender] at hm
    exact hm
  | ok r =>
    rw [hrender] at hm
    obtain ⟨book', rfl, hrun⟩ := hm
    exact hrun

/-- What comes of steps beside what comes of a node: the same state; and of the notebook there is more
    noted, and the same kept. -/
structure Rendered (book : Notebook) (r : Unit × Context) (r' : (Unit × Notebook) × Context) :
    Prop where
  context : r'.2 = r.2
  kept : r'.1.2.kept = book.kept
  trace : book.trace.toList <+: r'.1.2.trace.toList

/-- **Rendering a node is running its steps.** -/
theorem Node.matches_steps (node : Node) (book : Notebook) (c : Context) :
    Matches (Rendered book) (node.render c) (Step.execAll node.steps book c) := by
  -- the notes are in the run of the steps only: it is the first here, and adds to the trace
  let T : List Entry → List Entry → Prop := fun t _ => book.trace.toList <+: t
  have hadd : ∀ t t' e, T t t' → T (t ++ [e]) t' :=
    fun t _ e ht => List.IsPrefix.trans ht (List.prefix_append t [e])
  have hT : Extensible T := fun t t' e _ ht _ => hadd t t' e ht
  have hleft : ∀ mv : Move, (!mv.isNote) = false → ∃ moment remark, mv = .note moment remark ∧
      ∀ t t' e, e.moment = moment → T t t' → T (t ++ [e]) t' := by
    intro mv hmv
    obtain ⟨moment, remark, hnote⟩ := Move.exists_note_of_isNote hmv
    exact ⟨moment, remark, hnote, fun t t' e _ => hadd t t' e⟩
  have hstart : Machine.Alike c.config.header T ⟨c, book, [], []⟩ ⟨c, book, [], []⟩ :=
    .mk c [] [] rfl (List.prefix_refl _)
  have hrun := Machine.alike_run_filter hT hleft (Step.movesAll c.config.header node.steps) hstart
  rw [show (Step.movesAll c.config.header node.steps).filter (fun mv => !mv.isNote) = node.moves from
    Node.muted_steps c.config.header node, Node.run_moves,
    (does_steps c.config.header node.steps book).run_eq rfl] at hrun
  refine hrun.swap.and_ok.of_map fun r r' hr => ?_
  obtain ⟨⟨⟨⟩, book'⟩, c'⟩ := r'
  obtain ⟨halike, -, hok⟩ := hr
  rw [← (does_steps c.config.header node.steps book).run_eq rfl] at hok
  have hconfig := congrArg Config.header (Machine.config_run hok)
  have hheader : c'.config.header = c.config.header := hconfig
  have hsame : c'.withHeader c.config.header = c' := by
    rw [← hheader]
    rfl
  obtain ⟨hcontext, hkept, htrace⟩ := halike.eq_withHeader
  exact ⟨(hcontext.trans hsame).symm, hkept.symm, htrace⟩

/-- A run that renders a node and one of its steps end with the same text, names and reports, or for
    the same reason with nothing. -/
theorem Node.matches_run (node : Node) (config : Config) :
    Matches (fun (o : Outcome Unit) (o' : Outcome Notebook) =>
        o'.text = o.text ∧ o'.names = o.names ∧ o'.log = o.log)
      (Emit.run config (render node)) (Program.run config node.steps) := by
  rw [Emit.run_apply, Program.run_apply]
  refine (Node.matches_steps node .empty _).bind fun r r' hr => ?_
  refine Context.matches_finish (congrArg (·.output.bytes) hr.context) ?_
  rw [hr.context]
  exact ⟨rfl, rfl, rfl⟩

/-- **What a node writes does not depend on the output before it**, and neither does anything else that
    becomes of it. -/
theorem Node.matches_render_onto (node : Node) (c : Context) (o : Output) :
    Matches (fun r r' : Unit × Context => r'.2 = { r.2 with output := o ++ r.2.output })
      (node.render { c with output := .empty }) (node.render { c with output := o }) := by
  have hempty := Node.matches_steps node .empty { c with output := .empty }
  have hsteps := Step.execAll_frame node.steps c o (Notebook.beside_self .empty)
  have honto := (Node.matches_steps node .empty { c with output := o }).swap
  refine ((hempty.trans hsteps).trans honto).mono fun r r' hr => ?_
  obtain ⟨r₁', ⟨r₁, hr₁, hframe, -⟩, hr₁'⟩ := hr
  rw [← hr₁'.context, hframe, hr₁.context]

/-! ## 4. Boxes, references and options -/

mutual

/-- The node without its boxes, its references and what makes a node optional, at every depth. -/
def Node.unwrapped : Node → Node
  | .text s => .text s
  | .literal s => .literal s
  | .var v => .var v
  | .list nodes => .list (Node.unwrappedEach nodes)
  | .absent => .absent
  | .present node | .boxed node | .ref node => node.unwrapped
  | .within scope node => .within scope node.unwrapped
  | .sep separator nodes => .sep separator (Node.unwrappedEach nodes)

def Node.unwrappedEach : List Node → List Node
  | [] => []
  | node :: nodes => node.unwrapped :: Node.unwrappedEach nodes

end

mutual

/-- **Boxes and references are not seen**, and neither is that a node is optional, if it is there. -/
theorem Node.render_unwrapped : ∀ node : Node, node.unwrapped.render = node.render
  | .text _ | .literal _ | .var _ | .absent => rfl
  | .list nodes => by
    rw [Node.unwrapped, Node.render, Node.render, Node.renderings_unwrappedEach nodes]
  | .present node | .boxed node | .ref node => Node.render_unwrapped node
  | .within scope node => by
    rw [Node.unwrapped, Node.render, Node.render, Node.render_unwrapped node]
  | .sep separator nodes => by
    rw [Node.unwrapped, Node.render, Node.render, Node.renderings_unwrappedEach nodes]

theorem Node.renderings_unwrappedEach : ∀ nodes : List Node,
    Node.renderings (Node.unwrappedEach nodes) = Node.renderings nodes
  | [] => rfl
  | node :: nodes => by
    rw [Node.unwrappedEach, Node.renderings, Node.renderings, Node.render_unwrapped node,
      Node.renderings_unwrappedEach nodes]

end

/-! ## 5. Separators -/

theorem Output.toList_pieces_push (s : String) (o : Output) :
    (o.push s).pieces.toList = o.pieces.toList ++ [s].filter (· ≠ "") := by
  rw [Output.pieces_push]
  by_cases h : s = "" <;> simp [h]

/-- A text written first is on the output when the rest begins. -/
theorem Emit.emit_bind_apply (s : String) (body : Emit Unit) (c : Context) :
    (do Emit.emit s; body : Emit Unit) c = body (c.write s) := by
  change body { c with output := Call.run (.text .lent s) c.output } = _
  rw [Output.run_eq_push]
  rfl

/-- **A separator without text separates nothing.** -/
theorem Emit.separatedBy_empty (bodies : List (Emit Unit)) :
    Emit.separatedBy "" bodies = Emit.inOrder bodies := by
  have hbody : (fun body : Emit Unit => do Emit.emit ""; body) = id := by
    funext body c
    rw [Emit.emit_bind_apply]
    rfl
  cases bodies with
  | nil => rfl
  | cons body bodies => rw [Emit.separatedBy, hbody, List.map_id, Emit.inOrder]

/-- The texts that each of some nodes writes, one node after the other. -/
def Node.piecesEach : List Node → Context → List (List String)
  | [], _ => []
  | node :: nodes, c =>
    match node.render { c with output := .empty } with
    | .error _ => []
    | .ok r => r.2.output.pieces.toList :: Node.piecesEach nodes r.2

theorem Node.piecesEach_onto (nodes : List Node) (c : Context) (o : Output) :
    Node.piecesEach nodes { c with output := o } = Node.piecesEach nodes c := by
  cases nodes <;> rfl

theorem Node.piecesEach_cons {node : Node} {c : Context} {r : Unit × Context}
    (h : node.render { c with output := .empty } = .ok r) (nodes : List Node) :
    Node.piecesEach (node :: nodes) c =
      r.2.output.pieces.toList :: Node.piecesEach nodes r.2 := by
  rw [Node.piecesEach, h]

/-- What comes of some nodes with texts among theirs, beside what comes of the nodes alone: the same but
    for the output, and `ps` is written instead of what the nodes write. The output before was `o`. -/
structure Spaced (nodes : List Node) (c : Context) (o : Output) (ps : List String)
    (r r' : Unit × Context) : Prop where
  context : r'.2 = { r.2 with output := r'.2.output }
  each : (Node.piecesEach nodes c).length = nodes.length
  alone : r.2.output.pieces.toList = c.output.pieces.toList ++ (Node.piecesEach nodes c).flatten
  spaced : r'.2.output.pieces.toList = o.pieces.toList ++ ps

namespace Spaced

variable {nodes : List Node} {c : Context} {o : Output} {ps : List String} {r r' : Unit × Context}

/-- With one more node before. -/
theorem cons {node : Node} {r₀ : Unit × Context}
    (hnode : node.render { c with output := .empty } = .ok r₀)
    (h : Spaced nodes { r₀.2 with output := c.output ++ r₀.2.output } (o ++ r₀.2.output) ps r r') :
    Spaced (node :: nodes) c o (r₀.2.output.pieces.toList ++ ps) r r' where
  context := h.context
  each := by
    have heach := h.each
    rw [Node.piecesEach_onto] at heach
    rw [Node.piecesEach_cons hnode, List.length_cons, List.length_cons, heach]
  alone := by
    have halone := h.alone
    rw [Node.piecesEach_onto] at halone
    rw [halone, Output.pieces_append, Array.toList_append, List.append_assoc,
      Node.piecesEach_cons hnode, List.flatten_cons]
  spaced := by
    rw [h.spaced, Output.pieces_append, Array.toList_append, List.append_assoc]

/-- What was written first may be counted among the texts. -/
theorem push {s : String} (h : Spaced nodes c (o.push s) ps r r') :
    Spaced nodes c o ([s].filter (· ≠ "") ++ ps) r r' where
  context := h.context
  each := h.each
  alone := h.alone
  spaced := by
    rw [h.spaced, Output.toList_pieces_push, List.append_assoc]

/-- **As many pieces more as there are places between neighbours**, if the separator is not empty. -/
theorem count {separator : String}
    (h : Spaced nodes c c.output
      (([separator].filter (· ≠ "")).intercalate (Node.piecesEach nodes c)) r r') :
    r'.2.output.count = r.2.output.count + if separator = "" then 0 else nodes.length - 1 := by
  rw [Output.count, Output.count, ← Array.length_toList, ← Array.length_toList, h.spaced, h.alone,
    List.length_append, List.length_append, length_intercalate, h.each, Nat.add_assoc]
  by_cases hseparator : separator = "" <;> simp [hseparator]

end Spaced

section

variable (separator : String) (nodes : List Node) (c : Context)

/-- Rendering a node and going on, on two outputs: what the node writes on the empty one is written on
    both. -/
theorem Node.matches_bind (node : Node) (o : Output) {f g : Context → Except Fault (Unit × Context)}
    {R : Unit × Context → Unit × Context → Prop}
    (h : ∀ r, node.render { c with output := .empty } = .ok r →
      Matches R (f { r.2 with output := c.output ++ r.2.output })
        (g { r.2 with output := o ++ r.2.output })) :
    Matches R (node.render c >>= fun r => f r.2)
      (node.render { c with output := o } >>= fun r => g r.2) := by
  have hleft := node.matches_render_onto c c.output
  have hright := node.matches_render_onto c o
  refine (hleft.and_ok.swap.trans hright).bind fun r r' hr => ?_
  obtain ⟨r₀, ⟨hr₀, hempty, -⟩, hr₀'⟩ := hr
  rw [hr₀, hr₀']
  exact h r₀ hempty

/-- **With the separator before each node**, there is the separator before what each writes. -/
theorem Node.matches_before (o : Output) :
    Matches (Spaced nodes c o
        ((Node.piecesEach nodes c).flatMap ([separator].filter (· ≠ "") ++ ·)))
      (Emit.inOrder (Node.renderings nodes) c)
      (Emit.inOrder ((Node.renderings nodes).map fun body => do
        Emit.emit separator
        body) { c with output := o }) := by
  induction nodes generalizing c o with
  | nil => exact .ok ⟨rfl, rfl, (List.append_nil _).symm, (List.append_nil _).symm⟩
  | cons node nodes ih =>
    rw [Node.renderings, List.map_cons, Emit.inOrder, Emit.inOrder]
    change Matches _ (node.render c >>= fun r => Emit.inOrder (Node.renderings nodes) r.2)
      ((do Emit.emit separator; node.render : Emit Unit) { c with output := o } >>= fun r =>
        Emit.inOrder _ r.2)
    rw [Emit.emit_bind_apply]
    refine Node.matches_bind c node (o.push separator) fun r hr => ?_
    have hrest := ih { r.2 with output := c.output ++ r.2.output } (o.push separator ++ r.2.output)
    refine hrest.mono fun r₁ r₁' h => ?_
    have hnode := (h.cons hr).push
    rwa [Node.piecesEach_onto, ← List.append_assoc, ← List.flatMap_cons, ← Node.piecesEach_cons hr]
      at hnode

/-- **Between each two neighbours there is the separator**, also where they write nothing: a list with
    a separator writes what the list alone does, with the separator in between. -/
theorem Node.matches_separated :
    Matches (Spaced nodes c c.output
        (([separator].filter (· ≠ "")).intercalate (Node.piecesEach nodes c)))
      (render (Node.list nodes) c) (renderSep nodes separator c) := by
  have hlist : (render (Node.list nodes) : Emit Unit) = Emit.inOrder (Node.renderings nodes) := rfl
  have hsep : renderSep nodes separator =
      Emit.separatedBy separator (Node.renderings nodes) := by
    rw [Node.renderings_eq_map]
    rfl
  rw [hlist, hsep]
  cases nodes with
  | nil => exact .ok ⟨rfl, rfl, (List.append_nil _).symm, (List.append_nil _).symm⟩
  | cons node nodes =>
    rw [Node.renderings, Emit.separatedBy, Emit.inOrder]
    change Matches _ (node.render c >>= fun r => Emit.inOrder (Node.renderings nodes) r.2)
      (node.render c >>= fun r => Emit.inOrder _ r.2)
    refine Node.matches_bind c node c.output fun r hr => ?_
    have hrest := Node.matches_before separator nodes { r.2 with output := c.output ++ r.2.output }
      (c.output ++ r.2.output)
    refine hrest.mono fun r₁ r₁' h => ?_
    have hnode := h.cons hr
    rwa [Node.piecesEach_onto, ← intercalate_cons_eq_flatMap, ← Node.piecesEach_cons hr] at hnode

end

/-! ## 6. Nodes as steps -/

/-- **A node is its steps.** Rendering it and running its steps, in any state, fail for the same reason
    or end in the same state: with the same output in the same pieces, the same names and numbers, the
    same depth and the same reports. So a run of the one has the text of a run of the other. Boxes,
    references and options that are there are not seen, at any depth; a separator without text is none.
    The steps of a list with a separator are those of its nodes with one step between each two
    neighbours. It leaves what the list alone leaves, but for the output: there the separator stands
    between what each two neighbours write, also where that is nothing, as a piece of its own unless it
    is empty. -/
theorem Node.render_steps (node : Node) (nodes : List Node) (separator : String) (c : Context)
    (book : Notebook) :
    Matches (Rendered book) (node.render c) (Step.execAll node.steps book c) ∧
    (∀ config, Matches (fun (o : Outcome Unit) (o' : Outcome Notebook) =>
        o'.text = o.text ∧ o'.names = o.names ∧ o'.log = o.log)
      (Emit.run config node.render) (Program.run config node.steps)) ∧
    (∀ config, renderToString config node = (Program.run config node.steps).map Outcome.text) ∧
    node.unwrapped.render = node.render ∧
    renderSep nodes "" = (Node.list nodes).render ∧
    (Node.sep separator nodes).steps =
      [.act (.emit .lent separator)].intercalate (nodes.map Node.steps) ∧
    (Node.sep separator nodes).steps.length =
      (Node.list nodes).steps.length + (nodes.length - 1) ∧
    Matches (fun r r' => Spaced nodes c c.output
          (([separator].filter (· ≠ "")).intercalate (Node.piecesEach nodes c)) r r' ∧
        r'.2.output.count = r.2.output.count + if separator = "" then 0 else nodes.length - 1)
      ((Node.list nodes).render c) (renderSep nodes separator c) := by
  refine ⟨node.matches_steps book c, node.matches_run, fun config => ?_, node.render_unwrapped, ?_,
    ?_, ?_, ?_⟩
  · have hrun := node.matches_run config
    have htext : renderToString config node = (Emit.run config node.render).map Outcome.text := by
      change (do let o ← Emit.run config node.render; return o.text) = _
      cases Emit.run config node.render <;> rfl
    rw [htext]
    exact hrun.map_eq fun o o' ho => ho.1.symm
  · rw [renderSep, Emit.separatedBy_empty, Node.render, Node.renderings_eq_map]
    rfl
  · rw [Node.steps, Node.stepsEach_eq_map]
  · rw [Node.steps, Node.steps, length_intercalate, Node.stepsEach_eq_map, List.length_map,
      List.length_singleton, Nat.mul_one]
  · exact (Node.matches_separated separator nodes c).mono fun r r' h => ⟨h, h.count⟩

/-- Separators stand around a node that writes nothing, and an empty one is no piece. -/
example :
    let node := fun separator : String => Node.within .line (.boxed (.sep separator
      [.var (.internal "x"), .absent, .list [.present (.text "1"), .ref (.var (.internal "x"))]]))
    let text := fun separator => (renderToString .compact (node separator)).toOption
    let pieces := fun separator => (Program.run .compact (node separator).steps).toOption.map
      fun o => (o.text, o.result.trace.toList.map Entry.pieces)
    text "," = some "_0,,1_0" ∧ text "" = some "_01_0" ∧
      pieces "," = some ("_0,,1_0", [0, 1, 2, 3, 4, 5, 5]) ∧
      pieces "" = some ("_01_0", [0, 1, 1, 1, 2, 3, 3]) := by
  decide +kernel

end Emission
