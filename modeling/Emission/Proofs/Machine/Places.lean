import Emission.Proofs.Machine.Moments

/-!
# The places of a program

Each move of a program stands in the bodies of some scopes, and these alone tell the depth at which it
is made.

* `Config.depthIn` is the depth in the body of some scopes, the outermost first: `level n` goes to
  depth `n`, `further` one step further in, and no other scope goes anywhere.
* `Program.placed` are the moves of a program with the scopes around each of them. Without these they
  are its moves (`Program.map_move_placed`).
* Whenever a run comes to a move, the configuration is the one inside the scopes around that move, and
  what was put aside before lies untouched; at the end all is as it was found (`Keeps`). There is a
  rule for each way of putting moves together, and from them one theorem for nodes (`keeps_node`) and
  one for steps (`keeps_step`).
-/

namespace Emission

/-! ## 1. Depths -/

/-- The depth in the body of a scope that stands at a depth. -/
def Scope.inner (step : Nat) : Scope → Nat → Nat
  | indent, depth | line, depth => depth
  | further, depth => min maxDepth (depth + step)
  | level n, _ => n

namespace Config

/-- The depth in the bodies of some scopes, the outermost first. -/
def depthIn (c : Config) (around : List Scope) : Nat :=
  around.foldl (fun depth scope => scope.inner c.indentStep depth) c.indentLevel

/-- The configuration in the bodies of some scopes. -/
def inside (c : Config) (around : List Scope) : Config :=
  { c with indentLevel := c.depthIn around }

/-- The depth one scope further in. -/
theorem depthIn_concat (c : Config) (around : List Scope) (scope : Scope) :
    c.depthIn (around ++ [scope]) = scope.inner c.indentStep (c.depthIn around) :=
  List.foldl_append

/-- **Some steps inwards add up**, until the greatest depth is reached. -/
theorem depthIn_append_replicate {c : Config} {around : List Scope}
    (h : c.depthIn around ≤ maxDepth) (k : Nat) :
    c.depthIn (around ++ List.replicate k .further) =
      min maxDepth (c.depthIn around + k * c.indentStep) := by
  induction k with
  | zero => simp [h]
  | succ k ih =>
    rw [List.replicate_succ', ← List.append_assoc, depthIn_concat, ih, Scope.inner, Nat.succ_mul]
    omega

end Config

/-! ## 2. Placed moves -/

/-- A move, and the scopes it stands in, the outermost first. -/
structure Placed where
  around : List Scope
  move : Move
  deriving DecidableEq, Repr

/-- Placed moves with a text written between neighbours. -/
def Placed.separated (around : List Scope) (separator : String) : List (List Placed) → List Placed
  | [] => []
  | ps :: rest => ps ++ rest.flatMap fun ps => ⟨around, .write separator⟩ :: ps

/-- The moves of a scope, its body in the middle. -/
def Scope.placed (around : List Scope) (scope : Scope) (body : List Placed) : List Placed :=
  scope.before.map (Placed.mk around) ++ body ++ scope.after.map (Placed.mk (around ++ [scope]))

mutual

/-- The moves that write a node, which stands in some scopes. -/
def Node.placed (around : List Scope) : Node → List Placed
  | .text s | .literal s => [⟨around, .write s⟩]
  | .var v => [⟨around, .label v⟩]
  | .list nodes => (Node.placedEach around nodes).flatten
  | .absent => []
  | .present node | .boxed node | .ref node => node.placed around
  | .within scope node => scope.placed around (node.placed (around ++ [scope]))
  | .sep separator nodes => Placed.separated around separator (Node.placedEach around nodes)

/-- The moves of each of some nodes. -/
def Node.placedEach (around : List Scope) : List Node → List (List Placed)
  | [] => []
  | node :: nodes => node.placed around :: Node.placedEach around nodes

end

/-- The moves of an act. -/
def Act.placed (around : List Scope) : Act → List Placed
  | render node => node.placed around ++ [⟨around, .note (.done .render) .nothing⟩]
  | sep items separator =>
    Placed.separated around separator (Node.placedEach around items) ++
      [⟨around, .note (.done .sep) .nothing⟩]
  | a => a.moves.map (Placed.mk around)

mutual

/-- The moves of a step, where headers are written or are not. -/
def Step.placed (header : Bool) (around : List Scope) : Step → List Placed
  | .act a => a.placed around
  | .within scope body =>
    scope.placed around
        (⟨around ++ [scope], .note (.entered scope.deed) .nothing⟩ ::
          Step.placedAll header (around ++ [scope]) body) ++
      [⟨around, .note (.done scope.deed) .body⟩]
  | .header body =>
    if header then
      ⟨around, .note (.entered .header) .nothing⟩ :: Step.placedAll header around body ++
        [⟨around, .note (.done .header) .header⟩]
    else [⟨around, .note (.done .header) .skipped⟩]
  | .capture key body =>
    ⟨around, .setAside⟩ ::
      (⟨around, .note (.entered .capture) .nothing⟩ :: Step.placedAll header around body) ++
        [⟨around, .keep key⟩]

/-- The moves of some steps. -/
def Step.placedAll (header : Bool) (around : List Scope) : List Step → List Placed
  | [] => []
  | step :: steps => step.placed header around ++ Step.placedAll header around steps

end

/-- The moves of a program with the scopes around them, run from a configuration. -/
def Program.placed (config : Config) (p : Program) : List Placed :=
  Step.placedAll config.header [] p

/-! ## 3. Placed moves without their places -/

theorem Placed.map_move_map_mk (around : List Scope) (mvs : List Move) :
    (mvs.map (Placed.mk around)).map Placed.move = mvs := by
  rw [List.map_map]
  exact List.map_id mvs

theorem Placed.map_move_separated (around : List Scope) (separator : String)
    (pss : List (List Placed)) :
    (Placed.separated around separator pss).map Placed.move =
      Move.separated separator (pss.map (List.map Placed.move)) := by
  cases pss with
  | nil => rfl
  | cons ps rest =>
    rw [List.map_cons, Placed.separated, Move.separated, List.map_append, List.map_flatMap,
      List.flatMap_map]
    rfl

theorem Scope.map_move_placed (around : List Scope) (scope : Scope) (body : List Placed) :
    (scope.placed around body).map Placed.move =
      scope.before ++ body.map Placed.move ++ scope.after := by
  rw [Scope.placed, List.map_append, List.map_append, Placed.map_move_map_mk,
    Placed.map_move_map_mk]

mutual

theorem Node.map_move_placed (around : List Scope) : ∀ node : Node,
    (node.placed around).map Placed.move = node.moves
  | .text _ | .literal _ | .var _ | .absent => rfl
  | .list nodes => by
    rw [Node.placed, Node.moves, List.map_flatten, Node.map_move_placedEach around nodes]
  | .present node | .boxed node | .ref node => Node.map_move_placed around node
  | .within scope node => by
    rw [Node.placed, Node.moves, Scope.map_move_placed, Node.map_move_placed _ node]
  | .sep separator nodes => by
    rw [Node.placed, Node.moves, Placed.map_move_separated, Node.map_move_placedEach around nodes]

theorem Node.map_move_placedEach (around : List Scope) : ∀ nodes : List Node,
    (Node.placedEach around nodes).map (List.map Placed.move) = Node.movesEach nodes
  | [] => rfl
  | node :: nodes => by
    rw [Node.placedEach, Node.movesEach, List.map_cons, Node.map_move_placed around node,
      Node.map_move_placedEach around nodes]

end

theorem Act.map_move_placed (around : List Scope) (a : Act) :
    (a.placed around).map Placed.move = a.moves := by
  cases a with
  | render node =>
    rw [Act.placed, Act.moves, List.map_append, Node.map_move_placed]
    rfl
  | sep items separator =>
    rw [Act.placed, Act.moves, List.map_append, Placed.map_move_separated,
      Node.map_move_placedEach]
    rfl
  | emit | newline | var | name | get | width | config | output | splice =>
    exact Placed.map_move_map_mk around _

mutual

theorem Step.map_move_placed (header : Bool) (around : List Scope) : ∀ s : Step,
    (s.placed header around).map Placed.move = s.moves header
  | .act a => Act.map_move_placed around a
  | .within scope body => by
    rw [Step.placed, Step.moves, List.map_append, Scope.map_move_placed, List.map_cons,
      Step.map_move_placedAll header _ body]
    rfl
  | .header body => by
    rw [Step.placed, Step.moves]
    split
    · rw [List.map_append, List.map_cons, Step.map_move_placedAll header around body]
      rfl
    · rfl
  | .capture key body => by
    rw [Step.placed, Step.moves, List.map_append, List.map_cons, List.map_cons,
      Step.map_move_placedAll header around body]
    rfl

theorem Step.map_move_placedAll (header : Bool) (around : List Scope) : ∀ steps : List Step,
    (Step.placedAll header around steps).map Placed.move = Step.movesAll header steps
  | [] => rfl
  | step :: steps => by
    rw [Step.placedAll, Step.movesAll, List.map_append, Step.map_move_placed header around step,
      Step.map_move_placedAll header around steps]

end

/-- **The placed moves of a program, without their places, are its moves.** -/
theorem Program.map_move_placed (config : Config) (p : Program) :
    (p.placed config).map Placed.move = p.moves config :=
  Step.map_move_placedAll config.header [] p

/-! ## 4. Coming to a place -/

namespace Machine

/-- The run of the placed moves, begun in the state `m`, comes to the move `p` in the state `n`. -/
def Reaches (ps : List Placed) (m : Machine) (p : Placed) (n : Machine) : Prop :=
  ∃ before after, ps = before ++ p :: after ∧ run (before.map Placed.move) m = .ok n

theorem not_reaches_nil {m n : Machine} {p : Placed} : ¬ Reaches [] m p n := by
  rintro ⟨before, after, h, -⟩
  exact absurd h.symm (List.append_ne_nil_of_right_ne_nil before (List.cons_ne_nil p after))

theorem reaches_cons {q : Placed} {ps : List Placed} {m n : Machine} {p : Placed}
    (h : Reaches (q :: ps) m p n) :
    (p = q ∧ n = m) ∨ ∃ m₁, q.move.exec m = .ok m₁ ∧ Reaches ps m₁ p n := by
  obtain ⟨before, after, hps, hrun⟩ := h
  cases before with
  | nil =>
    cases hps
    cases hrun
    exact .inl ⟨rfl, rfl⟩
  | cons q' before =>
    cases hps
    obtain ⟨m₁, hexec, hrest⟩ := exists_exec_of_cons hrun
    exact .inr ⟨m₁, hexec, before, after, rfl, hrest⟩

theorem reaches_head (p : Placed) (ps : List Placed) (m : Machine) : Reaches (p :: ps) m p m :=
  ⟨[], ps, rfl, rfl⟩

/-- What a run comes to after its first move, it comes to. -/
theorem Reaches.cons {q : Placed} {ps : List Placed} {m m₁ n : Machine} {p : Placed}
    (h : Reaches ps m₁ p n) (hexec : q.move.exec m = .ok m₁) : Reaches (q :: ps) m p n := by
  obtain ⟨before, after, rfl, hrun⟩ := h
  refine ⟨q :: before, after, rfl, ?_⟩
  rw [List.map_cons, run_cons, hexec]
  exact hrun

/-- **A run comes to a place in its first part, or in its second after all of the first.** -/
theorem reaches_append {ps qs : List Placed} {m n : Machine} {p : Placed}
    (h : Reaches (ps ++ qs) m p n) :
    Reaches ps m p n ∨ ∃ m₁, run (ps.map Placed.move) m = .ok m₁ ∧ Reaches qs m₁ p n := by
  induction ps generalizing m with
  | nil => exact .inr ⟨m, rfl, h⟩
  | cons q ps ih =>
    cases reaches_cons h with
    | inl hfirst =>
      obtain ⟨rfl, rfl⟩ := hfirst
      exact .inl (reaches_head p ps n)
    | inr hrest =>
      obtain ⟨m₁, hexec, hreach⟩ := hrest
      cases ih hreach with
      | inl hps => exact .inl (hps.cons hexec)
      | inr hqs =>
        obtain ⟨m₂, hps, hreach'⟩ := hqs
        refine .inr ⟨m₂, ?_, hreach'⟩
        rw [List.map_cons, run_cons, hexec]
        exact hps

/-- A run that begins with one move and ends with another. -/
theorem exists_run_of_bracket {p q : Placed} {ps : List Placed} {m n : Machine}
    (h : run ((p :: ps ++ [q]).map Placed.move) m = .ok n) :
    ∃ m₁ m₂, p.move.exec m = .ok m₁ ∧ run (ps.map Placed.move) m₁ = .ok m₂ ∧
      q.move.exec m₂ = .ok n := by
  rw [List.map_append, List.map_cons] at h
  obtain ⟨m₁, hfirst, hrest⟩ := exists_exec_of_cons h
  obtain ⟨m₂, hbody, hlast⟩ := exists_run_of_append hrest
  obtain ⟨m₃, hlast, hnil⟩ := exists_exec_of_cons hlast
  cases hnil
  exact ⟨m₁, m₂, hfirst, hbody, hlast⟩

/-- The places in it: its first move, those between, and its last. -/
theorem reaches_bracket {p q : Placed} {ps : List Placed} {m n : Machine} {r : Placed}
    (h : Reaches (p :: ps ++ [q]) m r n) :
    (r = p ∧ n = m) ∨ ∃ m₁, p.move.exec m = .ok m₁ ∧
      (Reaches ps m₁ r n ∨ (r = q ∧ run (ps.map Placed.move) m₁ = .ok n)) := by
  cases reaches_cons h with
  | inl hfirst => exact .inl hfirst
  | inr hrest =>
    obtain ⟨m₁, hexec, hreach⟩ := hrest
    refine .inr ⟨m₁, hexec, ?_⟩
    cases reaches_append hreach with
    | inl hbody => exact .inl hbody
    | inr hlast =>
      obtain ⟨m₂, hrun, hlast⟩ := hlast
      cases reaches_cons hlast with
      | inl heq =>
        obtain ⟨rfl, rfl⟩ := heq
        exact .inr ⟨rfl, hrun⟩
      | inr hnone =>
        obtain ⟨m₃, -, hnone⟩ := hnone
        exact absurd hnone not_reaches_nil

/-- The run is back where it was: the configuration is as it was, and so are the stacks. -/
structure Back (m n : Machine) : Prop where
  config : n.context.config = m.context.config
  depths : n.depths = m.depths
  outers : n.outers = m.outers

theorem Back.refl (m : Machine) : Back m m := ⟨rfl, rfl, rfl⟩

theorem Back.trans {l m n : Machine} (h : Back l m) (h' : Back m n) : Back l n :=
  ⟨h'.config.trans h.config, h'.depths.trans h.depths, h'.outers.trans h.outers⟩

end Machine

open Machine (Reaches Back)

/-! ## 5. What is kept on the way -/

/-- The moves stand in some scopes, and keep to themselves. -/
structure Keeps (around : List Scope) (ps : List Placed) : Prop where
  /-- Coming to a place, the configuration is the one inside the scopes around it, and what was put
      aside before the moves began lies beneath all that was put aside since. -/
  during : ∀ {c : Config} {m n : Machine} {p : Placed}, m.context.config = c.inside around →
    Reaches ps m p n → n.context.config = c.inside p.around ∧ m.outers <:+ n.outers
  /-- At the end, all is as it was found. -/
  done : ∀ {m n : Machine}, Machine.run (ps.map Placed.move) m = .ok n → Back m n

/-- **What was put aside before is never taken up**, at any moment of the moves. -/
theorem Keeps.suffix_outers {around : List Scope} {ps : List Placed} (hps : Keeps around ps)
    {c : Config} {m n : Machine} (hm : m.context.config = c.inside around) {before after : List Move}
    (hmoves : ps.map Placed.move = before ++ after) (h : Machine.run before m = .ok n) :
    m.outers <:+ n.outers := by
  obtain ⟨ps₁, ps₂, rfl, rfl, -⟩ := List.map_eq_append_iff.mp hmoves
  cases ps₂ with
  | nil =>
    rw [List.append_nil] at hps
    exact (hps.done h).outers ▸ List.suffix_refl _
  | cons p ps₂ => exact (hps.during hm ⟨ps₁, ps₂, rfl, h⟩).2

/-- Whether the move neither changes the depth nor puts anything aside. -/
def Move.stays : Move → Bool
  | write _ | newline | indentation | label _ | name _ | splice _ | note _ _ => true
  | further | level _ | leave | setAside | keep _ => false

theorem Move.back_of_stays {mv : Move} (hmv : mv.stays = true) {m n : Machine}
    (h : mv.exec m = .ok n) : Back m n := by
  cases mv with
  | newline =>
    cases h
    split <;> exact ⟨rfl, rfl, rfl⟩
  | indentation =>
    obtain ⟨s, -, rfl⟩ := Move.exists_of_indentation_exec h
    exact ⟨rfl, rfl, rfl⟩
  | label v =>
    rw [Move.eq_of_label_exec h]
    exact ⟨rfl, rfl, rfl⟩
  | name v =>
    rw [Move.eq_of_name_exec h]
    exact ⟨rfl, rfl, rfl⟩
  | write | splice | note =>
    cases h
    exact ⟨rfl, rfl, rfl⟩
  | further | level | leave | setAside | keep => cases hmv

section

variable {around inner : List Scope} {ps qs : List Placed}

theorem keeps_nil : Keeps around [] where
  during _ h := absurd h Machine.not_reaches_nil
  done := by
    intro m n h
    cases h
    exact .refl m

theorem keeps_move (mv : Move) (hmv : mv.stays = true) : Keeps around [⟨around, mv⟩] where
  during := by
    intro c m n p hm h
    cases Machine.reaches_cons h with
    | inl hfirst =>
      obtain ⟨rfl, rfl⟩ := hfirst
      exact ⟨hm, List.suffix_refl _⟩
    | inr hrest =>
      obtain ⟨m₁, -, hnone⟩ := hrest
      exact absurd hnone Machine.not_reaches_nil
  done := by
    intro m n h
    obtain ⟨m₁, hexec, hnil⟩ := Machine.exists_exec_of_cons h
    cases hnil
    exact Move.back_of_stays hmv hexec

/-- **One after the other.** -/
theorem Keeps.append (hp : Keeps around ps) (hq : Keeps around qs) : Keeps around (ps ++ qs) where
  during := by
    intro c m n p hm h
    cases Machine.reaches_append h with
    | inl hps => exact hp.during hm hps
    | inr hqs =>
      obtain ⟨m₁, hrun, hreach⟩ := hqs
      have hback := hp.done hrun
      rw [← hback.outers]
      exact hq.during (hback.config.trans hm) hreach
  done := by
    intro m n h
    rw [List.map_append] at h
    obtain ⟨m₁, hfirst, hrest⟩ := Machine.exists_run_of_append h
    exact (hp.done hfirst).trans (hq.done hrest)

/-- **A body between two moves**: the first goes into it, and the last comes back from wherever the
    first has gone to. -/
theorem Keeps.bracket {mv mv' : Move} (hps : Keeps inner ps)
    (hin : ∀ {c : Config} {m m₁ : Machine}, mv.exec m = .ok m₁ →
      m.context.config = c.inside around →
        m₁.context.config = c.inside inner ∧ m.outers <:+ m₁.outers)
    (hout : ∀ {m m₁ m₂ n : Machine}, mv.exec m = .ok m₁ → Back m₁ m₂ → mv'.exec m₂ = .ok n →
      Back m n) :
    Keeps around (⟨around, mv⟩ :: ps ++ [⟨inner, mv'⟩]) where
  during := by
    intro c m n p hm h
    cases Machine.reaches_bracket h with
    | inl hfirst =>
      obtain ⟨rfl, rfl⟩ := hfirst
      exact ⟨hm, List.suffix_refl _⟩
    | inr hrest =>
      obtain ⟨m₁, hexec, hrest⟩ := hrest
      obtain ⟨hconfig, houters⟩ := hin hexec hm
      cases hrest with
      | inl hbody =>
        obtain ⟨hconfig', houters'⟩ := hps.during hconfig hbody
        exact ⟨hconfig', houters.trans houters'⟩
      | inr hlast =>
        obtain ⟨rfl, hrun⟩ := hlast
        have hback := hps.done hrun
        exact ⟨hback.config.trans hconfig, hback.outers ▸ houters⟩
  done := by
    intro m n h
    obtain ⟨m₁, m₂, hfirst, hbody, hlast⟩ := Machine.exists_run_of_bracket h
    exact hout hfirst (hps.done hbody) hlast

/-- **Into the body of a scope at another depth, and back.** -/
theorem keeps_entered {scope : Scope} {mv : Move}
    (hmv : ∀ m : Machine, mv.exec m =
      .ok (m.enter (scope.inner m.context.config.indentStep m.context.config.indentLevel)))
    (hps : Keeps (around ++ [scope]) ps) :
    Keeps around (⟨around, mv⟩ :: ps ++ [⟨around ++ [scope], .leave⟩]) := by
  refine hps.bracket ?_ ?_
  · intro c m m₁ hexec hm
    cases (hmv m).symm.trans hexec
    refine ⟨?_, List.suffix_refl _⟩
    rw [Config.inside, Config.depthIn_concat]
    change { m.context.config with
      indentLevel := scope.inner m.context.config.indentStep m.context.config.indentLevel } = _
    rw [hm]
    rfl
  · intro m m₁ m₂ n hexec hback hleave
    cases (hmv m).symm.trans hexec
    -- the body has left the stack as it was, so the depth found at the beginning lies on top
    have hdepths : m₂.depths = m.context.config.indentLevel :: m.depths := hback.depths
    change Except.ok m₂.leave = _ at hleave
    rw [Machine.leave, hdepths] at hleave
    cases hleave
    refine ⟨?_, rfl, hback.outers⟩
    change { m₂.context.config with indentLevel := m.context.config.indentLevel } = _
    rw [hback.config]
    rfl

/-- **A body that is captured**: the output found lies beneath the body, and is put back. -/
theorem keeps_captured (key : String) (hps : Keeps around ps) :
    Keeps around (⟨around, .setAside⟩ :: ps ++ [⟨around, .keep key⟩]) := by
  refine hps.bracket ?_ ?_
  · intro c m m₁ hexec hm
    cases hexec
    exact ⟨hm, List.suffix_cons _ _⟩
  · intro m m₁ m₂ n hexec hback hkeep
    cases hexec
    have houters : m₂.outers = m.context.output :: m.outers := hback.outers
    change Except.ok ((m₂.keep key).note _ _) = _ at hkeep
    rw [Machine.keep, houters] at hkeep
    cases hkeep
    exact ⟨hback.config, hback.depths, rfl⟩

/-- In the body of a scope that goes nowhere, the depth is as outside. -/
theorem Keeps.outside {scope : Scope} (hscope : ∀ step depth, scope.inner step depth = depth)
    (hps : Keeps (around ++ [scope]) ps) : Keeps around ps where
  during := by
    intro c m n p hm h
    refine hps.during ?_ h
    rw [hm, Config.inside, Config.inside, Config.depthIn_concat, hscope]
  done := hps.done

/-! ## 6. Nodes and steps -/

/-- **A scope keeps to itself if its body does.** -/
theorem keeps_scope (scope : Scope) (hps : Keeps (around ++ [scope]) ps) :
    Keeps around (scope.placed around ps) := by
  cases scope with
  | indent =>
    have hbody : Keeps around ps := hps.outside fun _ _ => rfl
    exact ((keeps_move .indentation rfl).append hbody).append keeps_nil
  | line =>
    have hbody : Keeps around ps := hps.outside fun _ _ => rfl
    have hend : Keeps around [⟨around ++ [.line], .newline⟩] :=
      (keeps_move _ rfl).outside fun _ _ => rfl
    exact ((keeps_move .indentation rfl).append hbody).append hend
  | further => exact keeps_entered (fun _ => rfl) hps
  | level n => exact keeps_entered (fun _ => rfl) hps

end

mutual

/-- **A node keeps to itself.** -/
theorem keeps_node (around : List Scope) : ∀ node : Node, Keeps around (node.placed around)
  | .text _ | .literal _ | .var _ => keeps_move _ rfl
  | .list nodes => keeps_nodes around nodes
  | .absent => keeps_nil
  | .present node | .boxed node | .ref node => keeps_node around node
  | .within scope node => keeps_scope scope (keeps_node _ node)
  | .sep _ [] => keeps_nil
  | .sep separator (node :: nodes) =>
    (keeps_node around node).append (keeps_separated around separator nodes)

theorem keeps_nodes (around : List Scope) : ∀ nodes : List Node,
    Keeps around (Node.placedEach around nodes).flatten
  | [] => keeps_nil
  | node :: nodes => (keeps_node around node).append (keeps_nodes around nodes)

/-- With a separator before each node. -/
theorem keeps_separated (around : List Scope) (separator : String) : ∀ nodes : List Node,
    Keeps around
      ((Node.placedEach around nodes).flatMap fun ps => ⟨around, .write separator⟩ :: ps)
  | [] => keeps_nil
  | node :: nodes =>
    ((keeps_move (.write separator) rfl).append (keeps_node around node)).append
      (keeps_separated around separator nodes)

end

theorem keeps_act (around : List Scope) (a : Act) : Keeps around (a.placed around) := by
  have hnote : ∀ moment remark, Keeps around [⟨around, .note moment remark⟩] :=
    fun _ _ => keeps_move _ rfl
  cases a with
  | emit how s => exact (keeps_move (.write s) rfl).append (hnote _ _)
  | newline => exact (keeps_move .newline rfl).append (hnote _ _)
  | var v => exact (keeps_move (.label v) rfl).append (hnote _ _)
  | name v => exact keeps_move _ rfl
  | get | width | config | output => exact hnote _ _
  | splice key => exact (keeps_move (.splice key) rfl).append (hnote _ _)
  | render node => exact (keeps_node around node).append (hnote _ _)
  | sep items separator =>
    exact (keeps_node around (.sep separator items)).append (hnote _ _)

mutual

/-- **A step keeps to itself.** -/
theorem keeps_step (header : Bool) (around : List Scope) : ∀ s : Step,
    Keeps around (s.placed header around)
  | .act a => keeps_act around a
  | .within scope body => by
    have hbody := (keeps_move (.note (.entered scope.deed) .nothing) rfl).append
      (keeps_steps header (around ++ [scope]) body)
    exact (keeps_scope scope hbody).append (keeps_move _ rfl)
  | .header body => by
    rw [Step.placed]
    split
    · have hbody := (keeps_move (.note (.entered .header) .nothing) rfl).append
        (keeps_steps header around body)
      exact hbody.append (keeps_move _ rfl)
    · exact keeps_move _ rfl
  | .capture key body => by
    have hbody := (keeps_move (.note (.entered .capture) .nothing) rfl).append
      (keeps_steps header around body)
    exact keeps_captured key hbody

theorem keeps_steps (header : Bool) (around : List Scope) : ∀ steps : List Step,
    Keeps around (Step.placedAll header around steps)
  | [] => keeps_nil
  | step :: steps => (keeps_step header around step).append (keeps_steps header around steps)

end

end Emission
