import Emission.Proofs.Machine
import Emission.Proofs.Spelling

/-!
# The lookups of a run

A lookup is a label that is computed: when a variable is written, when its label is asked for, when
it is come across in a node. A run has its lookups in an order, up to the fault if there is one, which
can be a label that there is no number for (`Machine.lookups`, `Program.lookups`).

* Each lookup is the label that its move computes in the state the moves before it lead to
  (`mem_lookups`), and the variable is one of the program (`Program.var_mem_of_lookups`).
* A move changes the names only by such a lookup (`Move.names_exec`), so names are never lost
  (`Move.extends_exec`).
* What a program looks up can be read off the program (`Program.lookedUp`). What a capture looks up
  stands where the capture stands, wherever its text is written later, and a header that is not
  written looks nothing up.
-/

namespace Emission

/-- A label that was computed, and the variable it is the label of. -/
structure Lookup where
  var : Var
  label : String
  deriving DecidableEq, Repr

/-! ## 1. Lookups -/

namespace Machine

/-- What the moves look up, in their order, up to a fault. -/
def lookups : List Move → Machine → List Lookup
  | [], _ => []
  | mv :: mvs, m =>
    match mv.exec m with
    | .ok m' => (mv.var?.map fun v => ⟨v, m.context.labelOf v⟩).toList ++ lookups mvs m'
    | .error _ => []

theorem lookups_cons_of_ok {mv : Move} {m m' : Machine} (h : mv.exec m = .ok m')
    (mvs : List Move) :
    lookups (mv :: mvs) m =
      (mv.var?.map fun v => ⟨v, m.context.labelOf v⟩).toList ++ lookups mvs m' := by
  rw [lookups, h]

theorem lookups_cons_of_error {mv : Move} {m : Machine} {e : Fault} (h : mv.exec m = .error e)
    (mvs : List Move) : lookups (mv :: mvs) m = [] := by
  rw [lookups, h]

/-- A lookup of one move. -/
theorem mem_lookup_iff {mv : Move} {m : Machine} {a : Lookup} :
    a ∈ (mv.var?.map fun v => (⟨v, m.context.labelOf v⟩ : Lookup)).toList ↔
      mv.var? = some a.var ∧ a.label = m.context.labelOf a.var := by
  rw [Option.mem_toList, Option.map_eq_some_iff]
  constructor
  · rintro ⟨v, hv, rfl⟩
    exact ⟨hv, rfl⟩
  · rintro ⟨hv, hlabel⟩
    refine ⟨a.var, hv, ?_⟩
    rw [← hlabel]

/-- **A lookup is the label that a move computes in the state the moves before it lead to.** -/
theorem mem_lookups {mvs : List Move} {m : Machine} {a : Lookup} :
    a ∈ lookups mvs m ↔
      ∃ before mv after m' n, mvs = before ++ mv :: after ∧ run before m = .ok m' ∧
        mv.exec m' = .ok n ∧ mv.var? = some a.var ∧ a.label = m'.context.labelOf a.var := by
  induction mvs generalizing m with
  | nil =>
    constructor
    · intro h
      cases h
    · rintro ⟨before, mv, after, m', n, h, -⟩
      exact absurd h.symm (List.append_ne_nil_of_right_ne_nil before (List.cons_ne_nil mv after))
  | cons mv mvs ih =>
    constructor
    · intro h
      cases hmv : mv.exec m with
      | error e =>
        rw [lookups_cons_of_error hmv] at h
        cases h
      | ok m₁ =>
        rw [lookups_cons_of_ok hmv, List.mem_append, mem_lookup_iff] at h
        cases h with
        | inl h => exact ⟨[], mv, mvs, m, m₁, rfl, rfl, hmv, h⟩
        | inr h =>
          obtain ⟨before, mv', after, m', n, hmvs, hrun, hlook⟩ := ih.mp h
          refine ⟨mv :: before, mv', after, m', n, ?_, ?_, hlook⟩
          · rw [hmvs]
            rfl
          · rw [run_cons, hmv]
            exact hrun
    · rintro ⟨before, mv', after, m', n, hmvs, hrun, hexec, hlook⟩
      cases before with
      | nil =>
        cases hmvs
        cases hrun
        rw [lookups_cons_of_ok hexec]
        exact List.mem_append_left _ (mem_lookup_iff.mpr hlook)
      | cons mv₀ before =>
        cases hmvs
        obtain ⟨m₁, hmv, hrest⟩ := bind_eq_ok_iff.mp hrun
        rw [lookups_cons_of_ok hmv]
        exact List.mem_append_right _ (ih.mpr ⟨before, mv', after, m', n, rfl, hrest, hexec, hlook⟩)

end Machine

/-- What a program looks up, run from a configuration. -/
def Program.lookups (config : Config) (p : Program) : List Lookup :=
  Machine.lookups (p.moves config) (.start config)

/-! ## 2. Names grow by lookups -/

/-- **A move records the variable that it looks up, and changes the names by nothing else.** -/
theorem Move.names_exec {mv : Move} {m m' : Machine} (h : mv.exec m = .ok m') :
    m'.context.names =
      match mv.var? with
      | some v => m.context.config.naming.record v m.context.names
      | none => m.context.names := by
  obtain ⟨depth, output, hcontext⟩ := Move.exists_context_exec h
  rw [hcontext]
  cases mv.var? with
  | none => rfl
  | some v => rfl

theorem Move.extends_exec {mv : Move} {m m' : Machine} (h : mv.exec m = .ok m') :
    m'.context.names.Extends m.context.names := by
  rw [Move.names_exec h]
  cases mv.var? with
  | none => exact NameTable.Extends.refl m.context.names
  | some v => exact Naming.extends_record m.context.config.naming v m.context.names

/-! ## 3. The variables of a program -/

mutual

/-- The variables of a node, from left to right. -/
def Node.vars : Node → List Var
  | .text _ | .literal _ => []
  | .var v => [v]
  | .list nodes => Node.varsAll nodes
  | .absent => []
  | .present node | .boxed node | .ref node => node.vars
  | .within _ node => node.vars
  | .sep _ nodes => Node.varsAll nodes

/-- The variables of some nodes. -/
def Node.varsAll : List Node → List Var
  | [] => []
  | node :: nodes => node.vars ++ Node.varsAll nodes

end

/-- The variables of an act. -/
def Act.vars : Act → List Var
  | var v | name v | get v => [v]
  | render node => node.vars
  | sep items _ => Node.varsAll items
  | emit _ _ | newline | width | config | output | splice _ => []

mutual

/-- The variables of a step, whether it will be run or not. -/
def Step.vars : Step → List Var
  | .act a => a.vars
  | .within _ body | .header body | .capture _ body => Step.varsAll body

/-- The variables of some steps. -/
def Step.varsAll : List Step → List Var
  | [] => []
  | step :: steps => step.vars ++ Step.varsAll steps

end

/-- The variables of a program. -/
def Program.vars (p : Program) : List Var :=
  Step.varsAll p

/-! ## 4. What a program looks up -/

/-- The variables whose labels an act computes, in the order in which it does. -/
def Act.lookedUp : Act → List Var
  | var v | name v => [v]
  | render node => node.vars
  | sep items _ => Node.varsAll items
  | emit _ _ | newline | get _ | width | config | output | splice _ => []

mutual

/-- The variables whose labels a step computes, where headers are written or are not. -/
def Step.lookedUp (header : Bool) : Step → List Var
  | .act a => a.lookedUp
  | .within _ body | .capture _ body => Step.lookedUpAll header body
  | .header body => if header then Step.lookedUpAll header body else []

/-- The variables whose labels some steps compute. -/
def Step.lookedUpAll (header : Bool) : List Step → List Var
  | [] => []
  | step :: steps => step.lookedUp header ++ Step.lookedUpAll header steps

end

/-- The variables that a program looks up, run from a configuration. -/
def Program.lookedUp (config : Config) (p : Program) : List Var :=
  Step.lookedUpAll config.header p

/-- Separators look nothing up. -/
theorem Move.filterMap_separated (separator : String) (mss : List (List Move)) :
    (Move.separated separator mss).filterMap Move.var? = mss.flatten.filterMap Move.var? := by
  cases mss with
  | nil => rfl
  | cons mvs rest =>
    rw [Move.separated, List.flatten_cons, List.filterMap_append, List.filterMap_append,
      filterMap_flatMap_cons rfl]

/-- No scope looks anything up. -/
theorem Scope.filterMap_before (scope : Scope) : scope.before.filterMap Move.var? = [] := by
  cases scope <;> rfl

theorem Scope.filterMap_after (scope : Scope) : scope.after.filterMap Move.var? = [] := by
  cases scope <;> rfl

mutual

/-- **The variables looked up by a node are its own, from left to right.** -/
theorem Node.filterMap_moves : ∀ node : Node, node.moves.filterMap Move.var? = node.vars
  | .text _ | .literal _ | .var _ | .absent => rfl
  | .list nodes => Node.filterMap_movesEach nodes
  | .present node | .boxed node | .ref node => Node.filterMap_moves node
  | .within scope node => by
    rw [Node.moves, List.filterMap_append, List.filterMap_append, Scope.filterMap_before,
      Scope.filterMap_after, Node.filterMap_moves node, List.nil_append, List.append_nil, Node.vars]
  | .sep separator nodes => by
    rw [Node.moves, Move.filterMap_separated]
    exact Node.filterMap_movesEach nodes

theorem Node.filterMap_movesEach : ∀ nodes : List Node,
    (Node.movesEach nodes).flatten.filterMap Move.var? = Node.varsAll nodes
  | [] => rfl
  | node :: nodes => by
    rw [Node.movesEach, List.flatten_cons, List.filterMap_append, Node.filterMap_moves node,
      Node.filterMap_movesEach nodes, Node.varsAll]

end

theorem Act.filterMap_moves (a : Act) : a.moves.filterMap Move.var? = a.lookedUp := by
  cases a with
  | render node =>
    rw [Act.moves, List.filterMap_append, Node.filterMap_moves]
    exact List.append_nil node.vars
  | sep items separator =>
    rw [Act.moves, List.filterMap_append, Move.filterMap_separated, Node.filterMap_movesEach]
    exact List.append_nil (Node.varsAll items)
  | emit | newline | var | name | get | width | config | output | splice => rfl

mutual

/-- **The moves of a step look up what the step looks up**, in the same order. -/
theorem Step.filterMap_moves (header : Bool) : ∀ s : Step,
    (s.moves header).filterMap Move.var? = s.lookedUp header
  | .act a => Act.filterMap_moves a
  | .within scope body => by
    rw [Step.moves, List.filterMap_append, List.filterMap_append, List.filterMap_append,
      Scope.filterMap_before, Scope.filterMap_after, List.append_nil, List.nil_append]
    change (Step.movesAll header body).filterMap Move.var? ++ [] = Step.lookedUpAll header body
    rw [List.append_nil, Step.filterMap_movesAll header body]
  | .header body => by
    rw [Step.moves, Step.lookedUp]
    split
    · rw [List.filterMap_append]
      change (Step.movesAll header body).filterMap Move.var? ++ [] = Step.lookedUpAll header body
      rw [List.append_nil, Step.filterMap_movesAll header body]
    · rfl
  | .capture key body => by
    rw [Step.moves, List.filterMap_append]
    change (Step.movesAll header body).filterMap Move.var? ++ [] = Step.lookedUpAll header body
    rw [List.append_nil, Step.filterMap_movesAll header body]

theorem Step.filterMap_movesAll (header : Bool) : ∀ steps : List Step,
    (Step.movesAll header steps).filterMap Move.var? = Step.lookedUpAll header steps
  | [] => rfl
  | step :: steps => by
    rw [Step.movesAll, List.filterMap_append, Step.filterMap_moves header step,
      Step.filterMap_movesAll header steps, Step.lookedUpAll]

end

theorem Program.filterMap_moves (config : Config) (p : Program) :
    (p.moves config).filterMap Move.var? = p.lookedUp config :=
  Step.filterMap_movesAll config.header p

/-! ## 5. Only variables of the program are looked up -/

theorem Act.lookedUp_subset (a : Act) : a.lookedUp ⊆ a.vars := by
  cases a with
  | get v => exact List.nil_subset [v]
  | emit | newline | var | name | width | config | output | splice | render | sep =>
    exact List.Subset.refl _

mutual

/-- **A step looks up no variables but its own.** -/
theorem Step.lookedUp_subset (header : Bool) : ∀ s : Step, s.lookedUp header ⊆ s.vars
  | .act a => Act.lookedUp_subset a
  | .within _ body | .capture _ body => Step.lookedUpAll_subset header body
  | .header body => by
    rw [Step.lookedUp]
    split
    · exact Step.lookedUpAll_subset header body
    · exact List.nil_subset _

theorem Step.lookedUpAll_subset (header : Bool) : ∀ steps : List Step,
    Step.lookedUpAll header steps ⊆ Step.varsAll steps
  | [] => List.nil_subset _
  | step :: steps => by
    refine List.append_subset.mpr ⟨?_, ?_⟩
    · exact List.subset_append_of_subset_left _ (Step.lookedUp_subset header step)
    · exact List.subset_append_of_subset_right _ (Step.lookedUpAll_subset header steps)

end

/-- **Whatever a run looks up is a variable of the program.** -/
theorem Program.var_mem_of_lookups {config : Config} {p : Program} {a : Lookup}
    (h : a ∈ p.lookups config) : a.var ∈ p.vars := by
  obtain ⟨before, mv, after, m, n, hmvs, -, -, hvar, -⟩ := Machine.mem_lookups.mp h
  have hmem : mv ∈ p.moves config := by
    rw [hmvs]
    exact List.mem_append_right before List.mem_cons_self
  have hlooked : a.var ∈ p.lookedUp config := by
    rw [← Program.filterMap_moves]
    exact List.mem_filterMap.mpr ⟨mv, hmem, hvar⟩
  exact Step.lookedUpAll_subset config.header p hlooked

end Emission
