import Emission.Proofs.Machine.Pairs
import Emission.Proofs.Machine.Run
import Emission.Proofs.Spelling

/-!
# Renaming

What a variable is called does not show in the text, unless the strategy writes it as it is called.

* A renaming keeps variables apart, leaves each where it comes from, and leaves the foreign ones as
  they are (`Renaming`).
* A strategy without `qualified` in it (`Naming.mentionsQualified`) spells a renamed variable the
  same, and asks for its number as before (`spelling_map`, `numbers_map`).
* So a renamed program goes through the states of the program itself, with other variables in the
  name table and in the log and nothing else different (`Machine.Renamed`, `Move.matches_exec`).

Before the run, renaming the program renames its moves (`Program.moves_rename`).
-/

namespace Emission

/-- A way to call variables otherwise. -/
structure Renaming where
  map : Var → Var
  injective : Function.Injective map
  origin_map : ∀ v, (map v).origin = v.origin
  map_foreign : ∀ v, v.isForeign = true → map v = v

namespace Renaming

/-! ## 1. Tables -/

variable (r : Renaming)

theorem isForeign_map (v : Var) : (r.map v).isForeign = v.isForeign := by
  unfold Var.isForeign
  rw [r.origin_map]

theorem isExternal_map (v : Var) : (r.map v).isExternal = v.isExternal := by
  unfold Var.isExternal
  rw [r.origin_map]

/-- Renaming goes along with putting a variable on the list. -/
theorem enlist_map (vs : List Var) (v : Var) :
    enlist (vs.map r.map) (r.map v) = (enlist vs v).map r.map := by
  have hmem : r.map v ∈ vs.map r.map ↔ v ∈ vs := List.mem_map_of_injective r.injective
  by_cases h : v ∈ vs
  · rw [enlist_of_mem h, enlist_of_mem (hmem.mpr h)]
  · rw [enlist_of_notMem h, enlist_of_notMem (fun h' => h (hmem.mp h')), List.map_append,
      List.map_singleton]

/-- A renamed variable is where the variable was. -/
theorem idxOf_map (vs : List Var) (v : Var) :
    (vs.map r.map).idxOf (r.map v) = vs.idxOf v := by
  rw [List.idxOf_eq_getD_idxOf?, List.idxOf_eq_getD_idxOf?, idxOf?_map_of_injective r.injective,
    List.length_map]

variable {r} {t t' : NameTable}

theorem size_eq_of_vars (h : t'.vars = t.vars.map r.map) : t'.size = t.size := by
  rw [NameTable.size_eq_length, NameTable.size_eq_length, h, List.length_map]

/-- The renamed variables have the numbers of the others. -/
theorem get?_eq_of_vars (h : t'.vars = t.vars.map r.map) (v : Var) :
    t'.get? (r.map v) = t.get? v := by
  rw [NameTable.get?_eq_idxOf?, NameTable.get?_eq_idxOf?, h, idxOf?_map_of_injective r.injective]

theorem entries_eq_of_vars (h : t'.vars = t.vars.map r.map) :
    t'.entries = t.entries.map fun e => (r.map e.1, e.2) := by
  rw [NameTable.entries_eq_zipIdx, NameTable.entries_eq_zipIdx, h, List.zipIdx_map]
  rfl

end Renaming

/-! ## 2. Strategies -/

namespace Naming

/-- Whether `qualified` is a part of the strategy. -/
def mentionsQualified : Naming → Bool
  | qualified => true
  | unique => false
  | comment inner | commentExternal inner => inner.mentionsQualified
  | append back front => back.mentionsQualified || front.mentionsQualified

variable (r : Renaming)

/-- **What a variable is called does not show.** -/
theorem spelling_map {n : Naming} (hn : n.mentionsQualified = false) (v : Var) (i : Nat) :
    n.spelling (r.map v) i = n.spelling v i := by
  induction n with
  | qualified => cases hn
  | unique =>
    rw [spelling, spelling, r.isForeign_map]
    by_cases hv : v.isForeign = true
    · rw [r.map_foreign v hv]
    · rw [if_neg hv, if_neg hv]
  | comment inner ih => rw [spelling, spelling, ih hn]
  | commentExternal inner ih => rw [spelling, spelling, r.isExternal_map, ih hn]
  | append back front ihb ihf =>
    rw [mentionsQualified, Bool.or_eq_false_iff] at hn
    rw [spelling, spelling, ihf hn.2, ihb hn.1]

/-- A number is asked for or not whatever the variable is called. -/
theorem numbers_map (n : Naming) (v : Var) : n.numbers (r.map v) = n.numbers v := by
  induction n with
  | qualified => rfl
  | unique => rw [numbers, numbers, r.isForeign_map]
  | comment inner ih => exact ih
  | commentExternal inner ih => rw [numbers, numbers, r.isExternal_map, ih]
  | append back front ihb ihf => rw [numbers, numbers, ihf, ihb]

theorem vars_record_map {t t' : NameTable} (h : t'.vars = t.vars.map r.map) (n : Naming)
    (v : Var) : (n.record (r.map v) t').vars = (n.record v t).vars.map r.map := by
  rw [vars_record, vars_record, numbers_map, h]
  split
  · exact r.enlist_map t.vars v
  · rfl

/-- There is a number left for the renamed variable if there is one for the variable. -/
theorem room_map {t t' : NameTable} (h : t'.vars = t.vars.map r.map) (n : Naming) (v : Var) :
    n.room (r.map v) t' = n.room v t := by
  unfold room NameTable.room
  rw [numbers_map, Renaming.get?_eq_of_vars h, Renaming.size_eq_of_vars h]

end Naming

/-! ## 3. Programs -/

/-- The report, on the renamed variable. -/
def Report.rename (r : Renaming) : Report → Report
  | allocated v id => .allocated (r.map v) id
  | entered => .entered
  | left => .left
  | finished bytes pieces names => .finished bytes pieces names

theorem Naming.reports_map (r : Renaming) {t t' : NameTable} (h : t'.vars = t.vars.map r.map)
    (n : Naming) (v : Var) :
    n.reports (r.map v) t' = (n.reports v t).map (Report.rename r) := by
  unfold reports NameTable.reports
  rw [numbers_map, Renaming.get?_eq_of_vars h, Renaming.size_eq_of_vars h]
  split
  · split <;> rfl
  · rfl

mutual

/-- The node with its variables renamed. -/
def Node.rename (r : Renaming) : Node → Node
  | .text s => .text s
  | .literal s => .literal s
  | .var v => .var (r.map v)
  | .list nodes => .list (Node.renameAll r nodes)
  | .absent => .absent
  | .present node => .present (node.rename r)
  | .boxed node => .boxed (node.rename r)
  | .ref node => .ref (node.rename r)
  | .within scope node => .within scope (node.rename r)
  | .sep separator nodes => .sep separator (Node.renameAll r nodes)

/-- The nodes with their variables renamed. -/
def Node.renameAll (r : Renaming) : List Node → List Node
  | [] => []
  | node :: nodes => node.rename r :: Node.renameAll r nodes

end

/-- The act with its variables renamed. -/
def Act.rename (r : Renaming) : Act → Act
  | var v => .var (r.map v)
  | name v => .name (r.map v)
  | get v => .get (r.map v)
  | render node => .render (node.rename r)
  | sep items separator => .sep (Node.renameAll r items) separator
  | emit how s => .emit how s
  | newline => .newline
  | width => .width
  | config => .config
  | output => .output
  | splice key => .splice key

mutual

/-- The step with its variables renamed, whether it will be run or not. -/
def Step.rename (r : Renaming) : Step → Step
  | .act a => .act (a.rename r)
  | .within scope body => .within scope (Step.renameAll r body)
  | .header body => .header (Step.renameAll r body)
  | .capture key body => .capture key (Step.renameAll r body)

/-- The steps with their variables renamed. -/
def Step.renameAll (r : Renaming) : List Step → List Step
  | [] => []
  | step :: steps => step.rename r :: Step.renameAll r steps

end

/-- The program with its variables renamed. -/
def Program.rename (r : Renaming) (p : Program) : Program :=
  Step.renameAll r p

/-! ## 4. Moves -/

/-- The remark, on the renamed variable. -/
def Remark.rename (r : Renaming) : Remark → Remark
  | id? v => .id? (r.map v)
  | nothing => .nothing
  | width => .width
  | config => .config
  | output => .output
  | body => .body
  | header => .header
  | skipped => .skipped

/-- The move with its variable renamed. -/
def Move.rename (r : Renaming) : Move → Move
  | label v => .label (r.map v)
  | name v => .name (r.map v)
  | note moment remark => .note moment (remark.rename r)
  | write s => .write s
  | newline => .newline
  | indentation => .indentation
  | splice key => .splice key
  | further => .further
  | level depth => .level depth
  | leave => .leave
  | setAside => .setAside
  | keep key => .keep key

section

variable (r : Renaming)

theorem Scope.map_before (scope : Scope) : scope.before.map (Move.rename r) = scope.before := by
  cases scope <;> rfl

theorem Scope.map_after (scope : Scope) : scope.after.map (Move.rename r) = scope.after := by
  cases scope <;> rfl

theorem Move.separated_map (separator : String) (mss : List (List Move)) :
    Move.separated separator (mss.map (List.map (Move.rename r))) =
      (Move.separated separator mss).map (Move.rename r) := by
  cases mss with
  | nil => rfl
  | cons mvs rest =>
    rw [List.map_cons, Move.separated, Move.separated, List.map_append, List.map_flatMap,
      List.flatMap_map]
    rfl

mutual

theorem Node.moves_rename : ∀ node : Node,
    (node.rename r).moves = node.moves.map (Move.rename r)
  | .text _ | .literal _ | .var _ | .absent => rfl
  | .list nodes => by
    rw [Node.rename, Node.moves, Node.moves, Node.movesEach_rename nodes, List.map_flatten]
  | .present node | .boxed node | .ref node => Node.moves_rename node
  | .within scope node => by
    rw [Node.rename, Node.moves, Node.moves, Node.moves_rename node, List.map_append,
      List.map_append, Scope.map_before, Scope.map_after]
  | .sep separator nodes => by
    rw [Node.rename, Node.moves, Node.moves, Node.movesEach_rename nodes, Move.separated_map]

theorem Node.movesEach_rename : ∀ nodes : List Node,
    Node.movesEach (Node.renameAll r nodes) =
      (Node.movesEach nodes).map (List.map (Move.rename r))
  | [] => rfl
  | node :: nodes => by
    rw [Node.renameAll, Node.movesEach, Node.movesEach, List.map_cons, Node.moves_rename node,
      Node.movesEach_rename nodes]

end

theorem Act.moves_rename (a : Act) : (a.rename r).moves = a.moves.map (Move.rename r) := by
  cases a with
  | render node =>
    rw [Act.rename, Act.moves, Act.moves, Node.moves_rename, List.map_append]
    rfl
  | sep items separator =>
    rw [Act.rename, Act.moves, Act.moves, Node.movesEach_rename, Move.separated_map,
      List.map_append]
    rfl
  | emit | newline | var | name | get | width | config | output | splice => rfl

mutual

theorem Step.moves_rename (header : Bool) : ∀ s : Step,
    (s.rename r).moves header = (s.moves header).map (Move.rename r)
  | .act a => Act.moves_rename r a
  | .within scope body => by
    rw [Step.rename, Step.moves, Step.moves, Step.movesAll_renameAll header body, List.map_append,
      List.map_append, List.map_append, Scope.map_before, Scope.map_after]
    rfl
  | .header body => by
    rw [Step.rename, Step.moves, Step.moves, Step.movesAll_renameAll header body]
    split
    · rw [List.map_append]
      rfl
    · rfl
  | .capture key body => by
    rw [Step.rename, Step.moves, Step.moves, Step.movesAll_renameAll header body, List.map_append]
    rfl

theorem Step.movesAll_renameAll (header : Bool) : ∀ steps : List Step,
    Step.movesAll header (Step.renameAll r steps) =
      (Step.movesAll header steps).map (Move.rename r)
  | [] => rfl
  | step :: steps => by
    rw [Step.renameAll, Step.movesAll, Step.movesAll, List.map_append,
      Step.moves_rename header step, Step.movesAll_renameAll header steps]

end

/-- **The moves of a renamed program are the moves of the program, renamed.** -/
theorem Program.moves_rename (config : Config) (p : Program) :
    (p.rename r).moves config = (p.moves config).map (Move.rename r) :=
  Step.movesAll_renameAll r config.header p

end

/-! ## 5. Machines -/

/-- The machine is in the state of the other, but for what the variables are called. -/
structure Machine.Renamed (r : Renaming) (m m' : Machine) : Prop where
  unmentioned : m.context.config.naming.mentionsQualified = false
  config : m'.context.config = m.context.config
  vars : m'.context.names.vars = m.context.names.vars.map r.map
  output : m'.context.output = m.context.output
  log : m'.context.log = m.context.log.map (Report.rename r)
  book : m'.book = m.book
  depths : m'.depths = m.depths
  outers : m'.outers = m.outers

namespace Machine.Renamed

variable {r : Renaming} {m m' : Machine}

/-- A renamed variable has the label of the variable. -/
theorem labelOf (h : Renamed r m m') (v : Var) :
    m'.context.labelOf (r.map v) = m.context.labelOf v := by
  unfold Context.labelOf
  rw [h.config, h.vars, r.idxOf_map, Naming.spelling_map r h.unmentioned]

theorem room (h : Renamed r m m') (v : Var) :
    m'.context.room (r.map v) = m.context.room v := by
  unfold Context.room
  rw [h.config, Naming.room_map r h.vars]

/-- **Numbering a variable, and its renamed variable, keeps the machines together.** -/
theorem named (h : Renamed r m m') (v : Var) :
    Renamed r (m.onContext (·.named v)) (m'.onContext (·.named (r.map v))) := by
  have hvars : (m'.context.config.naming.record (r.map v) m'.context.names).vars =
      (m.context.config.naming.record v m.context.names).vars.map r.map := by
    rw [h.config]
    exact Naming.vars_record_map r h.vars m.context.config.naming v
  have hlog : m'.context.log ++ m'.context.config.naming.reports (r.map v) m'.context.names =
      (m.context.log ++ m.context.config.naming.reports v m.context.names).map
        (Report.rename r) := by
    rw [h.config, h.log, Naming.reports_map r h.vars]
    apply Array.ext'
    rw [Array.toList_appendList, Array.toList_map, Array.toList_map, Array.toList_appendList,
      List.map_append]
  exact { h with vars := hvars, log := hlog }

theorem write (h : Renamed r m m') (s : String) :
    Renamed r (m.onContext (·.write s)) (m'.onContext (·.write s)) :=
  { h with output := congrArg (·.push s) h.output }

/-- The entry is the same, if the answer is. -/
theorem note (h : Renamed r m m') (moment : Moment) (answer : Answer) :
    Renamed r (m.note moment answer) (m'.note moment answer) := by
  have hbook : m'.book.note m'.context moment answer = m.book.note m.context moment answer := by
    unfold Notebook.note
    rw [h.book, h.output, h.config, Renaming.size_eq_of_vars h.vars]
  exact { h with book := hbook }

/-- The same is to be said of both. -/
theorem answer (h : Renamed r m m') (remark : Remark) :
    (remark.rename r).answer m' = remark.answer m := by
  cases remark with
  | id? v =>
    have hid : m'.context.names.get? (r.map v) = m.context.names.get? v :=
      Renaming.get?_eq_of_vars h.vars v
    exact congrArg Answer.id? hid
  | width | config =>
    unfold Remark.rename Remark.answer
    rw [h.config]
  | output =>
    unfold Remark.rename Remark.answer
    rw [h.output]
  | body | header =>
    unfold Remark.rename Remark.answer
    rw [h.book]
  | nothing | skipped => rfl

theorem atDepth (h : Renamed r m m') (depth : Nat) :
    Renamed r (m.onContext (·.atDepth depth)) (m'.onContext (·.atDepth depth)) := by
  have hconfig : { m'.context.config with indentLevel := depth } =
      { m.context.config with indentLevel := depth } := by
    rw [h.config]
  exact { h with config := hconfig }

theorem enter (h : Renamed r m m') (depth : Nat) :
    Renamed r (m.enter depth) (m'.enter depth) := by
  have hdepths : m'.context.config.indentLevel :: m'.depths =
      m.context.config.indentLevel :: m.depths := by
    rw [h.config, h.depths]
  exact { h.atDepth depth with depths := hdepths }

theorem leave (h : Renamed r m m') : Renamed r m.leave m'.leave := by
  unfold Machine.leave
  rw [h.depths]
  cases m.depths with
  | nil => exact h
  | cons depth depths => exact { h.atDepth depth with depths := rfl }

theorem setAside (h : Renamed r m m') : Renamed r m.setAside m'.setAside := by
  have houters : m'.context.output :: m'.outers = m.context.output :: m.outers := by
    rw [h.output, h.outers]
  exact { h with output := rfl, outers := houters }

theorem keep (h : Renamed r m m') (key : String) : Renamed r (m.keep key) (m'.keep key) := by
  unfold Machine.keep
  rw [h.outers, h.book, h.output]
  cases m.outers with
  | nil => exact h
  | cons outer outers => exact { h with output := rfl, book := rfl, outers := rfl }

theorem splice (h : Renamed r m m') (key : String) :
    Renamed r (m.splice key) (m'.splice key) := by
  unfold Machine.splice
  rw [h.book, h.output]
  exact { h with output := rfl, book := rfl }

end Machine.Renamed

/-- **Renamed machines match from one move to the next.** -/
theorem Move.matches_exec {r : Renaming} (mv : Move) {m m' : Machine}
    (h : Machine.Renamed r m m') :
    Matches (Machine.Renamed r) (mv.exec m) ((mv.rename r).exec m') := by
  cases mv with
  | write s => exact .ok (h.write s)
  | newline =>
    rw [Move.rename, Move.exec, Move.exec, h.config]
    split
    · exact .ok (h.write "\n")
    · exact .ok h
  | indentation =>
    rw [Move.rename, Move.exec, Move.exec, h.config]
    exact .map_self m.context.config.indentation fun s => h.write s
  | label v =>
    have hnamed := (h.named v).write (m.context.labelOf v)
    nth_rewrite 2 [← h.labelOf v] at hnamed
    rw [Move.rename, Move.exec, Move.exec, h.room v]
    exact .map_self (m.context.room v) fun _ => hnamed
  | name v =>
    rw [Move.rename, Move.exec, Move.exec, h.labelOf v, h.room v]
    exact .map_self (m.context.room v) fun _ =>
      (h.named v).note (.done .name) (.text (m.context.labelOf v))
  | splice key => exact .ok (h.splice key)
  | further =>
    have hfurther : m'.context.config.further = m.context.config.further := by rw [h.config]
    rw [Move.rename, Move.exec, Move.exec, hfurther]
    exact .ok (h.enter m.context.config.further)
  | level depth => exact .ok (h.enter depth)
  | leave => exact .ok h.leave
  | setAside => exact .ok h.setAside
  | keep key =>
    rw [Move.rename, Move.exec, Move.exec, h.book, h.output]
    exact .ok ((h.keep key).note _ _)
  | note moment remark =>
    rw [Move.rename, Move.exec, Move.exec, h.answer remark]
    exact .ok (h.note moment (remark.answer m))

/-! ## 6. Runs -/

/-- The outcome is the other, but for what the variables are called: the notebook and the text are
    the same, and the renamed variables have the numbers of the others, in the same order. -/
structure Outcome.Renamed (r : Renaming) (o o' : Outcome Notebook) : Prop where
  result : o'.result = o.result
  text : o'.text = o.text
  entries : o'.names.entries = o.names.entries.map fun e => (r.map e.1, e.2)
  log : o'.log = o.log.map (Report.rename r)

theorem Machine.renamed_start (r : Renaming) {config : Config}
    (h : config.naming.mentionsQualified = false) :
    Machine.Renamed r (.start config) (.start config) where
  unmentioned := h
  config := rfl
  vars := rfl
  output := rfl
  log := by
    change #[Report.entered] = #[Report.entered].map (Report.rename r)
    rw [List.map_toArray]
    rfl
  book := rfl
  depths := rfl
  outers := rfl

theorem Machine.Renamed.outcome {r : Renaming} {m m' : Machine} (h : Machine.Renamed r m m') :
    Outcome.Renamed r m.outcome m'.outcome where
  result := h.book
  text := congrArg Output.text h.output
  entries := Renaming.entries_eq_of_vars h.vars
  log := by
    unfold Machine.outcome Outcome.leave Context.outcome
    rw [h.log, h.output, Renaming.size_eq_of_vars h.vars]
    simp [Report.rename]

/-- **A run does not see what variables are called**, under a strategy that does not write them as
    they are called: the renamed program fails when the program does, and otherwise leaves the same
    behind, with the variables renamed. -/
theorem Program.run_rename (r : Renaming) (p : Program) {config : Config}
    (h : config.naming.mentionsQualified = false) :
    Matches (Outcome.Renamed r) (p.run config) ((p.rename r).run config) := by
  rw [Program.run_eq, Program.run_eq, Program.moves_rename]
  have hrun := Machine.matches_run (fun mv m m' hm => Move.matches_exec mv hm) (p.moves config)
    (Machine.renamed_start r h)
  exact hrun.finish (fun m m' hm => congrArg Output.bytes hm.output) fun m m' hm => hm.outcome

/-- Module and name of an external variable change places, and internal variables are called
    otherwise. -/
def Renaming.exchanging : Renaming where
  map
    | .external module name => .external name module
    | .internal name => .internal ("x" ++ name)
    | .foreign name => .foreign name
  injective v w h := by
    cases v <;> cases w <;> simp_all
  origin_map v := by
    cases v <;> rfl
  map_foreign v h := by
    cases v with
    | foreign name => rfl
    | external module name => cases h
    | internal name => cases h

/-- Three variables of one name, and two external ones that are exchanged for each other. -/
theorem Program.run_rename_exchanging :
    let config := { Config.compact with naming := .append (.commentExternal .unique) .unique }
    let p : Program :=
      [.act (.var (.external "m" "x")),
        .capture "k" [.act (.name (.internal "x")), .act (.var (.foreign "x"))],
        .act (.get (.external "x" "m")), .header [.act (.splice "k")],
        .act (.var (.external "x" "m"))]
    (p.run config).map Outcome.text = .ok "_0/*_0*/x_2/*_2*/" ∧
      Matches (Outcome.Renamed .exchanging) (p.run config)
        ((p.rename .exchanging).run config) := by
  refine ⟨by decide +kernel, ?_⟩
  exact Program.run_rename .exchanging _ rfl

end Emission
