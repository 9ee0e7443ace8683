import Emission.Proofs.Depth
import Emission.Proofs.Lookups.Numbers
import Emission.Proofs.PlainText.Agreement

/-!
# Texts too long to write

A run fails with `capacityOverflow` at an indentation that would have more bytes than a text can have, or
at its end, if the whole text would. The depth of an indentation is told by the scopes around it, so both
can be read off the program.

* `Program.indents` are the scopes around each indentation of a program. They are those around the
  moves of the program that indent (`Program.filterMap_placed`).
* The moves of a program fail so exactly when one of these depths is too great for the unit, unless there
  are more variables than numbers for them (`Program.run_moves_eq_capacityOverflow_iff`).
* `Program.overflow_iff_indents` says so of the run, and that an indentation that is written is the unit
  as often as its depth says.
-/

namespace Emission

/-! ## 1. Indentations of a program -/

/-- The scopes around the indentation that a scope begins with, if it begins with one. -/
def Scope.indents (around : List Scope) : Scope → List (List Scope)
  | indent | line => [around]
  | further | level _ => []

mutual

/-- The scopes around each indentation of a node, which stands in some scopes. -/
def Node.indents (around : List Scope) : Node → List (List Scope)
  | .text _ | .literal _ | .var _ | .absent => []
  | .list nodes | .sep _ nodes => Node.indentsAll around nodes
  | .present node | .boxed node | .ref node => node.indents around
  | .within scope node => scope.indents around ++ node.indents (around ++ [scope])

/-- The scopes around each indentation of some nodes. -/
def Node.indentsAll (around : List Scope) : List Node → List (List Scope)
  | [] => []
  | node :: nodes => node.indents around ++ Node.indentsAll around nodes

end

/-- The scopes around each indentation of an act. -/
def Act.indents (around : List Scope) : Act → List (List Scope)
  | render node => node.indents around
  | sep items _ => Node.indentsAll around items
  | emit _ _ | newline | var _ | name _ | get _ | width | config | output | splice _ => []

mutual

/-- The scopes around each indentation of a step, where headers are written or are not. -/
def Step.indents (header : Bool) (around : List Scope) : Step → List (List Scope)
  | .act a => a.indents around
  | .within scope body =>
    scope.indents around ++ Step.indentsAll header (around ++ [scope]) body
  | .header body => if header then Step.indentsAll header around body else []
  | .capture _ body => Step.indentsAll header around body

/-- The scopes around each indentation of some steps. -/
def Step.indentsAll (header : Bool) (around : List Scope) : List Step → List (List Scope)
  | [] => []
  | step :: steps => step.indents header around ++ Step.indentsAll header around steps

end

/-- The scopes around each indentation of a program, run from a configuration: of `indent` and of
    `line`, as steps and in nodes, but not in a header that is not written. -/
def Program.indents (config : Config) (p : Program) : List (List Scope) :=
  Step.indentsAll config.header [] p

/-! ## 2. They are the moves that indent -/

/-- The scopes around the move, if it indents. -/
def Placed.indent? (p : Placed) : Option (List Scope) :=
  if p.move = .indentation then some p.around else none

theorem Placed.filterMap_separated (around : List Scope) (separator : String)
    (pss : List (List Placed)) :
    (Placed.separated around separator pss).filterMap Placed.indent? =
      pss.flatten.filterMap Placed.indent? := by
  cases pss with
  | nil => rfl
  | cons ps rest =>
    rw [Placed.separated, List.flatten_cons, List.filterMap_append, List.filterMap_append,
      filterMap_flatMap_cons rfl]

/-- **A scope indents at its beginning, if at all.** -/
theorem Scope.filterMap_placed (around : List Scope) (scope : Scope) (body : List Placed) :
    (scope.placed around body).filterMap Placed.indent? =
      scope.indents around ++ body.filterMap Placed.indent? := by
  have hbefore : (scope.before.map (Placed.mk around)).filterMap Placed.indent? =
      scope.indents around := by
    cases scope <;> rfl
  have hafter : (scope.after.map (Placed.mk (around ++ [scope]))).filterMap Placed.indent? = [] := by
    cases scope <;> rfl
  rw [Scope.placed, List.filterMap_append, List.filterMap_append, hbefore, hafter, List.append_nil]

mutual

theorem Node.filterMap_placed (around : List Scope) : ∀ node : Node,
    (node.placed around).filterMap Placed.indent? = node.indents around
  | .text _ | .literal _ | .var _ | .absent => rfl
  | .list nodes => Node.filterMap_placedEach around nodes
  | .present node | .boxed node | .ref node => Node.filterMap_placed around node
  | .within scope node => by
    rw [Node.placed, Node.indents, Scope.filterMap_placed, Node.filterMap_placed _ node]
  | .sep separator nodes => by
    rw [Node.placed, Placed.filterMap_separated]
    exact Node.filterMap_placedEach around nodes

theorem Node.filterMap_placedEach (around : List Scope) : ∀ nodes : List Node,
    (Node.placedEach around nodes).flatten.filterMap Placed.indent? = Node.indentsAll around nodes
  | [] => rfl
  | node :: nodes => by
    rw [Node.placedEach, List.flatten_cons, List.filterMap_append, Node.filterMap_placed around node,
      Node.filterMap_placedEach around nodes, Node.indentsAll]

end

theorem Act.filterMap_placed (around : List Scope) (a : Act) :
    (a.placed around).filterMap Placed.indent? = a.indents around := by
  cases a with
  | render node =>
    rw [Act.placed, List.filterMap_append, Node.filterMap_placed]
    exact List.append_nil _
  | sep items separator =>
    rw [Act.placed, List.filterMap_append, Placed.filterMap_separated, Node.filterMap_placedEach]
    exact List.append_nil _
  | emit | newline | var | name | get | width | config | output | splice => rfl

mutual

theorem Step.filterMap_placed (header : Bool) (around : List Scope) : ∀ s : Step,
    (s.placed header around).filterMap Placed.indent? = s.indents header around
  | .act a => Act.filterMap_placed around a
  | .within scope body => by
    rw [Step.placed, List.filterMap_append, Scope.filterMap_placed]
    change scope.indents around ++ (Step.placedAll header (around ++ [scope]) body).filterMap
      Placed.indent? ++ [] = _
    rw [Step.filterMap_placedAll header _ body, List.append_nil, Step.indents]
  | .header body => by
    rw [Step.placed, Step.indents]
    split
    · rw [List.filterMap_append]
      change (Step.placedAll header around body).filterMap Placed.indent? ++ [] = _
      rw [Step.filterMap_placedAll header around body, List.append_nil]
    · rfl
  | .capture key body => by
    rw [Step.placed, List.filterMap_append]
    change (Step.placedAll header around body).filterMap Placed.indent? ++ [] = _
    rw [Step.filterMap_placedAll header around body, List.append_nil, Step.indents]

theorem Step.filterMap_placedAll (header : Bool) (around : List Scope) : ∀ steps : List Step,
    (Step.placedAll header around steps).filterMap Placed.indent? =
      Step.indentsAll header around steps
  | [] => rfl
  | step :: steps => by
    rw [Step.placedAll, List.filterMap_append, Step.filterMap_placed header around step,
      Step.filterMap_placedAll header around steps, Step.indentsAll]

end

/-- **The indentations of a program are its moves that indent**, in the same order. -/
theorem Program.filterMap_placed (config : Config) (p : Program) :
    (p.placed config).filterMap Placed.indent? = p.indents config :=
  Step.filterMap_placedAll config.header [] p

theorem Program.mem_indents_iff {config : Config} {p : Program} {around : List Scope} :
    around ∈ p.indents config ↔ ⟨around, .indentation⟩ ∈ p.placed config := by
  rw [← Program.filterMap_placed, List.mem_filterMap]
  constructor
  · rintro ⟨⟨around', mv⟩, hmem, hindent⟩
    unfold Placed.indent? at hindent
    split at hindent
    · rename_i hmv
      cases hindent
      exact hmv ▸ hmem
    · cases hindent
  · intro hmem
    exact ⟨_, hmem, rfl⟩

/-! ## 3. One indentation -/

/-- A width may pass the limit of a text. -/
theorem maxTextSize_lt_maxDepth : maxTextSize < maxDepth := by decide

/-- The width of an indentation passes the limit of a text exactly when the product does: where the
    width stops growing it has passed that limit. -/
theorem Config.lt_indentWidth_iff {c : Config} :
    maxTextSize < c.indentWidth ↔ maxTextSize < c.indentLevel * c.indentUnit.utf8ByteSize := by
  have hlimit := maxTextSize_lt_maxDepth
  unfold Config.indentWidth
  omega

/-- An indentation within the limit has as many bytes as its width says. -/
theorem Config.utf8ByteSize_indentation {c : Config} (h : ¬ maxTextSize < c.indentWidth) :
    (Text.copies c.indentUnit c.indentLevel).utf8ByteSize = c.indentWidth := by
  have hlimit := maxTextSize_lt_maxDepth
  rw [Config.lt_indentWidth_iff] at h
  rw [Text.utf8ByteSize_copies, Config.indentWidth]
  omega

/-- **An indentation fails exactly when its width passes the limit.** -/
theorem Emit.indentation_eq_error_iff {c : Context} {e : Fault} :
    indentation c = .error e ↔ e = .capacityOverflow ∧ maxTextSize < c.config.indentWidth := by
  rw [indentation_apply, map_eq_error_iff, Config.indentation_eq_error_iff,
    Config.lt_indentWidth_iff]

/-- What becomes of a state when `s` is written as its indentation: as many bytes more as the width
    says, in one piece or, where there are no bytes, in none. -/
structure Context.Indented (c : Context) (s : String) (c' : Context) : Prop where
  context : c' = { c with output := c'.output }
  size : s.utf8ByteSize = c.config.indentWidth
  bytes : c'.output.bytes = c.output.bytes + c.config.indentWidth
  pieces : c'.output.pieces =
    if c.config.indentWidth = 0 then c.output.pieces else c.output.pieces.push s

/-- **An indentation that does not fail writes the unit**, as often as the depth says. -/
theorem Emit.indented_of_indentation {c c' : Context} (h : indentation c = .ok ((), c')) :
    c.Indented (Text.copies c.config.indentUnit c.config.indentLevel) c' := by
  have hshort : ¬ maxTextSize < c.config.indentWidth := by
    intro hlong
    cases (indentation_eq_error_iff.mpr ⟨rfl, hlong⟩).symm.trans h
  have hsize := Config.utf8ByteSize_indentation hshort
  rw [indentation_apply] at h
  obtain ⟨s, hs, hc'⟩ := map_eq_ok_iff.mp h
  rw [Config.indentation_eq_ok hs] at hc'
  cases hc'
  refine ⟨rfl, hsize, ?_, ?_⟩
  · rw [Output.bytes_push, hsize]
  · rw [Output.pieces_push, ← hsize]
    simp only [String.utf8ByteSize_eq_zero_iff]

/-- An empty unit is never written, at any depth. -/
theorem Emit.indentation_of_empty {c : Context} (h : c.config.indentUnit = "") :
    indentation c = .ok ((), c) := by
  have hindentation : c.config.indentation = .ok "" := if_pos (.inr h)
  rw [indentation_apply, hindentation]
  rfl

/-- The move that indents does what an indentation does to the context, and nothing else. -/
theorem Move.exec_indentation (m : Machine) :
    Move.indentation.exec m = (Emit.indentation m.context).map fun r => { m with context := r.2 } := by
  rw [Emit.indentation_apply]
  change m.context.config.indentation.map _ = (m.context.config.indentation.map _).map _
  cases m.context.config.indentation <;> rfl

/-- **No move but an indentation makes a text that is too long.** -/
theorem Move.exec_eq_capacityOverflow_iff {mv : Move} {m : Machine} :
    mv.exec m = .error .capacityOverflow ↔
      mv = .indentation ∧ maxTextSize < m.context.config.indentWidth := by
  constructor
  · intro h
    rcases Move.exec_eq_error h with ⟨rfl, -⟩ | ⟨v, -, hroom⟩
    · rw [Move.exec_indentation, map_eq_error_iff, Emit.indentation_eq_error_iff] at h
      exact ⟨rfl, h.2⟩
    · cases (Naming.room_eq_error_iff.mp hroom).2.1
  · rintro ⟨rfl, hwide⟩
    rw [Move.exec_indentation, map_eq_error_iff, Emit.indentation_eq_error_iff]
    exact ⟨rfl, hwide⟩

/-! ## 4. The moves of a program -/

/-- The program has an indentation, other than in a header that is not written, whose depth is too great
    for the unit. -/
def Program.TooWide (config : Config) (p : Program) : Prop :=
  ∃ around ∈ p.indents config, config.indentUnit ≠ "" ∧
    maxTextSize < config.depthIn around * config.indentUnit.utf8ByteSize

/-- There are numbers for all the variables that the program numbers. -/
def Program.Numberable (config : Config) (p : Program) : Prop :=
  (config.naming.numbered (p.lookedUp config)).eraseDups.length ≤ nameCapacity

/-- A moment before a move is a moment before a placed move. -/
theorem Program.exists_reaches_of_moves {config : Config} {p : Program} {before : List Move}
    {mv : Move} {after : List Move} {m : Machine} (hmoves : p.moves config = before ++ mv :: after)
    (hbefore : Machine.run before (.start config) = .ok m) :
    ∃ around, ⟨around, mv⟩ ∈ p.placed config ∧
      Machine.Reaches (p.placed config) (.start config) ⟨around, mv⟩ m := by
  rw [← Program.map_move_placed] at hmoves
  obtain ⟨ps, qs, hplaced, rfl, hqs⟩ := List.map_eq_append_iff.mp hmoves
  obtain ⟨q, rest, rfl, rfl, -⟩ := List.map_eq_cons_iff.mp hqs
  refine ⟨q.around, ?_, ps, rest, hplaced, hbefore⟩
  rw [hplaced]
  exact List.mem_append_right ps List.mem_cons_self

/-- Moves fail so where an indentation is met that is too wide. -/
theorem Machine.run_eq_capacityOverflow_iff {mvs : List Move} {m : Machine} :
    run mvs m = .error .capacityOverflow ↔
      ∃ before after n, mvs = before ++ .indentation :: after ∧ run before m = .ok n ∧
        maxTextSize < n.context.config.indentWidth := by
  rw [Machine.run_eq_error_iff]
  constructor
  · rintro ⟨before, mv, after, n, hmvs, hbefore, hfail⟩
    obtain ⟨rfl, hwide⟩ := Move.exec_eq_capacityOverflow_iff.mp hfail
    exact ⟨before, after, n, hmvs, hbefore, hwide⟩
  · rintro ⟨before, after, n, hmvs, hbefore, hwide⟩
    exact ⟨before, .indentation, after, n, hmvs, hbefore,
      Move.exec_eq_capacityOverflow_iff.mpr ⟨rfl, hwide⟩⟩

section

variable {config : Config} {p : Program}

/-- **The moves do not fail so if no indentation of the program is at too great a depth.** -/
theorem Program.tooWide_of_run_moves
    (h : Machine.run (p.moves config) (.start config) = .error .capacityOverflow) :
    p.TooWide config := by
  obtain ⟨before, after, m, hmoves, hbefore, hwide⟩ := Machine.run_eq_capacityOverflow_iff.mp h
  obtain ⟨around, hmem, hreach⟩ := Program.exists_reaches_of_moves hmoves hbefore
  rw [Config.lt_indentWidth_iff, Program.config_of_reaches hreach] at hwide
  refine ⟨around, Program.mem_indents_iff.mpr hmem, fun hunit => ?_, hwide⟩
  change maxTextSize < config.depthIn around * config.indentUnit.utf8ByteSize at hwide
  rw [hunit] at hwide
  exact absurd hwide (Nat.not_lt_zero maxTextSize)

/-- **The moves come to each indentation of the program, or fail before.** -/
theorem Program.not_tooWide_of_run_moves {final : Machine}
    (h : Machine.run (p.moves config) (.start config) = .ok final) : ¬ p.TooWide config := by
  rintro ⟨around, hmem, -, hwide⟩
  obtain ⟨before, after, hplaced⟩ := List.append_of_mem (Program.mem_indents_iff.mp hmem)
  obtain ⟨m, hbefore, hafter⟩ := Program.exists_run_before h hplaced
  obtain ⟨n, hexec, -⟩ := Machine.exists_exec_of_cons hafter
  have hconfig := Program.config_of_reaches ⟨before, after, hplaced, hbefore⟩
  have hfail : Move.indentation.exec m = .error .capacityOverflow := by
    rw [Move.exec_eq_capacityOverflow_iff, Config.lt_indentWidth_iff, hconfig]
    exact ⟨rfl, hwide⟩
  cases hfail.symm.trans hexec

/-- Where there are numbers enough, no move is in want of one. -/
theorem Program.run_moves_ne_namesExhausted (h : p.Numberable config) (size : Nat) :
    Machine.run (p.moves config) (.start config) ≠ .error (.namesExhausted size) := by
  intro hrun
  have hmore := Machine.lt_length_of_run_eq_error hrun
  rw [Program.filterMap_moves] at hmore
  exact absurd h (Nat.not_le.mpr hmore)

/-- Where no move is in want of a number, there are numbers enough. -/
theorem Program.numberable_of_run_moves {m : Machine}
    (h : Machine.run (p.moves config) (.start config) = .ok m) : p.Numberable config := by
  have hle := Machine.length_le_of_run h
  rw [Program.filterMap_moves] at hle
  exact hle

/-- **Whether the moves make a text that is too long can be read off the program.** -/
theorem Program.run_moves_eq_capacityOverflow_iff (h : p.Numberable config) :
    Machine.run (p.moves config) (.start config) = .error .capacityOverflow ↔ p.TooWide config := by
  refine ⟨Program.tooWide_of_run_moves, fun hwide => ?_⟩
  cases hrun : Machine.run (p.moves config) (.start config) with
  | ok final => exact absurd hwide (Program.not_tooWide_of_run_moves hrun)
  | error e =>
    cases e with
    | capacityOverflow => rfl
    | namesExhausted size => exact absurd hrun (Program.run_moves_ne_namesExhausted h size)

/-- Moves that are neither too wide nor in want of a number do not fail. -/
theorem Program.exists_run_moves (hnum : p.Numberable config) (hwide : ¬ p.TooWide config) :
    ∃ m, Machine.run (p.moves config) (.start config) = .ok m := by
  cases hrun : Machine.run (p.moves config) (.start config) with
  | ok m => exact ⟨m, rfl⟩
  | error e =>
    cases e with
    | capacityOverflow => exact absurd (Program.tooWide_of_run_moves hrun) hwide
    | namesExhausted size => exact absurd hrun (Program.run_moves_ne_namesExhausted hnum size)

end

/-! ## 5. Runs -/

/-- The program spells out more bytes than a text can have. -/
def Program.TooLong (config : Config) (p : Program) : Prop :=
  maxTextSize < (PlainText.run config p).page.text.utf8ByteSize

section

variable {config : Config} {p : Program}

/-- Moves that do not fail have written what the program spells out. -/
theorem Program.spells_run_moves {m : Machine}
    (h : Machine.run (p.moves config) (.start config) = .ok m) :
    m.context.output.Spells (PlainText.run config p).page.text := by
  have hsteps := (does_steps config.header p .empty).run_eq
    (c := (Context.start config).report .entered) rfl [] []
  obtain ⟨r, hr, rfl⟩ := map_eq_ok_iff.mp (hsteps.symm.trans h)
  exact (PlainText.shows_run hr).1.output

/-- A run makes a text that is too long in a move, or at its end. -/
theorem Program.run_eq_capacityOverflow_iff :
    p.run config = .error .capacityOverflow ↔
      Machine.run (p.moves config) (.start config) = .error .capacityOverflow ∨
        ∃ m, Machine.run (p.moves config) (.start config) = .ok m ∧
          maxTextSize < m.context.output.bytes := by
  rw [Program.run_eq, bind_eq_error_iff]
  simp only [Machine.finish_eq_error_iff, true_and]

/-- Where what the moves wrote can be joined, the run makes a text that is too long in a move only. -/
theorem Program.run_eq_capacityOverflow_iff_of_le (hnum : p.Numberable config)
    (hshort : ∀ m, Machine.run (p.moves config) (.start config) = .ok m →
      m.context.output.bytes ≤ maxTextSize) :
    p.run config = .error .capacityOverflow ↔ p.TooWide config := by
  rw [Program.run_eq_capacityOverflow_iff, Program.run_moves_eq_capacityOverflow_iff hnum]
  refine or_iff_left ?_
  rintro ⟨m, hmoves, hlong⟩
  exact absurd (hshort m hmoves) (Nat.not_le.mpr hlong)

/-- **A run makes no text that is too long, if it is not to be read off the program.** -/
theorem Program.tooWide_or_tooLong (h : p.run config = .error .capacityOverflow) :
    p.TooWide config ∨ p.TooLong config := by
  rcases Program.run_eq_capacityOverflow_iff.mp h with hmoves | ⟨m, hmoves, hlong⟩
  · exact .inl (Program.tooWide_of_run_moves hmoves)
  · rw [(Program.spells_run_moves hmoves).2] at hlong
    exact .inr hlong

theorem Program.run_eq_of_tooWide_or_tooLong (hnum : p.Numberable config)
    (h : p.TooWide config ∨ p.TooLong config) : p.run config = .error .capacityOverflow := by
  rw [Program.run_eq_capacityOverflow_iff]
  by_cases hwide : p.TooWide config
  · exact .inl ((Program.run_moves_eq_capacityOverflow_iff hnum).mpr hwide)
  · obtain ⟨m, hmoves⟩ := Program.exists_run_moves hnum hwide
    have hlong := h.resolve_left hwide
    unfold Program.TooLong at hlong
    rw [← (Program.spells_run_moves hmoves).2] at hlong
    exact .inr ⟨m, hmoves, hlong⟩

/-- **Whether a run fails can be read off the program.** -/
theorem Program.exists_run_iff :
    (∃ o, p.run config = .ok o) ↔
      p.Numberable config ∧ ¬ p.TooWide config ∧ ¬ p.TooLong config := by
  rw [Program.run_eq]
  constructor
  · rintro ⟨o, hrun⟩
    obtain ⟨m, hmoves, hshort, -⟩ := Machine.exists_run_of_finish hrun
    rw [(Program.spells_run_moves hmoves).2] at hshort
    exact ⟨Program.numberable_of_run_moves hmoves, Program.not_tooWide_of_run_moves hmoves,
      Nat.not_lt.mpr hshort⟩
  · rintro ⟨hnum, hwide, hlong⟩
    obtain ⟨m, hmoves⟩ := Program.exists_run_moves hnum hwide
    unfold Program.TooLong at hlong
    rw [← (Program.spells_run_moves hmoves).2] at hlong
    refine ⟨m.outcome, ?_⟩
    rw [hmoves]
    change m.finish = _
    rw [Machine.finish_eq, if_neg hlong]

end

/-- An indentation of `2 ^ 63` bytes is one byte too long, but not in a header that is not written. -/
example :
    let p : Program :=
      [.within (.level (UInt64.size / 4)) [.header [.act (.render (.within .line (.text "x")))]]]
    (p.run { Config.pretty with indentUnit := "ab" }).isOk = false ∧
      (p.run { Config.pseudo with indentUnit := "ab" }).isOk = true := by
  decide +kernel

end Emission
