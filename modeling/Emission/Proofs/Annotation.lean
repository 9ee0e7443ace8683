import Emission.Proofs.Capacity
import Emission.Proofs.Draft
import Emission.Proofs.Label
import Emission.Proofs.Machine.Pairs
import Mathlib.Algebra.Order.BigOperators.Group.List
import Mathlib.Algebra.Order.Group.Nat

/-!
# Labels with and without comments

The strategies `pretty` and `compact` give a variable the same label and the same number. The one puts
a comment after the label of an external variable, the other puts nothing. So their runs write the
same pieces, one by one, but for these comments.

* `Var.comment` is the comment on a variable (`Naming.spelling_pretty`).
* `Annotates` compares two outputs by the scraps that their pieces were written for. A scrap has words
  under both strategies or under neither, since no label is empty where there is a comment
  (`Scrap.words_pretty_eq_empty_iff`).
* Whether a move fails depends on the strategy only in which variables it numbers
  (`Machine.Parallel`), so the moves under the two fail together.
* `Program.run_pretty_compact`: two runs, from one configuration but for these strategies, fail
  together, unless the comments make the text too long, or agree but for the comments.
-/

namespace Emission

/-! ## 1. Comments -/

/-- The comment on an external variable; there is none on any other. -/
def Var.comment : Var → String
  | external module name => commentOpen ++ (module ++ "." ++ name) ++ commentClose
  | internal _ | foreign _ => ""

/-- **A variable is spelt by its label alone, or with the comment after it.** -/
theorem Naming.spelling_pretty (v : Var) (i : Nat) :
    Naming.pretty.spelling v i = Naming.compact.spelling v i ++ v.comment := by
  cases v <;> rfl

theorem Naming.numbersOrigin_pretty (origin : Origin) :
    Naming.pretty.numbersOrigin origin = Naming.compact.numbersOrigin origin := by
  cases origin <;> rfl

theorem Naming.numbers_pretty (v : Var) : Naming.pretty.numbers v = Naming.compact.numbers v := by
  cases v <;> rfl

/-- The two strategies number the same variables. -/
theorem Naming.numbered_pretty (vs : List Var) :
    Naming.pretty.numbered vs = Naming.compact.numbered vs :=
  List.filter_congr fun v _ => Naming.numbersOrigin_pretty v.origin

/-- **There is no comment where there is no label.** Only a foreign variable can have none. -/
theorem Var.comment_of_spelling_eq_empty {v : Var} {i : Nat}
    (h : Naming.compact.spelling v i = "") : v.comment = "" := by
  cases v with
  | external module name => exact absurd h (Label.ofNat_ne_empty i)
  | internal | foreign => rfl

/-! ## 2. Pieces -/

/-- The scraps that have words, and so a piece of the output. -/
def Scrap.written (config : Config) (vars : List Var) (ss : List Scrap) : List Scrap :=
  ss.filter fun s => s.words config vars ≠ ""

theorem Scrap.pieces_output (config : Config) (vars : List Var) (ss : List Scrap) :
    (Scrap.output config vars ss).pieces.toList =
      (Scrap.written config vars ss).map (Scrap.words config vars) := by
  rw [Scrap.output, Output.pieces_ofTexts, List.filter_map]
  rfl

/-- The comment after a scrap: the one on the variable, after a label. -/
def Scrap.comment : Scrap → String
  | label v => v.comment
  | text _ | indentation _ | newline => ""

/-- The pieces of the outputs are those of the scraps, with the comments in the second: piece by piece
    the same, but that the label of an external variable has the comment after it. -/
def Annotates (config : Config) (vars : List Var) (ss : List Scrap) (o o' : Output) : Prop :=
  let written := Scrap.written config vars ss
  o.pieces.toList = written.map (Scrap.words config vars) ∧
    o'.pieces.toList = written.map fun s => s.words config vars ++ s.comment

theorem Annotates.count_eq {config : Config} {vars : List Var} {ss : List Scrap} {o o' : Output}
    (h : Annotates config vars ss o o') : o'.count = o.count := by
  obtain ⟨hpieces, hpieces'⟩ := h
  rw [Output.count, Output.count, ← Array.length_toList, ← Array.length_toList, hpieces, hpieces',
    List.length_map, List.length_map]

section

variable (config : Config) (vars : List Var)

theorem Scrap.words_pretty (s : Scrap) :
    s.words { config with naming := .pretty } vars =
      s.words { config with naming := .compact } vars ++ s.comment := by
  cases s with
  | label v => exact Naming.spelling_pretty v (vars.idxOf v)
  | text | indentation | newline => exact String.append_empty.symm

theorem Scrap.words_pretty_eq_empty_iff (s : Scrap) :
    s.words { config with naming := .pretty } vars = "" ↔
      s.words { config with naming := .compact } vars = "" := by
  rw [Scrap.words_pretty]
  constructor
  · intro h
    exact (String.append_eq_empty_iff.mp h).1
  · intro h
    have hcomment : s.comment = "" := by
      cases s with
      | label v => exact Var.comment_of_spelling_eq_empty h
      | text | indentation | newline => rfl
    rw [h, hcomment, String.append_empty]

/-- **One output in the words of the two strategies.** -/
theorem Scrap.annotates_output (ss : List Scrap) :
    Annotates { config with naming := .compact } vars ss
      (Scrap.output { config with naming := .compact } vars ss)
      (Scrap.output { config with naming := .pretty } vars ss) := by
  have hwritten : Scrap.written { config with naming := .pretty } vars ss =
      Scrap.written { config with naming := .compact } vars ss :=
    List.filter_congr fun s _ =>
      decide_eq_decide.mpr (not_congr (Scrap.words_pretty_eq_empty_iff config vars s))
  refine ⟨Scrap.pieces_output _ vars ss, ?_⟩
  rw [Scrap.pieces_output, hwritten]
  exact List.map_congr_left fun s _ => Scrap.words_pretty config vars s

/-- Comments take room. -/
theorem Scrap.bytes_output_le (ss : List Scrap) :
    (Scrap.output { config with naming := .compact } vars ss).bytes ≤
      (Scrap.output { config with naming := .pretty } vars ss).bytes := by
  rw [Scrap.output, Scrap.output, Output.bytes_ofTexts, Output.bytes_ofTexts, List.map_map,
    List.map_map]
  refine List.sum_le_sum fun s _ => ?_
  rw [Function.comp_apply, Function.comp_apply, Scrap.words_pretty, String.utf8ByteSize_append]
  exact Nat.le_add_right _ _

end

/-! ## 3. Entries -/

/-- The answer without what labels have a part in: texts, and the strategy. -/
def Answer.unlabelled : Answer → Answer
  | text _ => .text ""
  | config c => .config { c with naming := .compact }
  | capture entries _ pieces => .capture entries "" pieces
  | answer => answer

/-- The entry without what labels have a part in. -/
def Entry.unlabelled (e : Entry) : Entry :=
  { e with bytes := 0, answer := e.answer.unlabelled }

/-- **The two strategies make the same entries**, but for bytes and texts. -/
theorem Mark.unlabelled_entry (config : Config) (vars : List Var) (mark : Mark) :
    (mark.entry { config with naming := .pretty } vars).unlabelled =
      (mark.entry { config with naming := .compact } vars).unlabelled := by
  have hcount := fun ss => (Scrap.annotates_output config vars ss).count_eq
  have hanswer : (mark.answer { config with naming := .pretty } vars).unlabelled =
      (mark.answer { config with naming := .compact } vars).unlabelled := by
    obtain ⟨moment, around, output, lookedUp, earlier, saying⟩ := mark
    cases saying with
    | label => rfl
    | captured ss => exact congrArg (Answer.capture earlier "") (hcount ss)
    | remark remark =>
      cases remark with
      | id? v =>
        exact congrArg (fun vs : List Var => Answer.id? (vs.eraseDups.idxOf? v))
          (Naming.numbered_pretty lookedUp)
      | nothing | width | config | output | body | header | skipped => rfl
  rw [Entry.unlabelled, Entry.unlabelled, Mark.entry, Mark.entry, hanswer, hcount,
    Naming.numbered_pretty]
  rfl

/-! ## 4. Faults -/

/-- The machines are the same in all that can make a move fail. The strategy of the second is `naming`,
    which numbers the variables that the strategy of the first does. -/
structure Machine.Parallel (naming : Naming) (m m' : Machine) : Prop where
  numbers : ∀ v, naming.numbers v = m.context.config.naming.numbers v
  config : m'.context.config = { m.context.config with naming }
  names : m'.context.names = m.context.names
  depths : m'.depths = m.depths

section

variable {naming : Naming} {m m' : Machine}

theorem Machine.Parallel.atDepth (h : m.Parallel naming m') (depth : Nat) :
    (m.onContext (·.atDepth depth)).Parallel naming (m'.onContext (·.atDepth depth)) where
  numbers := h.numbers
  config := congrArg (fun c : Config => { c with indentLevel := depth }) h.config
  names := h.names
  depths := h.depths

theorem Machine.Parallel.enter (h : m.Parallel naming m') (depth : Nat) :
    (m.enter depth).Parallel naming (m'.enter depth) where
  numbers := h.numbers
  config := (h.atDepth depth).config
  names := h.names
  depths := by
    change m'.context.config.indentLevel :: m'.depths = m.context.config.indentLevel :: m.depths
    rw [h.config, h.depths]

theorem Machine.Parallel.leave (h : m.Parallel naming m') : m.leave.Parallel naming m'.leave := by
  unfold Machine.leave
  rw [h.depths]
  cases m.depths with
  | nil => exact h
  | cons depth depths => exact { h.atDepth depth with depths := rfl }

theorem Machine.Parallel.keep (h : m.Parallel naming m') (key : String) :
    (m.keep key).Parallel naming (m'.keep key) := by
  unfold Machine.keep
  cases m.outers <;> cases m'.outers <;> exact { h with }

/-- **The same variables are in want of a number**, and are entered. -/
theorem Machine.Parallel.room (h : m.Parallel naming m') (v : Var) :
    m'.context.room v = m.context.room v := by
  rw [Context.room, Context.room, h.config, h.names]
  exact Naming.room_congr (h.numbers v) _

theorem Machine.Parallel.named (h : m.Parallel naming m') (v : Var) :
    (m.onContext (·.named v)).Parallel naming (m'.onContext (·.named v)) where
  numbers := h.numbers
  config := h.config
  names := by
    change m'.context.config.naming.record v m'.context.names =
      m.context.config.naming.record v m.context.names
    rw [h.config, h.names, Naming.record, Naming.record, h.numbers]
  depths := h.depths

/-- **How variables are spelt has no part in whether a move fails.** -/
theorem Move.parallel_exec (mv : Move) (h : m.Parallel naming m') :
    Matches (Machine.Parallel naming) (mv.exec m) (mv.exec m') := by
  cases mv with
  | newline =>
    refine .ok ?_
    split <;> split <;> exact { h with }
  | indentation =>
    have hindentation : m'.context.config.indentation = m.context.config.indentation := by
      rw [h.config]
      rfl
    rw [Move.exec, Move.exec, hindentation]
    exact .map_self _ fun _ => { h with }
  | label v =>
    rw [Move.exec, Move.exec, h.room v]
    exact .map_self _ fun _ => { h.named v with }
  | name v =>
    rw [Move.exec, Move.exec, h.room v]
    exact .map_self _ fun _ => { h.named v with }
  | further =>
    have hfurther : m'.context.config.further = m.context.config.further := by
      rw [h.config]
      rfl
    rw [Move.exec, Move.exec, hfurther]
    exact .ok (h.enter _)
  | level depth => exact .ok (h.enter depth)
  | leave => exact .ok h.leave
  | keep key => exact .ok { h.keep key with }
  | write | splice | setAside | note => exact .ok { h with }

end

/-- **Runs of the same moves fail together** if their strategies number the same variables. -/
theorem Program.script_eq_error_iff {config : Config} {naming naming' : Naming}
    (hnum : ∀ v, naming'.numbers v = naming.numbers v) (p : Program) (e : Fault) :
    p.script ((Context.start { config with naming }).report .entered) = .error e ↔
      p.script ((Context.start { config with naming := naming' }).report .entered) = .error e := by
  have hstart : (Machine.start { config with naming }).Parallel naming'
      (.start { config with naming := naming' }) := ⟨hnum, rfl, rfl, rfl⟩
  have hrun := Machine.matches_run (f := id) (fun mv _ _ => Move.parallel_exec mv)
    (p.moves { config with naming }) hstart
  rw [List.map_id] at hrun
  rw [Program.script_eq, Program.script_eq, map_eq_error_iff, map_eq_error_iff]
  exact hrun.eq_error_iff

/-! ## 5. Runs -/

/-- A run fails with its moves, or at its end, where its text is too long. -/
theorem Program.run_eq_error_iff_script {config : Config} {p : Program} {e : Fault} :
    p.run config = .error e ↔
      p.script ((Context.start config).report .entered) = .error e ∨
        (∃ r, p.script ((Context.start config).report .entered) = .ok r) ∧
          e = .capacityOverflow ∧ p.TooLong config := by
  rw [Program.run_eq, Program.script_eq, bind_eq_error_iff, map_eq_error_iff]
  refine or_congr_right ?_
  simp only [map_eq_ok_iff, Machine.finish_eq_error_iff]
  constructor
  · rintro ⟨m, hmoves, he, hlong⟩
    rw [(Program.spells_run_moves hmoves).2] at hlong
    exact ⟨⟨_, m, hmoves, rfl⟩, he, hlong⟩
  · rintro ⟨⟨-, m, hmoves, -⟩, he, hlong⟩
    rw [Program.TooLong, ← (Program.spells_run_moves hmoves).2] at hlong
    exact ⟨m, hmoves, he, hlong⟩

/-- **Comments do not make a text shorter.** -/
theorem Program.tooLong_pretty {config : Config} {p : Program} {r r' : Notebook × Context}
    (h : p.script ((Context.start { config with naming := .compact }).report .entered) = .ok r)
    (h' : p.script ((Context.start { config with naming := .pretty }).report .entered) = .ok r')
    (hlong : p.TooLong { config with naming := .compact }) :
    p.TooLong { config with naming := .pretty } := by
  rw [Program.script_eq] at h h'
  obtain ⟨m, hm, -⟩ := map_eq_ok_iff.mp h
  obtain ⟨m', hm', -⟩ := map_eq_ok_iff.mp h'
  have hvars : m'.context.names.vars = m.context.names.vars := by
    rw [Program.vars_run_moves hm, Program.vars_run_moves hm']
    exact congrArg List.eraseDups (Naming.numbered_pretty _)
  have hbytes := Scrap.bytes_output_le config m.context.names.vars (p.draft config).output
  have houtput := (Program.draws_of_run_moves hm).output
  have houtput' := (Program.draws_of_run_moves hm').output
  rw [hvars] at houtput'
  rw [Program.TooLong, ← (Program.spells_run_moves hm).2, houtput] at hlong
  rw [Program.TooLong, ← (Program.spells_run_moves hm').2, houtput']
  exact Nat.lt_of_lt_of_le hlong hbytes

end Emission
