import Emission.Proofs.Machine.Places
import Emission.Proofs.Machine.Run

/-!
# The depth of a run

The depth at any moment of a run is told by the scopes around the place the run has come to, and by
nothing else: not by what was written, named or captured before, and not by how variables are spelt.

* `Program.config_inside_scopes` says so of every moment, of the levels in the trace, and of the end.
* A step gives the configuration back as it found it (`Step.config_exec`).
-/

namespace Emission

/-! ## 1. Steps -/

/-- **A step leaves the configuration as it found it**, whatever scopes and captures are inside it. -/
theorem Step.config_exec {s : Step} {book : Notebook} {c : Context}
    {r : (Unit × Notebook) × Context} (h : s.exec book c = .ok r) : r.2.config = c.config := by
  have hrun := Step.run_moves h
  rw [← Step.map_move_placed c.config.header [] s] at hrun
  exact ((keeps_step c.config.header [] s).done hrun).config

/-! ## 2. Places -/

/-- **A run comes to a place in the configuration inside the scopes around it.** -/
theorem Program.config_of_reaches {config : Config} {p : Program} {place : Placed} {m : Machine}
    (h : Machine.Reaches (p.placed config) (.start config) place m) :
    m.context.config = config.inside place.around :=
  ((keeps_steps config.header [] p).during (c := config) (m := .start config) rfl h).1

/-- A run that does not fail comes to every place. -/
theorem Program.exists_run_before {config : Config} {p : Program} {final : Machine}
    (h : Machine.run (p.moves config) (.start config) = .ok final) {before : List Placed}
    {place : Placed} {after : List Placed} (hplaces : p.placed config = before ++ place :: after) :
    ∃ m, Machine.run (before.map Placed.move) (.start config) = .ok m ∧
      Machine.run ((place :: after).map Placed.move) m = .ok final := by
  rw [← Program.map_move_placed, hplaces, List.map_append] at h
  exact Machine.exists_run_of_append h

/-! ## 3. Levels in the trace -/

/-- Whether the move makes an entry in the trace. -/
def Move.notes : Move → Bool
  | name _ | keep _ | note _ _ => true
  | write _ | newline | indentation | label _ | splice _ | further | level _ | leave
  | setAside => false

/-- An entry has the level at the moment when it is made. -/
theorem Move.levels_exec {mv : Move} {m n : Machine} (h : mv.exec m = .ok n) :
    n.book.trace.toList.map Entry.level =
      m.book.trace.toList.map Entry.level ++
        if mv.notes then [m.context.config.indentLevel] else [] := by
  cases mv with
  | newline =>
    cases h
    split <;> exact (List.append_nil _).symm
  | indentation =>
    obtain ⟨s, -, rfl⟩ := Move.exists_of_indentation_exec h
    exact (List.append_nil _).symm
  | leave =>
    cases h
    unfold Machine.leave
    cases m.depths <;> exact (List.append_nil _).symm
  | keep key =>
    cases h
    unfold Machine.keep
    cases m.outers <;> simp [Machine.note, Notebook.note, Move.notes]
  | label v =>
    rw [Move.eq_of_label_exec h]
    exact (List.append_nil _).symm
  | name v =>
    rw [Move.eq_of_name_exec h]
    simp [Machine.note, Notebook.note, Move.notes, Machine.onContext, Context.named]
  | note moment remark =>
    cases h
    simp [Machine.note, Notebook.note, Move.notes]
  | write | splice | further | level | setAside =>
    cases h
    exact (List.append_nil _).symm

/-- **The levels that a run notes are those at the places where it notes them.** -/
theorem Machine.levels_run {ps : List Placed} {m n : Machine} {depth : Placed → Nat}
    (hdepth : ∀ p k, Reaches ps m p k → k.context.config.indentLevel = depth p)
    (h : run (ps.map Placed.move) m = .ok n) :
    n.book.trace.toList.map Entry.level =
      m.book.trace.toList.map Entry.level ++ (ps.filter (·.move.notes)).map depth := by
  induction ps generalizing m with
  | nil =>
    cases h
    exact (List.append_nil _).symm
  | cons p ps ih =>
    obtain ⟨m₁, hexec, hrest⟩ := exists_exec_of_cons h
    have hp : m.context.config.indentLevel = depth p := hdepth p m (reaches_head p ps m)
    have hps : ∀ q k, Reaches ps m₁ q k → k.context.config.indentLevel = depth q :=
      fun q k hreach => hdepth q k (hreach.cons hexec)
    rw [ih hps hrest, Move.levels_exec hexec, hp, List.append_assoc, List.filter_cons]
    cases p.move.notes <;> rfl

/-! ## 4. Runs -/

/-- **The depth of a run is told by the scopes around.** A run that does not fail comes to the place
    of each of its moves; the configuration there is the one at the start but for the depth, and the
    depth is that in the scopes around the place. At the end the configuration is the one at the start.
    Each level in the trace is that of the place where it was noted. Steps inwards that directly
    enclose each other add up, to the greatest depth at most. A step, in any state, leaves the
    configuration as it found it. And of the configuration only the depth at the start, the step and
    whether headers are written have a part in all this. -/
theorem Program.config_inside_scopes {config : Config} {p : Program} {o : Outcome Notebook}
    (h : p.run config = .ok o) :
    (p.placed config).map Placed.move = p.moves config ∧
    (∀ before place after, p.placed config = before ++ place :: after →
      ∃ m, Machine.run (before.map Placed.move) (.start config) = .ok m ∧
        m.context.config = { config with indentLevel := config.depthIn place.around }) ∧
    (∃ m, Machine.run (p.moves config) (.start config) = .ok m ∧ m.outcome = o ∧
      m.context.config = config) ∧
    o.result.trace.toList.map Entry.level =
      ((p.placed config).filter (·.move.notes)).map (config.depthIn ·.around) ∧
    (∀ around k, config.depthIn around ≤ maxDepth →
      config.depthIn (around ++ List.replicate k .further) =
        min maxDepth (config.depthIn around + k * config.indentStep)) ∧
    (∀ (s : Step) (book : Notebook) (c : Context) (r : (Unit × Notebook) × Context),
      s.exec book c = .ok r → r.2.config = c.config) ∧
    (∀ config' : Config, config'.indentLevel = config.indentLevel →
      config'.indentStep = config.indentStep → config'.header = config.header →
        p.placed config' = p.placed config ∧
          ∀ around, config'.depthIn around = config.depthIn around) := by
  rw [Program.run_eq] at h
  obtain ⟨final, hrun, -, rfl⟩ := Machine.exists_run_of_finish h
  have hplaced : Machine.run ((p.placed config).map Placed.move) (.start config) = .ok final := by
    rw [Program.map_move_placed]
    exact hrun
  refine ⟨Program.map_move_placed config p, ?_, ⟨final, hrun, rfl, ?_⟩, ?_,
    fun _ k hle => Config.depthIn_append_replicate hle k, fun _ _ _ _ => Step.config_exec, ?_⟩
  · intro before place after hplaces
    obtain ⟨m, hbefore, -⟩ := Program.exists_run_before hrun hplaces
    exact ⟨m, hbefore, Program.config_of_reaches ⟨before, after, hplaces, hbefore⟩⟩
  · exact ((keeps_steps config.header [] p).done hplaced).config
  · refine Machine.levels_run (m := .start config) (fun place k hreach => ?_) hplaced
    rw [Program.config_of_reaches hreach]
    rfl
  · intro config' hlevel hstep hheader
    refine ⟨?_, fun around => ?_⟩
    · rw [Program.placed, Program.placed, hheader]
    · rw [Config.depthIn, Config.depthIn, hlevel, hstep]

/-- With a step of half of all depths, two steps inwards from 5 go no further than the greatest depth,
    and what comes after them is at the depths before. -/
theorem Program.config_inside_scopes_saturated :
    let config := { Config.pretty with indentStep := UInt64.size / 2, indentUnit := "" }
    let p : Program :=
      [.within (.level 5)
          [.within .further [.act (.emit .lent "a")],
            .within .further
              [.within .further [.capture "k" [.within (.level 1) [.act .config]]]]],
        .act .newline]
    let once := 5 + UInt64.size / 2
    ∃ o, p.run config = .ok o ∧
      o.result.trace.toList.map Entry.level =
        [5, once, once, 5, once, maxDepth, maxDepth, 1, 1, maxDepth, maxDepth, once, 5, 0, 0] := by
  intro config p once
  have hok : (p.run config).isOk = true := by decide +kernel
  obtain ⟨o, h⟩ := exists_of_isOk hok
  refine ⟨o, h, ?_⟩
  rw [(Program.config_inside_scopes h).2.2.2.1]
  decide +kernel

end Emission
