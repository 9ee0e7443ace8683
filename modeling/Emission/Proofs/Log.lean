import Emission.Persist.Log
import Emission.Proofs.Draft
import Emission.Proofs.Registers
import Emission.Proofs.Session

/-!
# What a run reports

The log of a run can be told from what the run leaves behind.

* A move reports the numbers it gives and nothing else (`Move.log_exec`). So at every moment the log is
  the reports on all the numbers there are, in their order, after what was reported before the run
  (`Machine.toList_log_run`).
* What was reported before has no influence on a run (`Move.exec_after`, `Machine.run_after`). So a run
  of its own is the run that is stepped through by hand, with one report before it and one after
  (`Program.run_eq_drive`).
* The report at the end speaks of the output at the top, whatever was captured on the way
  (`Program.log_run`).
-/

namespace Emission

/-! ## 1. Reports on numbers -/

/-- The reports on all the numbers in a table, in their order. -/
def NameTable.allocations (t : NameTable) : List Report :=
  t.entries.map fun (v, id) => .allocated v id

/-- **What is reported when a variable is entered** comes after the reports on the table before. -/
theorem NameTable.allocations_enter (t : NameTable) (v : Var) :
    (t.enter v).allocations = t.allocations ++ t.reports v := by
  cases h : t.get? v with
  | some i => rw [enter_of_get?_eq_some h, reports_of_get?_eq_some h, List.append_nil]
  | none =>
    have hreports : t.reports v = [.allocated v t.size] := if_pos h
    have hentries : (t.enter v).entries = t.entries ++ [(v, t.size)] := by
      rw [entries, order_enter_of_get?_eq_none h, Array.toList_push, List.zipIdx_append,
        Nat.zero_add, Array.length_toList]
      rfl
    rw [allocations, hentries, List.map_append, hreports]
    rfl

theorem Naming.allocations_record (n : Naming) (v : Var) (t : NameTable) :
    (n.record v t).allocations = t.allocations ++ n.reports v t := by
  unfold record reports
  split
  · exact t.allocations_enter v
  · exact (List.append_nil _).symm

/-- **A move reports the numbers that it gives.** -/
theorem Move.log_exec {mv : Move} {m m' : Machine} {before : List Report}
    (hm : m.context.log.toList = before ++ m.context.names.allocations) (h : mv.exec m = .ok m') :
    m'.context.log.toList = before ++ m'.context.names.allocations := by
  obtain ⟨depth, output, hcontext⟩ := Move.exists_context_exec h
  rw [hcontext]
  cases mv.var? with
  | none => exact hm
  | some v =>
    show (m.context.log ++ m.context.config.naming.reports v m.context.names).toList =
      before ++ (m.context.config.naming.record v m.context.names).allocations
    rw [Array.toList_appendList, hm, Naming.allocations_record, List.append_assoc]

/-- **The log at a moment**: the reports on all numbers, after those there were at the start. -/
theorem Machine.toList_log_run {mvs : List Move} {m m' : Machine} {before : List Report}
    (hm : m.context.log.toList = before ++ m.context.names.allocations) (h : run mvs m = .ok m') :
    m'.context.log.toList = before ++ m'.context.names.allocations :=
  run_induction (P := fun n => n.context.log.toList = before ++ n.context.names.allocations)
    (fun _ _ _ _ hn hmv => Move.log_exec hn hmv) hm h

/-! ## 2. Reports made before -/

/-- The machine with some reports before its own. -/
def Machine.after (reports : Array Report) (m : Machine) : Machine :=
  m.onContext fun c => { c with log := reports ++ c.log }

/-- **Earlier reports have no influence on a move**: nothing but the end of the log is touched. -/
theorem Move.exec_after (reports : Array Report) (mv : Move) (m : Machine) :
    mv.exec (m.after reports) = (mv.exec m).map (Machine.after reports) := by
  obtain ⟨⟨config, names, output, log⟩, book, depths, outers⟩ := m
  cases mv with
  | newline =>
    obtain ⟨level, step, unit, newlines, header, naming⟩ := config
    cases newlines <;> rfl
  | indentation =>
    show config.indentation.map _ = (config.indentation.map _).map _
    cases config.indentation <;> rfl
  | label v | name v =>
    have hlog : reports ++ log ++ config.naming.reports v names =
        reports ++ (log ++ config.naming.reports v names) := by
      apply Array.ext'
      simp
    simp only [exec, Machine.after, Machine.onContext, Machine.note, Context.named, hlog]
    show Except.map _ (config.naming.room v names) =
      (Except.map _ (config.naming.room v names)).map _
    cases config.naming.room v names <;> rfl
  | leave => cases depths <;> rfl
  | keep key => cases outers <;> rfl
  | note moment remark => cases remark <;> rfl
  | write | splice | further | level | setAside => rfl

theorem Machine.run_after (reports : Array Report) (mvs : List Move) (m : Machine) :
    run mvs (m.after reports) = (run mvs m).map (Machine.after reports) := by
  induction mvs generalizing m with
  | nil => rfl
  | cons mv mvs ih =>
    rw [run_cons, run_cons, Move.exec_after]
    cases mv.exec m with
    | error e => rfl
    | ok n => exact ih n

/-! ## 3. Runs stepped through by hand -/

/-- A run that is stepped through by hand starts with nothing reported. -/
def Machine.startByHand (config : Config) : Machine :=
  ⟨.start config, .empty, [], []⟩

theorem Machine.start_eq_after (config : Config) :
    start config = (startByHand config).after #[.entered] := rfl

/-- **A run that is stepped through by hand is its moves**, done in order from there. -/
theorem Program.drive_eq (config : Config) (p : Program) :
    p.drive config =
      (Machine.run (p.moves config) (.startByHand config) >>= fun m => m.context.finish m.book) := by
  have hscript : p.script (.start config) =
      (Machine.run (p.moves config) (.startByHand config)).map fun m => (m.book, m.context) :=
    p.script_apply _
  change (do let r ← p.script (.start config); r.2.finish r.1) = _
  rw [hscript]
  cases Machine.run (p.moves config) (.startByHand config) <;> rfl

/-- The end of a run does not depend on earlier reports, but has them in its log. -/
theorem Machine.finish_after (reports : Array Report) (m : Machine) :
    (m.after reports).finish =
      (m.context.finish m.book).map fun o => { o with log := reports ++ o.log ++ #[.left] } := by
  have hbytes : (m.after reports).context.output.bytes = m.context.output.bytes := rfl
  rw [finish_eq, Context.finish_eq, hbytes]
  split
  · rfl
  · refine congrArg Except.ok ?_
    simp [Machine.outcome, Outcome.leave, Machine.after, Machine.onContext, Context.outcome]

/-- **A run of its own is the run stepped through by hand**, but for the reports that it begins and
    ends. -/
theorem Program.run_eq_drive (config : Config) (p : Program) :
    p.run config =
      (p.drive config).map fun o => { o with log := #[.entered] ++ o.log ++ #[.left] } := by
  rw [Program.run_eq, Program.drive_eq, Machine.start_eq_after, Machine.run_after]
  cases Machine.run (p.moves config) (.startByHand config) with
  | error e => rfl
  | ok m => exact m.finish_after #[.entered]

/-- A run of its own that does not fail does not fail when it is stepped through by hand. -/
theorem Program.exists_drive_of_run {config : Config} {p : Program} {o : Outcome Notebook}
    (h : p.run config = .ok o) :
    ∃ byHand, p.drive config = .ok byHand ∧
      o = { byHand with log := #[.entered] ++ byHand.log ++ #[.left] } := by
  rw [Program.run_eq_drive] at h
  obtain ⟨byHand, hdrive, ho⟩ := map_eq_ok_iff.mp h
  exact ⟨byHand, hdrive, ho.symm⟩

/-! ## 4. Logs -/

/-- Of the output of a draft the bytes counted are those of its text, since it came about by writing. -/
theorem Scrap.bytes_output (config : Config) (vars : List Var) (ss : List Scrap) :
    (Scrap.output config vars ss).bytes = (Scrap.output config vars ss).text.utf8ByteSize :=
  Output.Written.bytes_eq_utf8ByteSize ⟨_, rfl⟩

/-- **What a run reports.** A run that does not fail comes to a last state, whose text and names it
    leaves behind. It reports that it begins; each entry of the names, in the order of the numbers,
    which are all those below the number of names; that the text is finished, with the bytes of the
    text, the pieces of the output in that last state, and the number of names; and that it ends. In
    the log a variable is shown with its constructor and fields. Stepped through by hand, the run gives
    the same notebook, text and names, and reports the same but for its beginning and its end. -/
theorem Program.log_run {config : Config} {p : Program} {o : Outcome Notebook}
    (h : p.run config = .ok o) :
    ∃ (final : Context) (byHand : Outcome Notebook),
      p.script ((Context.start config).report .entered) = .ok (o.result, final) ∧
      o.text = final.output.text ∧ o.names = final.names ∧
      o.log.toList =
        .entered :: (o.names.entries.map fun (v, id) => .allocated v id) ++
          [.finished o.text.utf8ByteSize final.output.count o.names.size, .left] ∧
      o.log.toList.map Report.toData =
        .arr [.str "enter", .str "DEBUG", .str "run"] ::
          (o.names.entries.map fun (v, id) =>
            .arr [.str "event", .str "TRACE", .str "allocated unique name",
              .obj [("id", .int id), ("var", .str v.inspect)]]) ++
          [.arr [.str "event", .str "DEBUG", .str "emission finished",
              .obj [("bytes", .int o.text.utf8ByteSize), ("fragments", .int final.output.count),
                ("names", .int o.names.size)]],
            .arr [.str "exit", .str "DEBUG", .str "run"]] ∧
      o.names.entries.map Prod.snd = List.range o.names.size ∧
      p.drive config = .ok byHand ∧
      byHand.result = o.result ∧ byHand.text = o.text ∧ byHand.names = o.names ∧
      o.log.toList = .entered :: byHand.log.toList ++ [.left] := by
  obtain ⟨byHand, hdrive, hbyHand⟩ := Program.exists_drive_of_run h
  obtain ⟨m, hrun, rfl, hm⟩ := Program.exists_draws h
  have hstart : (Machine.start config).context.log.toList =
      [.entered] ++ (Machine.start config).context.names.allocations := rfl
  have hbytes : m.context.output.bytes = m.context.output.text.utf8ByteSize := by
    rw [hm.output]
    exact Scrap.bytes_output config _ _
  have hlog : m.outcome.log.toList =
      .entered :: (m.context.names.entries.map fun (v, id) => .allocated v id) ++
        [.finished m.context.output.text.utf8ByteSize m.context.output.count m.context.names.size,
          .left] := by
    have hmoves := Machine.toList_log_run hstart hrun
    simp [Machine.outcome, Outcome.leave, Context.outcome, hmoves, hbytes, NameTable.allocations]
  refine ⟨m.context, byHand, ?_, rfl, rfl, hlog, ?_, m.context.names.map_snd_entries, hdrive, ?_⟩
  · rw [Program.script_eq, hrun]
    rfl
  · rw [hlog, List.map_append, List.map_cons, List.map_map]
    rfl
  · rw [hbyHand]
    exact ⟨rfl, rfl, rfl, by simp⟩

/-- Variables are numbered in a capture that is replaced and in a label that is asked for, neither of
    which is in the output; one of two bytes is. -/
theorem Program.log_run_replaced :
    let p : Program :=
      [.capture "k" [.act (.var (.external "M" "f")), .act (.emit .lent "lost")],
        .capture "k" [.act (.emit .lent "é"), .act (.var (.foreign "g"))],
        .within .further [.act (.name (.internal "x\n")), .act (.splice "k")],
        .act (.get (.internal "y"))]
    ∃ o, p.run .compact = .ok o ∧
      o.log.toList =
        [.entered, .allocated (.external "M" "f") 0, .allocated (.internal "x\n") 1,
          .finished 3 2 2, .left] ∧
      (o.log.toList.map Report.toData)[2]? = some
        (.arr [.str "event", .str "TRACE", .str "allocated unique name",
          .obj [("id", .int 1), ("var", .str "Internal(\"x\\n\")")]]) := by
  intro p
  have hok : (p.run .compact).isOk = true := by decide +kernel
  obtain ⟨o, h⟩ := exists_of_isOk hok
  obtain ⟨final, byHand, hscript, -, -, hlog, hdata, -⟩ := Program.log_run h
  have hentries : (p.run .compact).map (·.names.entries) =
      .ok [(.external "M" "f", 0), (.internal "x\n", 1)] := by decide +kernel
  have hsizes : (p.run .compact).map (fun o => (o.text.utf8ByteSize, o.names.size)) =
      .ok (3, 2) := by decide +kernel
  have hcount : (p.script ((Context.start .compact).report .entered)).map (·.2.output.count) =
      .ok 2 := by decide +kernel
  have hshown : Var.inspect (.internal "x\n") = "Internal(\"x\\n\")" := by decide +kernel
  rw [h] at hentries hsizes
  rw [hscript] at hcount
  have hentries : o.names.entries = _ := Except.ok.inj hentries
  have hcount : final.output.count = 2 := Except.ok.inj hcount
  obtain ⟨hbytes, hnames⟩ := Prod.mk.inj (Except.ok.inj hsizes)
  rw [hentries, hbytes, hcount, hnames] at hlog
  rw [hentries] at hdata
  refine ⟨o, h, hlog, ?_⟩
  rw [hdata, ← hshown]
  rfl

end Emission
