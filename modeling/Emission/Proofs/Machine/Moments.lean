import Emission.Proofs.Machine

/-!
# The moments of a run

A moment of a run is the state that some first part of its moves leads to.

* A run that does not fail comes to every moment (`Machine.exists_run_of_append`).
* A run fails at one move, and comes to the moment before it (`Machine.run_eq_error_iff`).
-/

namespace Emission

namespace Machine

/-- **A run that does not fail comes to every moment**, and goes on from there. -/
theorem exists_run_of_append {before after : List Move} {m m' : Machine}
    (h : run (before ++ after) m = .ok m') : ∃ n, run before m = .ok n ∧ run after n = .ok m' := by
  rw [run_append] at h
  exact bind_eq_ok_iff.mp h

/-- The first move of a run that does not fail. -/
theorem exists_exec_of_cons {mv : Move} {mvs : List Move} {m m' : Machine}
    (h : run (mv :: mvs) m = .ok m') : ∃ n, mv.exec m = .ok n ∧ run mvs n = .ok m' :=
  bind_eq_ok_iff.mp h

/-- Moves that can be done one after the other are a run. -/
theorem run_append_of_ok {before : List Move} {m n : Machine} (h : run before m = .ok n)
    (after : List Move) : run (before ++ after) m = run after n := by
  rw [run_append, h]
  rfl

/-- **A run fails at one of its moves**, after all those before it were done. -/
theorem run_eq_error_iff {mvs : List Move} {m : Machine} {e : Fault} :
    run mvs m = .error e ↔
      ∃ before mv after n, mvs = before ++ mv :: after ∧ run before m = .ok n ∧
        mv.exec n = .error e := by
  constructor
  · intro h
    induction mvs generalizing m with
    | nil => cases h
    | cons mv mvs ih =>
      rw [run_cons, bind_eq_error_iff] at h
      rcases h with hfail | ⟨m₁, hmv, h⟩
      · exact ⟨[], mv, mvs, m, rfl, rfl, hfail⟩
      · obtain ⟨before, mv', after, n, rfl, hrun, hfail⟩ := ih h
        exact ⟨mv :: before, mv', after, n, rfl, bind_eq_ok_iff.mpr ⟨m₁, hmv, hrun⟩, hfail⟩
  · rintro ⟨before, mv, after, n, rfl, hrun, hfail⟩
    rw [run_append_of_ok hrun, run_cons, hfail]
    rfl

end Machine

/-- **A run that leaves something behind has done all its moves**, and its text is not too long. -/
theorem Machine.exists_run_of_finish {mvs : List Move} {m : Machine} {o : Outcome Notebook}
    (h : run mvs m >>= finish = .ok o) :
    ∃ m', run mvs m = .ok m' ∧ m'.context.output.bytes ≤ maxTextSize ∧ m'.outcome = o := by
  obtain ⟨m', hrun, hfinish⟩ := bind_eq_ok_iff.mp h
  obtain ⟨o', hcontext, rfl⟩ := map_eq_ok_iff.mp hfinish
  obtain ⟨hshort, rfl⟩ := Context.of_finish_eq_ok hcontext
  exact ⟨m', hrun, hshort, rfl⟩

end Emission
