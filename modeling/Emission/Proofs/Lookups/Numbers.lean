import Emission.Proofs.Lookups
import Emission.Proofs.Machine.Moments
import Emission.Proofs.Machine.Run

/-!
# The numbers a run gives

A run numbers the variables that it looks up, in the order in which it first looks them up, so the
numbers can be told from the program: they are those of `Program.lookedUp`.

* `Naming.numbered` picks the variables among some that a strategy numbers: external ones if `unique`
  is a part of the strategy, internal ones if it is a part not inside a `commentExternal`, foreign
  ones never (`Naming.numbers_eq_numbersOrigin`).
* At every moment of a run the numbered variables are the first occurrences among those (`vars_run`),
  and each kind of step, in any state, adds to them what it looks up itself (`Step.vars_exec`).
-/

namespace Emission

/-! ## 1. Which variables a strategy numbers -/

namespace Naming

/-- Whether `unique` is a part of the strategy that is not inside a `commentExternal`. -/
def allocatesOutright : Naming → Bool
  | qualified => false
  | unique => true
  | comment inner => inner.allocatesOutright
  | commentExternal _ => false
  | append back front => back.allocatesOutright || front.allocatesOutright

/-- Whether the strategy numbers the variables of an origin. -/
def numbersOrigin (n : Naming) : Origin → Bool
  | .external => n.allocates
  | .internal => n.allocatesOutright
  | .foreign => false

/-- The variables among some that the strategy numbers. -/
def numbered (n : Naming) (vs : List Var) : List Var :=
  vs.filter fun v => n.numbersOrigin v.origin

/-- **Whether a strategy asks for the number of a variable is a matter of its origin.** -/
theorem numbers_eq_numbersOrigin (n : Naming) (v : Var) :
    n.numbers v = n.numbersOrigin v.origin := by
  induction n with
  | qualified => cases v <;> rfl
  | unique => cases v <;> rfl
  | comment inner ih =>
    rw [numbers, ih]
    cases v <;> rfl
  | commentExternal inner ih =>
    rw [numbers, ih]
    cases v <;> rfl
  | append back front ihb ihf =>
    rw [numbers, ihb, ihf, Bool.or_comm]
    cases v <;> rfl

theorem numbered_append (n : Naming) (vs ws : List Var) :
    n.numbered (vs ++ ws) = n.numbered vs ++ n.numbered ws :=
  List.filter_append vs ws

theorem numbered_singleton (n : Naming) (v : Var) :
    n.numbered [v] = if n.numbers v then [v] else [] := by
  rw [numbered, List.filter_cons, ← numbers_eq_numbersOrigin, List.filter_nil]

/-- A strategy puts the variables on the list that it numbers. -/
theorem vars_record_eq_foldl (n : Naming) (v : Var) (t : NameTable) :
    (n.record v t).vars = (n.numbered [v]).foldl enlist t.vars := by
  rw [vars_record, numbered_singleton]
  split <;> rfl

end Naming

/-! ## 2. What is numbered at a moment -/

namespace Machine

/-- The variables looked up in a run that does not fail. -/
theorem map_var_lookups {mvs : List Move} {m m' : Machine} (h : run mvs m = .ok m') :
    (lookups mvs m).map Lookup.var = mvs.filterMap Move.var? := by
  induction mvs generalizing m with
  | nil => rfl
  | cons mv mvs ih =>
    obtain ⟨n, hmv, hrun⟩ := exists_exec_of_cons h
    rw [lookups_cons_of_ok hmv, List.map_append, ih hrun]
    cases hv : mv.var? with
    | none =>
      rw [List.filterMap_cons_none hv]
      rfl
    | some v =>
      rw [List.filterMap_cons_some hv]
      rfl

/-- **A run puts on the list what it looks up**, in that order, as far as the strategy numbers it. -/
theorem vars_run {mvs : List Move} {m m' : Machine} (h : run mvs m = .ok m') :
    m'.context.names.vars =
      (m.context.config.naming.numbered (mvs.filterMap Move.var?)).foldl enlist
        m.context.names.vars := by
  induction mvs generalizing m with
  | nil =>
    cases h
    rfl
  | cons mv mvs ih =>
    obtain ⟨n, hmv, hrun⟩ := exists_exec_of_cons h
    have hnaming : n.context.config.naming = m.context.config.naming := by
      rw [Move.config_exec hmv]
    have hnames := Move.names_exec hmv
    rw [ih hrun, hnaming]
    cases hv : mv.var? with
    | none =>
      rw [hv] at hnames
      rw [List.filterMap_cons_none hv, hnames]
    | some v =>
      have hlist : n.context.names.vars =
          (m.context.config.naming.numbered [v]).foldl enlist m.context.names.vars := by
        rw [hnames, hv]
        exact Naming.vars_record_eq_foldl _ v m.context.names
      rw [List.filterMap_cons_some hv, ← List.singleton_append, Naming.numbered_append,
        List.foldl_append, hlist]

/-- **What is numbered at a moment of a run**: the first occurrences among the variables looked up
    until then. -/
theorem entries_run_start {config : Config} {mvs : List Move} {m : Machine}
    (h : run mvs (.start config) = .ok m) :
    m.context.names.entries =
      (config.naming.numbered (mvs.filterMap Move.var?)).eraseDups.zipIdx := by
  have hvars : m.context.names.vars =
      (config.naming.numbered (mvs.filterMap Move.var?)).foldl enlist [] := vars_run h
  have hfirst := foldl_enlist [] (config.naming.numbered (mvs.filterMap Move.var?))
  rw [List.nil_append] at hfirst
  rw [NameTable.entries_eq_zipIdx, hvars, ← hfirst]
  rfl

/-- Numbers are kept from one moment to a later one. -/
theorem extends_run {mvs : List Move} {m m' : Machine} (h : run mvs m = .ok m') :
    m'.context.names.Extends m.context.names :=
  run_induction (P := fun n => n.context.names.Extends m.context.names)
    (fun _ _ _ _ hn hmv => (Move.extends_exec hmv).trans hn) (NameTable.Extends.refl _) h

/-- **A run that does not fail has numbers for all that it numbers.** -/
theorem length_le_of_run {config : Config} {mvs : List Move} {m : Machine}
    (h : run mvs (.start config) = .ok m) :
    (config.naming.numbered (mvs.filterMap Move.var?)).eraseDups.length ≤ nameCapacity := by
  have hsize : m.context.names.size ≤ nameCapacity := by
    refine run_induction (P := fun n => n.context.names.size ≤ nameCapacity) ?_ (Nat.zero_le _) h
    intro mv _ n n' hn hmv
    rw [Move.names_exec hmv]
    cases hv : mv.var? with
    | none => exact hn
    | some v => exact Naming.size_record_le (Move.room_of_exec hmv hv) hn
  have hentries := congrArg List.length (entries_run_start h)
  rw [NameTable.entries_eq_zipIdx, List.length_zipIdx, List.length_zipIdx,
    ← NameTable.size_eq_length] at hentries
  rw [← hentries]
  exact hsize

/-- **A run that finds no number left has more variables to number than there are numbers.** -/
theorem lt_length_of_run_eq_error {config : Config} {mvs : List Move} {size : Nat}
    (h : run mvs (.start config) = .error (.namesExhausted size)) :
    nameCapacity < (config.naming.numbered (mvs.filterMap Move.var?)).eraseDups.length := by
  obtain ⟨before, mv, after, m, rfl, hbefore, hfail⟩ := run_eq_error_iff.mp h
  rcases Move.exec_eq_error hfail with ⟨-, hindent⟩ | ⟨v, hv, hroom⟩
  · cases (m.context.config.indentation_eq_error_iff.mp hindent).1
  · have hnaming : m.context.config.naming = config.naming := by
      rw [config_run hbefore]
      rfl
    obtain ⟨hnum, -, hfull, hnew⟩ := Naming.room_eq_error_iff.mp hroom
    have hvars : m.context.names.vars =
        (config.naming.numbered (before.filterMap Move.var?)).foldl enlist [] := vars_run hbefore
    -- what is numbered until then, with the variable after it, is where the whole list begins
    have hnext : (config.naming.numbered ((before ++ mv :: after).filterMap Move.var?)).foldl
        enlist [] = (config.naming.numbered (after.filterMap Move.var?)).foldl enlist
          (m.context.names.vars ++ [v]) := by
      rw [List.filterMap_append, List.filterMap_cons_some hv, ← List.singleton_append,
        Naming.numbered_append, Naming.numbered_append, List.foldl_append, List.foldl_append,
        ← hvars, ← hnaming, Naming.numbered_singleton, if_pos hnum, List.foldl_cons, List.foldl_nil,
        enlist_of_notMem hnew]
    have hall := foldl_enlist [] (config.naming.numbered ((before ++ mv :: after).filterMap Move.var?))
    rw [List.nil_append] at hall
    rw [← hall]
    change _ < (List.foldl enlist [] _).length
    rw [hnext]
    have hprefix := (prefix_foldl_enlist (m.context.names.vars ++ [v])
      (config.naming.numbered (after.filterMap Move.var?))).length_le
    rw [List.length_append, List.length_singleton, ← NameTable.size_eq_length] at hprefix
    omega

end Machine

/-- The entries of a table are the first of any table that has grown out of it. -/
theorem NameTable.Extends.isPrefix_entries {t u : NameTable} (h : u.Extends t) :
    t.entries <+: u.entries := by
  obtain ⟨rest, hrest⟩ := h
  refine ⟨rest.zipIdx (0 + t.vars.length), ?_⟩
  rw [entries_eq_zipIdx, entries_eq_zipIdx, ← hrest, List.zipIdx_append]

/-! ## 3. Steps and runs -/

/-- **A step, in any state, puts on the list what it looks up**, and changes the numbers by nothing
    else. -/
theorem Step.vars_exec {s : Step} {book : Notebook} {c : Context} {r : (Unit × Notebook) × Context}
    (h : s.exec book c = .ok r) :
    r.2.names.vars =
      (c.config.naming.numbered (s.lookedUp c.config.header)).foldl enlist c.names.vars := by
  have hvars := Machine.vars_run (Step.run_moves h)
  rw [Step.filterMap_moves] at hvars
  exact hvars

/-- **The numbers of a run.** A run that does not fail numbers, from 0 on, the first occurrences among
    the variables that the program looks up, as far as its strategy numbers them; these are the
    variables whose labels the run computed, in the order in which it did. It comes to every moment,
    and the numbers at a moment are those of the first occurrences until then, so the entries at a
    moment are the first of those at any later one. A step, in any state, adds to the numbers what it
    looks up itself, and nothing else. -/
theorem Program.entries_run {config : Config} {p : Program} {o : Outcome Notebook}
    (h : p.run config = .ok o) :
    o.names.entries = (config.naming.numbered (p.lookedUp config)).eraseDups.zipIdx ∧
    (p.lookups config).map Lookup.var = p.lookedUp config ∧
    (∀ before between after, p.moves config = before ++ between ++ after →
      ∃ m m', Machine.run before (.start config) = .ok m ∧ Machine.run between m = .ok m' ∧
        m.context.names.entries =
          (config.naming.numbered
            ((Machine.lookups before (.start config)).map Lookup.var)).eraseDups.zipIdx ∧
        m.context.names.entries <+: m'.context.names.entries ∧
        m'.context.names.entries <+: o.names.entries) ∧
    (∀ (s : Step) (book : Notebook) (c : Context) (r : (Unit × Notebook) × Context),
      s.exec book c = .ok r →
        r.2.names.vars =
          (c.config.naming.numbered (s.lookedUp c.config.header)).foldl enlist c.names.vars) := by
  rw [Program.run_eq] at h
  obtain ⟨final, hrun, -, rfl⟩ := Machine.exists_run_of_finish h
  have hnames : final.outcome.names = final.context.names := rfl
  refine ⟨?_, ?_, ?_, fun _ _ _ _ => Step.vars_exec⟩
  · rw [hnames, Machine.entries_run_start hrun, Program.filterMap_moves]
  · rw [Program.lookups, Machine.map_var_lookups hrun, Program.filterMap_moves]
  · intro before between after hmoves
    rw [hmoves] at hrun
    obtain ⟨m', hfirst, hafter⟩ := Machine.exists_run_of_append hrun
    obtain ⟨m, hbefore, hbetween⟩ := Machine.exists_run_of_append hfirst
    refine ⟨m, m', hbefore, hbetween, ?_, ?_, ?_⟩
    · rw [Machine.entries_run_start hbefore, Machine.map_var_lookups hbefore]
    · exact (Machine.extends_run hbetween).isPrefix_entries
    · rw [hnames]
      exact (Machine.extends_run hafter).isPrefix_entries

/-- Under a strategy that numbers external variables only: a capture that is replaced and never
    written, a header that is not written, and a number that is asked for and not given. -/
theorem Program.entries_run_replaced :
    let config := { Config.pseudo with naming := .append .qualified (.commentExternal .unique) }
    let p : Program :=
      [.capture "k" [.act (.var (.external "M" "f")), .act (.name (.internal "f"))],
        .header [.act (.var (.external "H" "h"))],
        .capture "k" [.act (.render (.sep "," [.var (.external "N" "g"), .var (.foreign "f"),
          .var (.external "M" "f")]))],
        .act (.get (.external "H" "h")), .within .further [.act (.splice "k")]]
    ∃ o, p.run config = .ok o ∧ o.text = "/*_1*/N.g,f,/*_0*/M.f" ∧
      o.names.entries = [(.external "M" "f", 0), (.external "N" "g", 1)] := by
  intro config p
  have htext : (p.run config).map Outcome.text = .ok "/*_1*/N.g,f,/*_0*/M.f" := by decide +kernel
  obtain ⟨o, h, htext⟩ := map_eq_ok_iff.mp htext
  refine ⟨o, h, htext, ?_⟩
  rw [(Program.entries_run h).1]
  decide +kernel

end Emission
