import Emission.Proofs.Label
import Emission.Proofs.Lookups
import Emission.Proofs.Machine.Run

/-!
# Labels do not collide

Under `pretty` and `compact`, two labels of one run are the same text only if they are labels of
the same variable.

* Every lookup of a run can be recomputed from one table, the names at the end of it: names are
  never lost, and a label does not depend on a number that was not asked for (`Settled`,
  `Machine.exists_settled`).
* From that one table the variables have different numbers, different numbers have different
  labels, and a comment behind a label does not hide where it ends (`eq_of_spelling_eq`).
* A foreign variable is spelt by its name. Under `compact` it keeps apart from the labels as long
  as it does not look like one (`Label.Form`).
-/

namespace Emission

/-! ## 1. What is settled -/

/-- The lookup can be recomputed from the table, which has the number if it was asked for. -/
structure Settled (n : Naming) (t : NameTable) (a : Lookup) : Prop where
  label_eq : a.label = n.spelling a.var (t.vars.idxOf a.var)
  mem_vars : n.numbers a.var = true → a.var ∈ t.vars

/-- **What is settled stays settled** while the table grows. -/
theorem Settled.mono {n : Naming} {t u : NameTable} {a : Lookup} (h : Settled n t a)
    (hu : u.Extends t) : Settled n u a := by
  refine ⟨?_, fun hnum => hu.mem (h.mem_vars hnum)⟩
  rw [h.label_eq]
  exact (Naming.spelling_idxOf_of_extends hu h.mem_vars).symm

/-- A label is settled as soon as it is computed. -/
theorem settled_labelOf (v : Var) (c : Context) :
    Settled c.config.naming (c.config.naming.record v c.names) ⟨v, c.labelOf v⟩ where
  label_eq := by
    rw [Naming.idxOf_vars_record]
    rfl
  mem_vars := fun hnum => Naming.mem_vars_record hnum c.names

/-- The lookup that a move makes is settled after the move. -/
theorem settled_exec {mv : Move} {m m' : Machine} (hmv : mv.exec m = .ok m') {a : Lookup}
    (hvar : mv.var? = some a.var) (hlabel : a.label = m.context.labelOf a.var) :
    Settled m.context.config.naming m'.context.names a := by
  have hnames := Move.names_exec hmv
  rw [hvar] at hnames
  have hsettled := settled_labelOf a.var m.context
  rw [← hlabel] at hsettled
  rw [hnames]
  exact hsettled

/-- **All that a run looks up is settled by one table**, one that has grown out of the names at the
    start. -/
theorem Machine.exists_settled (mvs : List Move) (m : Machine) :
    ∃ t : NameTable, t.Extends m.context.names ∧
      ∀ a ∈ Machine.lookups mvs m, Settled m.context.config.naming t a := by
  induction mvs generalizing m with
  | nil =>
    refine ⟨m.context.names, NameTable.Extends.refl _, fun a ha => ?_⟩
    cases ha
  | cons mv mvs ih =>
    cases hmv : mv.exec m with
    | error e =>
      refine ⟨m.context.names, NameTable.Extends.refl _, fun a ha => ?_⟩
      rw [lookups_cons_of_error hmv] at ha
      cases ha
    | ok m' =>
      obtain ⟨t, ht, hrest⟩ := ih m'
      have hnaming : m'.context.config.naming = m.context.config.naming := by
        rw [Move.config_exec hmv]
      rw [hnaming] at hrest
      refine ⟨t, ht.trans (Move.extends_exec hmv), fun a ha => ?_⟩
      rw [lookups_cons_of_ok hmv, List.mem_append, mem_lookup_iff] at ha
      cases ha with
      | inl ha => exact (settled_exec hmv ha.1 ha.2).mono ht
      | inr ha => exact hrest a ha

/-! ## 2. Spellings that keep numbers apart -/

/-- What `pretty` puts after a label does not begin with a letter or a digit. -/
theorem head_commentExternal (n : Naming) (v : Var) (i : Nat) (c : Char)
    (h : ((Naming.commentExternal n).spelling v i).toList.head? = some c) :
    c.isAlphanum = false := by
  rw [Naming.spelling] at h
  split at h
  · rw [String.append_assoc, String.toList_append] at h
    cases h
    rfl
  · cases h

/-- A non-foreign variable is spelt by its label, and something that keeps apart from it. -/
theorem exists_spelling {n : Naming} (hn : n = .pretty ∨ n = .compact) {v : Var}
    (hv : v.isForeign = false) (i : Nat) :
    ∃ t : String, (∀ c, t.toList.head? = some c → c.isAlphanum = false) ∧
      n.spelling v i = Label.ofNat i ++ t := by
  have hunique := Naming.spelling_unique hv i
  cases hn with
  | inl hn =>
    refine ⟨(Naming.commentExternal .qualified).spelling v i,
      head_commentExternal .qualified v i, ?_⟩
    rw [hn, ← hunique]
    rfl
  | inr hn =>
    refine ⟨"", fun c hc => ?_, ?_⟩
    · cases hc
    · rw [hn, Naming.compact, hunique, String.append_empty]

/-- **Different numbers do not meet in one spelling.** -/
theorem eq_of_spelling_eq {n : Naming} (hn : n = .pretty ∨ n = .compact) {v w : Var}
    (hv : v.isForeign = false) (hw : w.isForeign = false) {i j : Nat}
    (h : n.spelling v i = n.spelling w j) : i = j := by
  obtain ⟨s, hs, hvs⟩ := exists_spelling hn hv i
  obtain ⟨t, ht, hwt⟩ := exists_spelling hn hw j
  rw [hvs, hwt] at h
  exact Label.eq_of_ofNat_append_eq hs ht h

theorem numbers_of_not_foreign {n : Naming} (hn : n = .pretty ∨ n = .compact) {v : Var}
    (hv : v.isForeign = false) : n.numbers v = true := by
  have hunique : Naming.unique.numbers v = true := by
    rw [Naming.numbers, hv]
    rfl
  cases hn with
  | inl hn => rw [hn, Naming.pretty, Naming.numbers, hunique, Bool.true_or]
  | inr hn => rw [hn, Naming.compact, hunique]

/-! ## 3. Lookups settled by one table -/

section

variable {n : Naming} {t : NameTable} {a b : Lookup}

theorem Settled.label_eq_of_var_eq (ha : Settled n t a) (hb : Settled n t b)
    (h : a.var = b.var) : a.label = b.label := by
  rw [ha.label_eq, hb.label_eq, h]

/-- Two variables with one label have one place in the table. -/
theorem Settled.label_eq_iff (hn : n = .pretty ∨ n = .compact) (ha : Settled n t a)
    (hb : Settled n t b) (hfa : a.var.isForeign = false) (hfb : b.var.isForeign = false) :
    a.label = b.label ↔ a.var = b.var := by
  refine ⟨fun h => ?_, ha.label_eq_of_var_eq hb⟩
  rw [ha.label_eq, hb.label_eq] at h
  have hplace : t.vars.idxOf a.var = t.vars.idxOf b.var := eq_of_spelling_eq hn hfa hfb h
  exact (List.idxOf_inj (ha.mem_vars (numbers_of_not_foreign hn hfa))).mp hplace

theorem Settled.label_eq_name (ha : Settled .compact t a) (hf : a.var.isForeign = true) :
    a.label = a.var.name := by
  rw [ha.label_eq, Naming.compact, Naming.spelling, if_pos hf]

theorem Settled.form_label (ha : Settled .compact t a) (hf : a.var.isForeign = false) :
    Label.Form a.label := by
  rw [ha.label_eq, Naming.compact, Naming.spelling, hf]
  exact Label.form_ofNat _

/-- A foreign variable is its name. -/
theorem Var.eq_foreign {v : Var} (h : v.isForeign = true) : v = .foreign v.name := by
  cases v with
  | foreign name => rfl
  | external module name => cases h
  | internal name => cases h

/-- Under `compact`, a foreign variable that does not look like a label keeps apart from them. -/
theorem Settled.label_eq_iff_of_form (ha : Settled .compact t a) (hb : Settled .compact t b)
    (hfa : a.var.isForeign = true → ¬ Label.Form a.var.name)
    (hfb : b.var.isForeign = true → ¬ Label.Form b.var.name) :
    a.label = b.label ↔ a.var = b.var := by
  refine ⟨fun h => ?_, ha.label_eq_of_var_eq hb⟩
  cases hva : a.var.isForeign with
  | false =>
    cases hvb : b.var.isForeign with
    | false => exact (Settled.label_eq_iff (.inr rfl) ha hb hva hvb).mp h
    | true =>
      have hform : Label.Form b.var.name := by
        rw [← hb.label_eq_name hvb, ← h]
        exact ha.form_label hva
      exact absurd hform (hfb hvb)
  | true =>
    cases hvb : b.var.isForeign with
    | false =>
      have hform : Label.Form a.var.name := by
        rw [← ha.label_eq_name hva, h]
        exact hb.form_label hvb
      exact absurd hform (hfa hva)
    | true =>
      rw [ha.label_eq_name hva, hb.label_eq_name hvb] at h
      rw [Var.eq_foreign hva, Var.eq_foreign hvb, h]

end

/-! ## 4. Runs -/

/-- **Under `pretty` and `compact` the labels of a run do not collide.** The moves are those of the
    run itself; whatever they look up, wherever they stand and whether the run is finished or not,
    two non-foreign variables have one label exactly if they are one variable. Under `compact` this
    holds of foreign variables too, if no foreign variable of the program looks like a label. -/
theorem Program.label_eq_iff_var_eq (config : Config) (p : Program)
    (hn : config.naming = .pretty ∨ config.naming = .compact) :
    p.run config = Machine.run (p.moves config) (.start config) >>= Machine.finish ∧
      (∀ a ∈ p.lookups config, ∀ b ∈ p.lookups config,
        a.var.isForeign = false → b.var.isForeign = false →
          (a.label = b.label ↔ a.var = b.var)) ∧
      (config.naming = .compact →
        (∀ v ∈ p.vars, v.isForeign = true → ¬ Label.Form v.name) →
          ∀ a ∈ p.lookups config, ∀ b ∈ p.lookups config, (a.label = b.label ↔ a.var = b.var)) := by
  obtain ⟨t, -, ht⟩ := Machine.exists_settled (p.moves config) (.start config)
  refine ⟨Program.run_eq config p, ?_, ?_⟩
  · intro a ha b hb hfa hfb
    exact Settled.label_eq_iff hn (ht a ha) (ht b hb) hfa hfb
  · intro hcompact hforeign a ha b hb
    have hsa : Settled .compact t a := hcompact ▸ ht a ha
    have hsb : Settled .compact t b := hcompact ▸ ht b hb
    exact hsa.label_eq_iff_of_form hsb (hforeign a.var (Program.var_mem_of_lookups ha))
      (hforeign b.var (Program.var_mem_of_lookups hb))

/-- Labels computed in a header, in a capture and after it, one of them foreign. The module of one
    variable tries to end the comment and go on with the label of another. -/
theorem Program.label_eq_iff_var_eq_nested :
    let p : Program :=
      [.header [.act (.var (.external "*/_1" "x")), .act (.name (.internal "x"))],
        .capture "k" [.within .further [.act (.render (.list [.var (.internal "x"),
          .var (.foreign "_x.y")]))]],
        .act (.var (.external "*/_1" "x"))]
    (p.lookups .compact).map Lookup.label = ["_0", "_1", "_1", "_x.y", "_0"] ∧
      (p.lookups .pretty).map Lookup.label =
        ["_0/**/_1.x*/", "_1", "_1", "_x.y", "_0/**/_1.x*/"] ∧
      (∀ a ∈ p.lookups .pretty, ∀ b ∈ p.lookups .pretty,
        a.var.isForeign = false → b.var.isForeign = false →
          (a.label = b.label ↔ a.var = b.var)) ∧
      ∀ a ∈ p.lookups .compact, ∀ b ∈ p.lookups .compact,
        (a.label = b.label ↔ a.var = b.var) := by
  refine ⟨by decide +kernel, by decide +kernel, ?_, ?_⟩
  · exact (Program.label_eq_iff_var_eq .pretty _ (.inl rfl)).2.1
  · exact (Program.label_eq_iff_var_eq .compact _ (.inr rfl)).2.2 rfl (by decide)

end Emission
