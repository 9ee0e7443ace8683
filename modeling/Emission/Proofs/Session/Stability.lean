import Emission.Proofs.Session

/-!
# Labels that stay

A label is final as soon as it is computed: whatever a session does afterwards, as long as it does not
load another table, the same variable has the same label under the same strategy.

* Without a load the table only grows (`extends_run`), so a number that was given out stays.
* A label shows no number but one that the variable has after the label was computed, if not before. So
  it can be told from the table at the end what every label was that was computed on the way
  (`perform_label`, `perform_writeLabel`).
-/

namespace Emission

namespace Session

/-! ## 1. Sessions in parts -/

/-- There is a note for each step. -/
theorem length_notes_run {steps : List Step} {s s' : Session} {notes : List Note}
    (h : run steps s = .ok (notes, s')) : notes.length = steps.length := by
  induction steps generalizing s notes with
  | nil =>
    cases h
    rfl
  | cons step steps ih =>
    obtain ⟨a, s₁, rest, -, hrest, rfl⟩ := run_cons_eq_ok_iff.mp h
    exact congrArg Nat.succ (ih hrest)

/-- **A session that does not fail has done its first steps**, and then the others. -/
theorem exists_run_of_append {before after : List Step} {s s' : Session} {notes : List Note}
    (h : run (before ++ after) s = .ok (notes, s')) :
    ∃ notes₁ s₁ notes₂, run before s = .ok (notes₁, s₁) ∧ run after s₁ = .ok (notes₂, s') ∧
      notes = notes₁ ++ notes₂ := by
  induction before generalizing s notes with
  | nil => exact ⟨[], s, notes, rfl, h, rfl⟩
  | cons step before ih =>
    obtain ⟨a, t, rest, hstep, hrest, rfl⟩ := run_cons_eq_ok_iff.mp h
    obtain ⟨notes₁, s₁, notes₂, hbefore, hafter, rfl⟩ := ih hrest
    exact ⟨_, s₁, notes₂, run_cons_eq_ok_iff.mpr ⟨a, t, notes₁, hstep, hbefore, rfl⟩, hafter, rfl⟩

/-- **What is noted of a step is what it answers** in the state that the steps before it lead to. -/
theorem exists_perform_of_run {before : List Step} {step : Step} {after : List Step} {s s' : Session}
    {notes : List Note} (h : run (before ++ step :: after) s = .ok (notes, s')) :
    ∃ notes₁ s₁ a s₂ notes₂, run before s = .ok (notes₁, s₁) ∧ step.perform s₁ = .ok (a, s₂) ∧
      run after s₂ = .ok (notes₂, s') ∧ notes[before.length]?.map Note.answer = some a := by
  obtain ⟨notes₁, s₁, rest, hbefore, hrest, rfl⟩ := exists_run_of_append h
  obtain ⟨a, s₂, notes₂, hstep, hafter, rfl⟩ := run_cons_eq_ok_iff.mp hrest
  refine ⟨notes₁, s₁, a, s₂, notes₂, hbefore, hstep, hafter, ?_⟩
  rw [← length_notes_run hbefore, List.getElem?_append_right (Nat.le_refl _), Nat.sub_self]
  rfl

/-! ## 2. Tables that grow -/

/-- **Without a load the table only grows.** -/
theorem extends_run {steps : List Step} (h : ∀ key, .load key ∉ steps) {s s' : Session}
    {notes : List Note} (hrun : run steps s = .ok (notes, s')) : s'.table.Extends s.table := by
  unfold NameTable.Extends
  rw [vars_run h hrun]
  exact prefix_foldl_enlist s.table.vars _

/-! ## 3. Labels -/

section

variable {s s' : Session} {n : Naming} {v : Var} {a : Answer} {t : NameTable}

/-- **A label that is asked for is the spelling from any table that has grown since.** -/
theorem perform_label (h : (Step.label n v).perform s = .ok (a, s')) (ht : t.Extends s'.table) :
    a = .text (n.spelling v (t.vars.idxOf v)) := by
  change (s.numbering (n.label v)).map (fun r => (Answer.text r.1, r.2)) = _ at h
  rw [numbering_apply, Naming.label_apply] at h
  obtain ⟨r, hr, hanswer⟩ := map_eq_ok_iff.mp h
  obtain ⟨r', hr', rfl⟩ := map_eq_ok_iff.mp hr
  obtain ⟨-, -, rfl⟩ := map_eq_ok_iff.mp hr'
  cases hanswer
  have hrecord : t.Extends (n.record v s.table) := ht
  exact congrArg Answer.text (Naming.spelling_of_extends_record hrecord)

/-- The same, for a label that is written: it comes after the text before. -/
theorem perform_writeLabel (h : (Step.writeLabel n v).perform s = .ok (a, s'))
    (ht : t.Extends s'.table) : a = .text (s.text ++ n.spelling v (t.vars.idxOf v)) := by
  change (s.numbering (n.writeLabel v s.text)).map
    (fun r => (Answer.text r.1, { r.2 with text := r.1 })) = _ at h
  rw [numbering_apply, Naming.writeLabel_apply] at h
  obtain ⟨r, hr, hanswer⟩ := map_eq_ok_iff.mp h
  obtain ⟨r', hr', rfl⟩ := map_eq_ok_iff.mp hr
  obtain ⟨-, -, rfl⟩ := map_eq_ok_iff.mp hr'
  cases hanswer
  have hrecord : t.Extends (n.record v s.table) := ht
  exact congrArg (fun l => Answer.text (s.text ++ l)) (Naming.spelling_of_extends_record hrecord)

end

/-- **Labels and numbers stay.** In a session without a load, from any state, there is for each
    strategy and each variable one label: every step that asks for the label answers with it, and every
    step that writes the label answers with it after the text before, wherever in the session the step
    stands. And a number that a variable has at some moment it has at every later one. Of a session that
    fails this holds up to the fault, as the steps before it are a session themselves. -/
theorem exists_label_run {steps : List Step} (h : ∀ key, .load key ∉ steps) {s s' : Session}
    {notes : List Note} (hrun : run steps s = .ok (notes, s')) :
    (∀ (n : Naming) (v : Var), ∃ l : String, ∀ before after,
      (steps = before ++ .label n v :: after →
        notes[before.length]?.map Note.answer = some (.text l)) ∧
      (steps = before ++ .writeLabel n v :: after →
        ∃ notes₁ s₁, run before s = .ok (notes₁, s₁) ∧
          notes[before.length]?.map Note.answer = some (.text (s₁.text ++ l)))) ∧
    (∀ (v : Var) (i : Nat) (before between after : List Step),
      steps = before ++ between ++ after →
        ∃ notes₁ s₁ notes₂ s₂, run before s = .ok (notes₁, s₁) ∧
          run (before ++ between) s = .ok (notes₂, s₂) ∧
          (s₁.table.get? v = some i → s₂.table.get? v = some i)) := by
  refine ⟨fun n v => ⟨n.spelling v (s'.table.vars.idxOf v), fun before after => ?_⟩, ?_⟩
  · have hafter : ∀ step, steps = before ++ step :: after → ∀ key, .load key ∉ after :=
      fun step hsteps key hmem =>
        h key (hsteps ▸ List.mem_append_right before (List.mem_cons_of_mem step hmem))
    constructor
    · rintro rfl
      obtain ⟨notes₁, s₁, a, s₂, notes₂, -, hstep, hrest, hanswer⟩ := exists_perform_of_run hrun
      rw [hanswer, perform_label hstep (extends_run (hafter _ rfl) hrest)]
    · rintro rfl
      obtain ⟨notes₁, s₁, a, s₂, notes₂, hbefore, hstep, hrest, hanswer⟩ :=
        exists_perform_of_run hrun
      refine ⟨notes₁, s₁, hbefore, ?_⟩
      rw [hanswer, perform_writeLabel hstep (extends_run (hafter _ rfl) hrest)]
  · rintro v i before between after rfl
    have hbetween : ∀ key, .load key ∉ between := fun key hmem =>
      h key (List.mem_append_left after (List.mem_append_right before hmem))
    obtain ⟨notes₂, s₂, -, hlater, -, -⟩ := exists_run_of_append hrun
    obtain ⟨notes₁, s₁, notes₃, hearlier, hgrown, -⟩ := exists_run_of_append hlater
    refine ⟨notes₁, s₁, notes₂, s₂, hearlier, hlater, fun hget => ?_⟩
    exact (extends_run hbetween hgrown).get?_eq_some hget

/-- A strategy that writes the label twice, around a comment; the first label numbers the variable
    itself, the others come after labels under other strategies. -/
theorem exists_label_run_mixed :
    let n : Naming := .append .unique (.append (.comment .qualified) .unique)
    let v : Var := .external "M" "f"
    let steps : List Step :=
      [.label n v, .label .compact (.internal "x"), .writeLabel .pretty (.external "N" "g"),
        .save "k", .fill "y" 0 3, .writeLabel n v, .label n v]
    (∀ key, .load key ∉ steps) ∧ ∃ notes s', run steps start = .ok (notes, s') ∧
      ∃ l, notes[0]?.map Note.answer = some (.text l) ∧
        notes[5]?.map Note.answer = some (.text ("_2/*N.g*/" ++ l)) ∧
        notes[6]?.map Note.answer = some (.text l) := by
  intro n v steps
  have hload : ∀ key, .load key ∉ steps := by
    intro key
    simp [steps]
  have hok : (run steps start).isOk = true := by decide +kernel
  obtain ⟨r, hrun⟩ := exists_of_isOk hok
  obtain ⟨l, hl⟩ := (exists_label_run hload hrun).1 n v
  have htext : (run (steps.take 5) start).map (·.2.text) = .ok "_2/*N.g*/" := by decide +kernel
  obtain ⟨notes₁, s₁, hbefore, hwritten⟩ := (hl (steps.take 5) [.label n v]).2 rfl
  rw [hbefore] at htext
  have htext : s₁.text = "_2/*N.g*/" := Except.ok.inj htext
  rw [htext] at hwritten
  exact ⟨hload, r.1, r.2, hrun, l, (hl [] _).1 rfl, hwritten, (hl (steps.take 6) []).1 rfl⟩

end Session

end Emission
