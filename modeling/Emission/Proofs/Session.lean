import Emission.NameTable.Session
import Emission.Proofs.Spelling

/-!
# Sessions

What a session does to its tables, over every sequence of steps.

* A table answers the same in both directions, and its numbers are exactly those below its size
  (`NameTable.Consistent`); so does every table that a session holds.
* What gives out numbers enlists the variables that ask for one, in order, and no others, and fails
  exactly where there would be more of them than numbers (`Numbering.Enlists`). So does a step of a
  session, other than a load (`enlisted_perform`, `perform_eq_error_iff`): what a whole session without loads
  has numbered are the first occurrences among these (`vars_run`), and it fails exactly where these are
  too many (`exists_run_iff`).
* A saved table stays as it was saved until something else is saved under its name
  (`saved_get?_run`).
-/

namespace Emission

/-! ## 1. Consistent tables -/

/-- A table reads the same from variables to numbers and from numbers to variables, and allocating
    touches nothing that is there. -/
structure NameTable.Consistent (t : NameTable) : Prop where
  /-- No variable has two places in the order. -/
  nodup : t.order.toList.Nodup
  /-- The number of a variable is its place in the order. -/
  get?_iff : ∀ v i, t.get? v = some i ↔ t.order[i]? = some v
  /-- The numbers are exactly those below the size, and each belongs to one variable. -/
  existsUnique : ∀ i, i < t.size → ∃! v, t.get? v = some i
  lt_size : ∀ v i, t.get? v = some i → i < t.size
  /-- The entries are the pairs of a variable and its number, -/
  mem_entries_iff : ∀ v i, (v, i) ∈ t.entries ↔ t.get? v = some i
  /-- with the numbers counting up from 0. -/
  ids_entries : t.entries.map Prod.snd = List.range t.size
  isEmpty_iff : t.isEmpty = true ↔ t.size = 0
  /-- A variable with a number keeps it, the table stays as it is and nothing is reported. -/
  allocate_known : ∀ v i log, t.get? v = some i →
    Numbering.allocate v ⟨t, log⟩ = .ok (i, ⟨t, log⟩)
  /-- A variable without one gets the next number, as long as there is one; it is all that is added, and
      that is reported. -/
  allocate_new : ∀ v log, t.get? v = none → t.size < nameCapacity → ∃ u : NameTable,
    Numbering.allocate v ⟨t, log⟩ = .ok (t.size, ⟨u, log.push (.allocated v t.size)⟩) ∧
      u.order = t.order.push v
  /-- It gets none where all numbers are given out. -/
  allocate_full : ∀ v log, t.get? v = none → nameCapacity ≤ t.size →
    Numbering.allocate v ⟨t, log⟩ = .error (.namesExhausted t.size)

namespace NameTable

theorem existsUnique_get?_eq_some {t : NameTable} {i : Nat} (h : i < t.size) :
    ∃! v, t.get? v = some i := by
  have hi : t.order[i]? = some t.order[i] := Array.getElem?_eq_getElem h
  refine ⟨t.order[i], get?_eq_some_iff.mpr hi, fun v hv => ?_⟩
  have hv' : t.order[i]? = some v := get?_eq_some_iff.mp hv
  rw [hi] at hv'
  exact (Option.some.inj hv').symm

theorem mem_entries {t : NameTable} {v : Var} {i : Nat} :
    (v, i) ∈ t.entries ↔ t.get? v = some i := by
  rw [entries_eq_zipIdx, List.mk_mem_zipIdx_iff_getElem?, get?_eq_some_iff_vars]

theorem map_snd_entries (t : NameTable) : t.entries.map Prod.snd = List.range t.size := by
  rw [entries_eq_zipIdx, List.zipIdx_map_snd, ← List.range_eq_range', size_eq_length]

/-- **Every table is consistent**, since its two directions agree and an allocation keeps them in
    agreement. -/
theorem consistent (t : NameTable) : t.Consistent where
  nodup := t.nodup_vars
  get?_iff _ _ := get?_eq_some_iff
  existsUnique _ h := existsUnique_get?_eq_some h
  lt_size _ _ h := lt_size_of_get?_eq_some h
  mem_entries_iff _ _ := mem_entries
  ids_entries := t.map_snd_entries
  isEmpty_iff := t.isEmpty_iff
  allocate_known _ _ log h := Numbering.allocate_of_get?_eq_some h log
  allocate_new v log h hroom :=
    ⟨t.enter v, Numbering.allocate_of_get?_eq_none h hroom log, order_enter_of_get?_eq_none h⟩
  allocate_full _ log h hfull := Numbering.allocate_of_full h hfull log

end NameTable

/-! ## 2. Giving out numbers -/

theorem length_le_foldl_enlist (vs ws : List Var) : vs.length ≤ (ws.foldl enlist vs).length :=
  (prefix_foldl_enlist vs ws).length_le

namespace Numbering

variable {α β : Type}

/-- The computation enlists the variables, in order. It fails exactly where there would be more
    variables than numbers, begun with no more. -/
structure Enlists (act : Numbering α) (vs : List Var) : Prop where
  vars : ∀ {l l' : Ledger} {a : α}, act l = .ok (a, l') →
    l'.table.vars = vs.foldl enlist l.table.vars
  fails : ∀ {l : Ledger}, l.table.size ≤ nameCapacity → ∀ e,
    act l = .error e ↔
      e = .namesExhausted nameCapacity ∧ nameCapacity < (vs.foldl enlist l.table.vars).length

theorem Enlists.size_le {act : Numbering α} {vs : List Var} (h : act.Enlists vs) {l l' : Ledger} {a : α}
    (hl : l.table.size ≤ nameCapacity) (hact : act l = .ok (a, l')) :
    l'.table.size ≤ nameCapacity := by
  rw [NameTable.size_eq_length, h.vars hact]
  by_contra hlt
  have hfail := (h.fails hl _).mpr ⟨rfl, Nat.lt_of_not_le hlt⟩
  cases hact.symm.trans hfail

/-- Where nothing is done to the table, nothing is enlisted. -/
theorem enlists_nil {act : Numbering α} {f : Ledger → α} (h : ∀ l, act l = .ok (f l, l)) :
    act.Enlists [] where
  vars {l l' a} hact := by
    cases (h l).symm.trans hact
    rfl
  fails {l} hl e := by
    rw [h]
    refine ⟨fun hfail => ?_, fun hfail => ?_⟩
    · cases hfail
    · exact absurd hfail.2 (Nat.not_lt.mpr (l.table.size_eq_length ▸ hl))

/-- Where one variable is entered, if there is room, it is enlisted. -/
theorem enlists_singleton {act : Numbering α} {f : Ledger → α} {v : Var}
    (h : ∀ l, act l = (l.table.room v).map fun _ => (f l, l.enter v)) : act.Enlists [v] where
  vars {l l' a} hact := by
    rw [h] at hact
    obtain ⟨-, -, hentered⟩ := map_eq_ok_iff.mp hact
    cases hentered
    exact l.table.vars_enter v
  fails {l} hl e := by
    rw [h, map_eq_error_iff, NameTable.room_eq_error_iff, List.foldl_cons, List.foldl_nil]
    rw [NameTable.size_eq_length] at hl ⊢
    by_cases hv : v ∈ l.table.vars
    · rw [enlist_of_mem hv]
      exact ⟨fun hfull => absurd hv hfull.2.2, fun hlong => absurd hlong.2 (Nat.not_lt.mpr hl)⟩
    · rw [enlist_of_notMem hv, List.length_append, List.length_singleton]
      constructor
      · rintro ⟨rfl, hfull, -⟩
        exact ⟨congrArg _ (Nat.le_antisymm hl hfull), by omega⟩
      · rintro ⟨rfl, hlong⟩
        exact ⟨congrArg _ (by omega), by omega, hv⟩

/-- **One after the other.** -/
theorem Enlists.bind {x : Numbering α} {f : α → Numbering β} {vs ws : List Var} (hx : x.Enlists vs)
    (hf : ∀ a, (f a).Enlists ws) : Enlists (x >>= f) (vs ++ ws) where
  vars {l l' b} h := by
    obtain ⟨r, hfirst, hrest⟩ := bind_eq_ok_iff.mp h
    have hvars : l'.table.vars = ws.foldl enlist r.2.table.vars := (hf r.1).vars hrest
    rw [hvars, hx.vars hfirst, List.foldl_append]
  fails {l} hl e := by
    change (do let r ← x l; f r.1 r.2) = _ ↔ _
    rw [List.foldl_append]
    cases hxl : x l with
    | error e' =>
      obtain ⟨rfl, hlong⟩ := (hx.fails hl e').mp hxl
      have hmore := Nat.lt_of_lt_of_le hlong (length_le_foldl_enlist _ ws)
      refine ⟨fun h => ?_, fun h => ?_⟩
      · cases h
        exact ⟨rfl, hmore⟩
      · rw [h.1]
        rfl
    | ok r =>
      have hrest := (hf r.1).fails (hx.size_le hl hxl) e
      rw [hx.vars hxl] at hrest
      exact hrest

theorem Enlists.map {x : Numbering α} {vs : List Var} (hx : x.Enlists vs) (f : α → β) :
    Enlists (do return f (← x)) vs := by
  have hpure : ∀ a, Enlists (pure (f a)) [] := fun a => enlists_nil fun _ => rfl
  have h := hx.bind hpure
  rwa [List.append_nil] at h

/-- **Writing a label enlists the variable, if its number is asked for.** -/
theorem enlists_writeLabel (n : Naming) (v : Var) (out : String) :
    (n.writeLabel v out).Enlists (if n.numbers v then [v] else []) := by
  cases hnum : n.numbers v with
  | false =>
    have hwrite : ∀ l, n.writeLabel v out l =
        .ok (out ++ n.spelling v (l.table.vars.idxOf v), l) := fun l => by
      rw [Naming.writeLabel_apply, Naming.room_of_not_numbers hnum,
        Naming.register_of_not_numbers hnum]
      rfl
    exact enlists_nil hwrite
  | true =>
    have hwrite : ∀ l, n.writeLabel v out l =
        (l.table.room v).map fun _ =>
          (out ++ n.spelling v (l.table.vars.idxOf v), l.enter v) := fun l => by
      rw [Naming.writeLabel_apply, Naming.room, if_pos hnum, Naming.register_of_numbers hnum]
    exact enlists_singleton hwrite

theorem enlists_allocate (v : Var) : (allocate v).Enlists [v] :=
  enlists_singleton (allocate_apply v)

/-- **Allocating for some variables enlists them.** -/
theorem enlists_allocateAll : ∀ vs : List Var, (allocateAll vs).Enlists vs
  | [] => enlists_nil fun _ => rfl
  | v :: vs =>
    (enlists_allocate v).bind fun i => (enlists_allocateAll vs).map fun is => i :: is

end Numbering

namespace Session

/-! ## 3. What one step does -/

/-- The variables whose numbers the step asks for, in order. -/
def Step.numbered : Step → List Var
  | allocate v => [v]
  | label naming v | writeLabel naming v => if naming.numbers v then [v] else []
  | fill stem first last => family stem first last
  | get _ | entries | save _ | load _ => []

/-- The table is the current one, or saved under some name. -/
def Holds (s : Session) (t : NameTable) : Prop :=
  t = s.table ∨ ∃ key, s.saved.get? key = some t

/-- The session with another ledger. -/
def withLedger (s : Session) (l : Ledger) : Session :=
  { s with table := l.table, log := l.log }

/-- Giving out numbers changes the ledger of a session and nothing else. -/
theorem numbering_apply {α : Type} (act : Numbering α) (s : Session) :
    s.numbering act = (act ⟨s.table, s.log⟩).map fun r => (r.1, s.withLedger r.2) := by
  change (do let r ← act ⟨s.table, s.log⟩; _) = _
  cases act ⟨s.table, s.log⟩ <;> rfl

/-- What comes of a step in the session `s`: the variables are enlisted in its table, or else there are
    too many. -/
structure Enlisted (s : Session) (vs : List Var) (x : Except Fault (Answer × Session)) : Prop where
  vars : ∀ {a s'}, x = .ok (a, s') → s'.table.vars = vs.foldl enlist s.table.vars
  fails : s.table.size ≤ nameCapacity → ∀ e, x = .error e ↔
    e = .namesExhausted nameCapacity ∧ nameCapacity < (vs.foldl enlist s.table.vars).length

/-- Where numbers are given out, those variables are enlisted that ask for them. -/
theorem enlisted_numbering {α : Type} {act : Numbering α} {vs : List Var} (hact : act.Enlists vs)
    (s : Session) (f : α × Session → Answer × Session) (hf : ∀ r, (f r).2.table = r.2.table) :
    s.Enlisted vs ((s.numbering act).map f) := by
  rw [numbering_apply]
  constructor
  · intro a s' h
    obtain ⟨t, ht, hft⟩ := map_eq_ok_iff.mp h
    obtain ⟨r, hr, rfl⟩ := map_eq_ok_iff.mp ht
    have htable := hf (r.1, s.withLedger r.2)
    rw [hft] at htable
    exact (congrArg NameTable.vars htable).trans (hact.vars hr)
  · intro hs e
    rw [map_eq_error_iff, map_eq_error_iff]
    exact hact.fails (l := ⟨s.table, s.log⟩) hs e

/-- Where the table is left alone, nothing is enlisted. -/
theorem enlisted_ok {s s' : Session} (h : s'.table = s.table) (a : Answer) :
    s.Enlisted [] (.ok (a, s')) where
  vars hok := by
    cases hok
    rw [h]
    rfl
  fails hs e := by
    refine ⟨fun hfail => ?_, fun hfail => ?_⟩
    · cases hfail
    · exact absurd hfail.2 (Nat.not_lt.mpr (s.table.size_eq_length ▸ hs))

/-- **A step that loads nothing enlists the variables whose numbers it asks for.** -/
theorem enlisted_perform (s : Session) {step : Step} (h : ∀ key, step ≠ .load key) :
    s.Enlisted step.numbered (step.perform s) := by
  cases step with
  | allocate v =>
    exact enlisted_numbering (Numbering.enlists_allocate v) s (fun r => (.id r.1, r.2)) fun _ => rfl
  | label naming v =>
    exact enlisted_numbering (Numbering.enlists_writeLabel naming v "") s
      (fun r => (.text r.1, r.2)) fun _ => rfl
  | writeLabel naming v =>
    exact enlisted_numbering (Numbering.enlists_writeLabel naming v s.text) s
      (fun r => (.text r.1, { r.2 with text := r.1 })) fun _ => rfl
  | fill stem first last =>
    exact enlisted_numbering (Numbering.enlists_allocateAll (family stem first last)) s
      (fun r => (.ends (ends r.1), r.2)) fun _ => rfl
  | get v =>
    exact enlisted_ok rfl (.id? (s.table.get? v))
  | entries => exact enlisted_ok rfl (.entries s.table.entries)
  | save key =>
    have htable : { s with saved := s.saved.put key s.table }.table = s.table := rfl
    exact enlisted_ok htable .done
  | load key => exact absurd rfl (h key)

/-- A step that does not save leaves everything saved as it is. -/
theorem saved_perform {s s' : Session} {step : Step} {a : Answer} (h : ∀ key, step ≠ .save key)
    (hstep : step.perform s = .ok (a, s')) : s'.saved = s.saved := by
  have hnumbering : ∀ {α : Type} (act : Numbering α) (f : α × Session → Answer × Session),
      (∀ r, (f r).2.saved = r.2.saved) → (s.numbering act).map f = .ok (a, s') →
      s'.saved = s.saved := by
    intro α act f hf hrun
    rw [numbering_apply] at hrun
    obtain ⟨t, ht, hft⟩ := map_eq_ok_iff.mp hrun
    obtain ⟨r, -, rfl⟩ := map_eq_ok_iff.mp ht
    have hsaved := hf (r.1, s.withLedger r.2)
    rw [hft] at hsaved
    exact hsaved
  cases step with
  | allocate v => exact hnumbering (Numbering.allocate v) (fun r => (.id r.1, r.2)) (fun _ => rfl) hstep
  | label naming v => exact hnumbering (naming.label v) (fun r => (.text r.1, r.2)) (fun _ => rfl) hstep
  | writeLabel naming v =>
    exact hnumbering (naming.writeLabel v s.text)
      (fun r => (.text r.1, { r.2 with text := r.1 })) (fun _ => rfl) hstep
  | fill stem first last =>
    exact hnumbering (Numbering.allocateAll (family stem first last))
      (fun r => (.ends (ends r.1), r.2)) (fun _ => rfl) hstep
  | get | entries | load =>
    cases hstep
    rfl
  | save key => exact absurd rfl (h key)

/-- **A step leaves alone what is saved under a name, unless it saves under that name.** -/
theorem saved_get?_perform {s s' : Session} {step : Step} {a : Answer} {key : String}
    (h : step ≠ .save key) (hstep : step.perform s = .ok (a, s')) :
    s'.saved.get? key = s.saved.get? key := by
  by_cases hsave : ∃ other, step = .save other
  · obtain ⟨other, rfl⟩ := hsave
    have hne : key ≠ other := fun e => h (e ▸ rfl)
    cases hstep
    rw [Shelf.get?_put, if_neg hne]
  · rw [saved_perform (fun other hother => hsave ⟨other, hother⟩) hstep]

/-- **A step fails exactly where it asks for more numbers than there are.** -/
theorem perform_eq_error_iff {s : Session} (hs : s.table.size ≤ nameCapacity) (step : Step)
    (e : Fault) :
    step.perform s = .error e ↔ e = .namesExhausted nameCapacity ∧
      nameCapacity < (step.numbered.foldl enlist s.table.vars).length := by
  by_cases hload : ∃ key, step = .load key
  · obtain ⟨key, rfl⟩ := hload
    refine ⟨fun h => ?_, fun h => ?_⟩
    · cases h
    · exact absurd h.2 (Nat.not_lt.mpr (s.table.size_eq_length ▸ hs))
  · exact (enlisted_perform s fun key hkey => hload ⟨key, hkey⟩).fails hs e

/-- No table of the session has more variables than there are numbers. -/
def Bounded (s : Session) : Prop :=
  ∀ t, s.Holds t → t.size ≤ nameCapacity

theorem bounded_start : start.Bounded := by
  rintro t (rfl | ⟨key, hkey⟩)
  · exact Nat.zero_le nameCapacity
  · cases hkey

/-- A step that loads nothing leaves the current table with no more variables than numbers. -/
theorem size_perform_le {s s' : Session} {step : Step} {a : Answer} (h : ∀ key, step ≠ .load key)
    (hs : s.table.size ≤ nameCapacity) (hstep : step.perform s = .ok (a, s')) :
    s'.table.size ≤ nameCapacity := by
  have henlisted := enlisted_perform s h
  rw [NameTable.size_eq_length, henlisted.vars hstep]
  by_contra hlong
  have hfail := (henlisted.fails hs _).mpr ⟨rfl, Nat.lt_of_not_le hlong⟩
  cases hstep.symm.trans hfail

/-- **No step makes a table too large.** -/
theorem Bounded.perform {s s' : Session} (hs : s.Bounded) {step : Step} {a : Answer}
    (hstep : step.perform s = .ok (a, s')) : s'.Bounded := by
  have hcurrent : s.table.size ≤ nameCapacity := hs s.table (.inl rfl)
  have hsaved : ∀ key t, s.saved.get? key = some t → t.size ≤ nameCapacity :=
    fun key t hkey => hs t (.inr ⟨key, hkey⟩)
  have htable : s'.table.size ≤ nameCapacity := by
    by_cases hload : ∃ key, step = .load key
    · obtain ⟨key, rfl⟩ := hload
      cases hstep
      show ((s.saved.get? key).getD .empty).size ≤ nameCapacity
      cases hkey : s.saved.get? key with
      | none => exact Nat.zero_le nameCapacity
      | some t => exact hsaved key t hkey
    · exact size_perform_le (fun key hkey => hload ⟨key, hkey⟩) hcurrent hstep
  rintro t (rfl | ⟨key, hkey⟩)
  · exact htable
  · by_cases hsave : step = .save key
    · subst hsave
      cases hstep
      rw [Shelf.get?_put, if_pos rfl] at hkey
      cases hkey
      exact hcurrent
    · rw [saved_get?_perform hsave hstep] at hkey
      exact hsaved key t hkey

/-! ## 4. Whole sessions -/

theorem run_cons (step : Step) (steps : List Step) (s : Session) :
    run (step :: steps) s =
      (do
        let (a, s') ← step.perform s
        (run steps s').map fun r => (⟨a, s'.table.size, s'.table.isEmpty⟩ :: r.1, r.2)) := by
  rw [run, Step.run]
  cases step.perform s with
  | error e => rfl
  | ok r =>
    change (do let r' ← run steps r.2; _) = (run steps r.2).map _
    cases run steps r.2 <;> rfl

/-- **A session that does not fail has done its first step**, and then the rest. -/
theorem run_cons_eq_ok_iff {step : Step} {steps : List Step} {s s' : Session} {notes : List Note} :
    run (step :: steps) s = .ok (notes, s') ↔
      ∃ a s₁ rest, step.perform s = .ok (a, s₁) ∧ run steps s₁ = .ok (rest, s') ∧
        notes = ⟨a, s₁.table.size, s₁.table.isEmpty⟩ :: rest := by
  rw [run_cons, bind_eq_ok_iff]
  constructor
  · intro h
    obtain ⟨⟨a, s₁⟩, hstep, h⟩ := h
    obtain ⟨⟨rest, s₂⟩, hrest, heq⟩ := map_eq_ok_iff.mp h
    cases heq
    exact ⟨a, s₁, rest, hstep, hrest, rfl⟩
  · intro h
    obtain ⟨a, s₁, rest, hstep, hrest, rfl⟩ := h
    exact ⟨(a, s₁), hstep, map_eq_ok_iff.mpr ⟨(rest, s'), hrest, rfl⟩⟩

/-- **What every step keeps, a session keeps.** -/
theorem run_induction {P : Session → Prop} {steps : List Step} {s s' : Session} {notes : List Note}
    (hstep : ∀ step ∈ steps, ∀ s a s', P s → step.perform s = .ok (a, s') → P s') (hs : P s)
    (h : run steps s = .ok (notes, s')) : P s' := by
  induction steps generalizing s notes with
  | nil =>
    cases h
    exact hs
  | cons step steps ih =>
    obtain ⟨a, s₁, rest, hfirst, hrest, -⟩ := run_cons_eq_ok_iff.mp h
    exact ih (fun step' hmem => hstep step' (List.mem_cons_of_mem step hmem))
      (hstep step List.mem_cons_self s a s₁ hs hfirst) hrest

/-- **A saved table is out of reach of all steps that save nothing under its name.** -/
theorem saved_get?_run {key : String} {steps : List Step} (h : .save key ∉ steps) {s s' : Session}
    {notes : List Note} (hrun : run steps s = .ok (notes, s')) :
    s'.saved.get? key = s.saved.get? key := by
  refine run_induction (P := fun t => t.saved.get? key = s.saved.get? key)
    (fun step hmem t a t' ht hstep => ?_) rfl hrun
  rw [saved_get?_perform (fun e => h (e ▸ hmem)) hstep, ht]

/-- **Without a load, a session enlists all the variables whose numbers its steps ask for.** -/
theorem vars_run {steps : List Step} (h : ∀ key, .load key ∉ steps) {s s' : Session}
    {notes : List Note} (hrun : run steps s = .ok (notes, s')) :
    s'.table.vars = (steps.flatMap Step.numbered).foldl enlist s.table.vars := by
  induction steps generalizing s notes with
  | nil =>
    cases hrun
    rfl
  | cons step steps ih =>
    have hstep : ∀ key, step ≠ .load key := fun key e => h key (e ▸ List.mem_cons_self)
    have hsteps : ∀ key, .load key ∉ steps := fun key hm => h key (List.mem_cons_of_mem step hm)
    obtain ⟨a, s₁, rest, hfirst, hrest, -⟩ := run_cons_eq_ok_iff.mp hrun
    rw [ih hsteps hrest, (enlisted_perform s hstep).vars hfirst, List.flatMap_cons,
      List.foldl_append]

/-- **Without a load, a session fails exactly where more variables ask for a number than there are
    numbers.** -/
theorem exists_run_iff {steps : List Step} (h : ∀ key, .load key ∉ steps) {s : Session}
    (hs : s.Bounded) :
    (∃ r, run steps s = .ok r) ↔
      ((steps.flatMap Step.numbered).foldl enlist s.table.vars).length ≤ nameCapacity := by
  induction steps generalizing s with
  | nil =>
    have hsize := hs s.table (.inl rfl)
    rw [NameTable.size_eq_length] at hsize
    exact ⟨fun _ => hsize, fun _ => ⟨([], s), rfl⟩⟩
  | cons step steps ih =>
    have hstep : ∀ key, step ≠ .load key := fun key e => h key (e ▸ List.mem_cons_self)
    have hsteps : ∀ key, .load key ∉ steps := fun key hm => h key (List.mem_cons_of_mem step hm)
    rw [List.flatMap_cons, List.foldl_append]
    cases hfirst : step.perform s with
    | error e =>
      have hlong := ((perform_eq_error_iff (hs s.table (.inl rfl)) step e).mp hfirst).2
      have hmore := length_le_foldl_enlist (step.numbered.foldl enlist s.table.vars)
        (steps.flatMap Step.numbered)
      constructor
      · rintro ⟨⟨notes, s'⟩, hrun⟩
        obtain ⟨a, s₁, rest, hok, -⟩ := run_cons_eq_ok_iff.mp hrun
        cases hfirst.symm.trans hok
      · intro hshort
        omega
    | ok r =>
      rw [← (enlisted_perform s hstep).vars hfirst, ← ih hsteps (hs.perform hfirst), run_cons,
        hfirst]
      show (∃ r', (run steps r.2).map _ = .ok r') ↔ _
      constructor
      · rintro ⟨r', hr'⟩
        obtain ⟨r₂, hr₂, -⟩ := map_eq_ok_iff.mp hr'
        exact ⟨r₂, hr₂⟩
      · rintro ⟨r₂, hr₂⟩
        exact ⟨_, map_eq_ok_iff.mpr ⟨r₂, hr₂, rfl⟩⟩

/-! ## 5. From the start -/

/-- What holds of a session at every moment. -/
structure Orderly (s : Session) : Prop where
  /-- The current table and every saved one are consistent. -/
  consistent : ∀ t, s.Holds t → t.Consistent
  /-- None has more variables than there are numbers. -/
  size_le : ∀ t, s.Holds t → t.size ≤ nameCapacity
  /-- Allocating a known variable answers with its number and changes nothing. -/
  allocate_known : ∀ v i, s.table.get? v = some i → (Step.allocate v).perform s = .ok (.id i, s)
  /-- Allocating a new one answers with the size and puts that variable at the end of the order of the
      current table, as long as there is a number left. -/
  allocate_new : ∀ v, s.table.get? v = none → s.table.size < nameCapacity → ∃ s',
    (Step.allocate v).perform s = .ok (.id s.table.size, s') ∧
      s'.table.order = s.table.order.push v ∧ s'.saved = s.saved
  /-- It fails when all numbers are given out. -/
  allocate_full : ∀ v, s.table.get? v = none → s.table.size = nameCapacity →
    (Step.allocate v).perform s = .error (.namesExhausted nameCapacity)
  /-- Saving keeps the current table. -/
  save : ∀ key, ∃ s', (Step.save key).perform s = .ok (.done, s') ∧ s'.table = s.table ∧
    s'.saved.get? key = some s.table
  /-- What is saved under a name stays the same through all later steps but those that save under it. -/
  saved : ∀ key later notes s', .save key ∉ later → run later s = .ok (notes, s') →
    s'.saved.get? key = s.saved.get? key
  /-- Loading brings it back, or else an empty table. -/
  load : ∀ key, ∃ s', (Step.load key).perform s = .ok (.done, s') ∧
    s'.table = (s.saved.get? key).getD .empty
  /-- A step fails exactly where more variables would have a number than there are numbers. -/
  fails_iff : ∀ (step : Step) (e : Fault), step.perform s = .error e ↔
    e = .namesExhausted nameCapacity ∧
      nameCapacity < (step.numbered.foldl enlist s.table.vars).length

theorem perform_allocate (s : Session) (v : Var) :
    (Step.allocate v).perform s =
      (Numbering.allocate v ⟨s.table, s.log⟩).map fun r => (.id r.1, s.withLedger r.2) := by
  change (do let r ← s.numbering (Numbering.allocate v); _) = _
  rw [numbering_apply]
  cases Numbering.allocate v ⟨s.table, s.log⟩ <;> rfl

/-- **A session with no table too large is in order.** -/
theorem Bounded.orderly {s : Session} (hs : s.Bounded) : s.Orderly where
  consistent t _ := t.consistent
  size_le := hs
  allocate_known v i h := by
    rw [perform_allocate, Numbering.allocate_of_get?_eq_some h]
    rfl
  allocate_new v h hroom := by
    rw [perform_allocate, Numbering.allocate_of_get?_eq_none h hroom]
    exact ⟨_, rfl, NameTable.order_enter_of_get?_eq_none h, rfl⟩
  allocate_full v h hfull := by
    rw [perform_allocate, Numbering.allocate_of_full h (Nat.le_of_eq hfull.symm), hfull]
    rfl
  save key := ⟨_, rfl, rfl, by rw [Shelf.get?_put, if_pos rfl]⟩
  saved key later notes s' h hrun := saved_get?_run h hrun
  load key := ⟨_, rfl, rfl⟩
  fails_iff step e := perform_eq_error_iff (hs s.table (.inl rfl)) step e

end Session

end Emission
