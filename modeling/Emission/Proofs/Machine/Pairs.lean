import Emission.Proofs.Machine

/-!
# Two runs side by side

Two computations match when both fail for the same reason, or both succeed and what they give is
related (`Matches`). Two machines that do the same moves, or moves that differ in a way that is
known, match in the end if they match from each move to the next (`Machine.matches_run`); and so do
they if one leaves out some moves of the other, which do nothing that matters to them
(`Machine.matches_run_filter`).
-/

namespace Emission

variable {α β α' β' : Type}

/-- Both fail for the same reason, or both succeed and are related. -/
inductive Matches (R : α → β → Prop) : Except Fault α → Except Fault β → Prop where
  | error (e : Fault) : Matches R (.error e) (.error e)
  | ok {a : α} {b : β} (h : R a b) : Matches R (.ok a) (.ok b)

namespace Matches

variable {R : α → β → Prop} {S : α' → β' → Prop}

/-- Computations that go on from related results match if they do from there. -/
theorem bind_of_ok {x : Except Fault α} {y : Except Fault β} {f : α → Except Fault α'}
    {g : β → Except Fault β'} (h : Matches R x y)
    (hfg : ∀ a b, x = .ok a → R a b → Matches S (f a) (g b)) : Matches S (x >>= f) (y >>= g) := by
  cases h with
  | error e => exact .error e
  | ok hab => exact hfg _ _ rfl hab

/-- The same, where it does not matter which results these are. -/
theorem bind {x : Except Fault α} {y : Except Fault β} {f : α → Except Fault α'}
    {g : β → Except Fault β'} (h : Matches R x y) (hfg : ∀ a b, R a b → Matches S (f a) (g b)) :
    Matches S (x >>= f) (y >>= g) :=
  h.bind_of_ok fun a b _ => hfg a b

/-- What is done to one result in two ways. -/
theorem map_self {γ : Type} (x : Except Fault γ) {f : γ → α} {g : γ → β} (hfg : ∀ a, R (f a) (g a)) :
    Matches R (x.map f) (x.map g) := by
  cases x with
  | error e => exact .error e
  | ok a => exact .ok (hfg a)

/-- What is done to the first result only. -/
theorem map_left {x : Except Fault α} {y : Except Fault β} {T : α' → β → Prop} {f : α → α'}
    (h : Matches R x y) (hf : ∀ a b, R a b → T (f a) b) : Matches T (x.map f) y := by
  cases h with
  | error e => exact .error e
  | ok hab => exact .ok (hf _ _ hab)

/-- **What is the same of results that are related** is the same of the computations. -/
theorem map_eq {γ : Type} {x : Except Fault α} {y : Except Fault β} {f : α → γ} {g : β → γ}
    (h : Matches R x y) (hfg : ∀ a b, R a b → f a = g b) : x.map f = y.map g := by
  cases h with
  | error e => rfl
  | ok hab => exact congrArg Except.ok (hfg _ _ hab)

theorem of_map {x : Except Fault α} {y : Except Fault β} {f : α → α'} {g : β → β'}
    (h : Matches S (x.map f) (y.map g)) (hfg : ∀ a b, S (f a) (g b) → R a b) : Matches R x y := by
  cases x with
  | error e =>
    cases y with
    | error e' =>
      cases h
      exact .error e
    | ok b => cases h
  | ok a =>
    cases y with
    | error e' => cases h
    | ok b =>
      cases h with
      | ok hab => exact .ok (hfg a b hab)

theorem swap {x : Except Fault α} {y : Except Fault β} (h : Matches R x y) :
    Matches (fun b a => R a b) y x := by
  cases h with
  | error e => exact .error e
  | ok hab => exact .ok hab

/-- What is related are the results that there are. -/
theorem and_ok {x : Except Fault α} {y : Except Fault β} (h : Matches R x y) :
    Matches (fun a b => R a b ∧ x = .ok a ∧ y = .ok b) x y := by
  cases h with
  | error e => exact .error e
  | ok hab => exact .ok ⟨hab, rfl, rfl⟩

/-- Computations that both match a third match. -/
theorem trans {x : Except Fault α} {y : Except Fault β} {z : Except Fault β'} {S : β → β' → Prop}
    (hxy : Matches R x y) (hyz : Matches S y z) :
    Matches (fun a c => ∃ b, R a b ∧ S b c) x z := by
  cases hxy with
  | error e =>
    cases hyz
    exact .error e
  | ok hab =>
    cases hyz with
    | ok hbc => exact .ok ⟨_, hab, hbc⟩

theorem mono {x : Except Fault α} {y : Except Fault β} {R' : α → β → Prop} (h : Matches R x y)
    (hR : ∀ a b, R a b → R' a b) : Matches R' x y := by
  cases h with
  | error e => exact .error e
  | ok hab => exact .ok (hR _ _ hab)

theorem exists_of_ok {a : α} {x : Except Fault α} {y : Except Fault β} (h : Matches R x y)
    (hx : x = .ok a) : ∃ b, y = .ok b ∧ R a b := by
  subst hx
  cases h with
  | ok hab => exact ⟨_, rfl, hab⟩

theorem eq_error_iff {x : Except Fault α} {y : Except Fault β} (h : Matches R x y) {e : Fault} :
    x = .error e ↔ y = .error e := by
  cases h with
  | error e' =>
    constructor
    · intro hx
      cases hx
      rfl
    · intro hy
      cases hy
      rfl
  | ok hab =>
    constructor
    · intro hx
      cases hx
    · intro hy
      cases hy

end Matches

/-- **Machines that match from each move to the next match at the end of the run.** The second does
    the moves of the first, each changed by `f`. -/
theorem Machine.matches_run {R : Machine → Machine → Prop} {f : Move → Move}
    (hstep : ∀ mv m m', R m m' → Matches R (mv.exec m) ((f mv).exec m')) (mvs : List Move)
    {m m' : Machine} (h : R m m') : Matches R (run mvs m) (run (mvs.map f) m') := by
  induction mvs generalizing m m' with
  | nil => exact .ok h
  | cons mv mvs ih =>
    rw [List.map_cons, run_cons, run_cons]
    exact (hstep mv m m' h).bind fun n n' hn => ih hn

/-- **Runs end alike**, or both fail to, where as many bytes were written. -/
theorem Context.matches_finish {c c' : Context} {a : α} {b : β} {S : Outcome α → Outcome β → Prop}
    (hbytes : c'.output.bytes = c.output.bytes) (h : S (c.outcome a).leave (c'.outcome b).leave) :
    Matches S ((c.finish a).map .leave) ((c'.finish b).map .leave) := by
  rw [finish_eq, finish_eq, hbytes]
  split
  · exact .error .capacityOverflow
  · exact .ok h

/-- Machines that match end in outcomes that match. -/
theorem Matches.finish {R : Machine → Machine → Prop} {S : Outcome Notebook → Outcome Notebook → Prop}
    {x y : Except Fault Machine} (h : Matches R x y)
    (hbytes : ∀ m m', R m m' → m'.context.output.bytes = m.context.output.bytes)
    (houtcome : ∀ m m', R m m' → S m.outcome m'.outcome) :
    Matches S (x >>= Machine.finish) (y >>= Machine.finish) :=
  h.bind fun m m' hm => Context.matches_finish (hbytes m m' hm) (houtcome m m' hm)

/-- **Machines that match from each move to the next, where the second leaves some moves out**, match
    at the end of the run. What the second leaves out must not fail in the first. -/
theorem Machine.matches_run_filter {R : Machine → Machine → Prop} {kept : Move → Bool}
    (hkept : ∀ mv, kept mv = true → ∀ m m', R m m' → Matches R (mv.exec m) (mv.exec m'))
    (hleft : ∀ mv, kept mv = false → ∀ m m', R m m' → ∃ n, mv.exec m = .ok n ∧ R n m')
    (mvs : List Move) {m m' : Machine} (h : R m m') :
    Matches R (run mvs m) (run (mvs.filter kept) m') := by
  induction mvs generalizing m m' with
  | nil => exact .ok h
  | cons mv mvs ih =>
    cases hmv : kept mv with
    | true =>
      rw [List.filter_cons_of_pos hmv, run_cons, run_cons]
      exact (hkept mv hmv m m' h).bind fun n n' hn => ih hn
    | false =>
      obtain ⟨n, hexec, hn⟩ := hleft mv hmv m m' h
      rw [List.filter_cons_of_neg (Bool.eq_false_iff.mp hmv), run_cons, hexec]
      exact ih hn

end Emission
