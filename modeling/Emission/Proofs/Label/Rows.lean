import Emission.Proofs.Label.Codec
import Emission.Proofs.Spelling
import Emission.Render

/-!
# Labels in a row

Labels that are written one after another, with nothing between them, can be told apart again. One label
may be the beginning of another; but behind a label there comes an underscore, which is no digit, or
nothing, so what follows the underscore up to there is the numeral (`join_injective`).

A sequence of variables that are all numbered is written as the row of their labels under the strategy
`compact`, and changes nothing but the output (`Emit.render_of_numbered`). So the row tells the sequence
(`Emission.Label.rows_tell_apart`).
-/

namespace Emission

namespace Label

/-! ## 1. Rows of labels -/

/-- A row of labels begins with no letter and no digit. -/
theorem isAlphanum_head?_join (ns : List Nat) :
    ∀ c, (String.join (ns.map ofNat)).toList.head? = some c → c.isAlphanum = false := by
  cases ns with
  | nil =>
    intro c hc
    cases hc
  | cons n ns =>
    intro c hc
    rw [List.map_cons, String.join_cons, String.toList_append, toList_ofNat] at hc
    cases hc
    rfl

/-- **Rows of labels tell their numbers.** -/
theorem join_injective {ns ms : List Nat}
    (h : String.join (ns.map ofNat) = String.join (ms.map ofNat)) : ns = ms := by
  induction ns generalizing ms with
  | nil =>
    cases ms with
    | nil => rfl
    | cons m ms =>
      rw [List.map_cons, String.join_cons] at h
      exact absurd (String.append_eq_empty_iff.mp h.symm).1 (ofNat_ne_empty m)
  | cons n ns ih =>
    cases ms with
    | nil =>
      rw [List.map_cons, String.join_cons] at h
      exact absurd (String.append_eq_empty_iff.mp h).1 (ofNat_ne_empty n)
    | cons m ms =>
      rw [List.map_cons, List.map_cons, String.join_cons, String.join_cons] at h
      have hnm : n = m :=
        eq_of_ofNat_append_eq (isAlphanum_head?_join ns) (isAlphanum_head?_join ms) h
      subst hnm
      have hrest := String.append_right_inj _ |>.mp h
      rw [ih hrest]

/-- A row of labels is written, and comes after what was there. -/
theorem writeWords?_eq (ns : List UInt32) (out : String) :
    writeWords? ns out = some (out ++ String.join ((ns.map UInt32.toNat).map ofNat)) := by
  induction ns generalizing out with
  | nil => simp [writeWords?]
  | cons n ns ih =>
    have hcons : writeWords? (n :: ns) out = writeWord? n out >>= writeWords? ns := rfl
    rw [hcons, writeWord?_eq]
    show writeWords? ns (out ++ ofNat n.toNat) = _
    rw [ih, List.map_cons, List.map_cons, String.join_cons, String.append_assoc]

end Label

/-! ## 2. Rows of variables -/

section

variable {c : Context} (hnaming : c.config.naming = .compact)

include hnaming

/-- **A variable with a number is written by its label under `compact`**, and nothing but the output is
    changed. -/
theorem Emit.emitVar_of_numbered {v : Var} (hforeign : v.isForeign = false)
    (hv : v ∈ c.names.vars) :
    emitVar v c =
      .ok ((), { c with output := c.output.push (Label.ofNat (c.names.vars.idxOf v)) }) := by
  have hlabel : c.config.naming.label v ⟨c.names, c.log⟩ =
      .ok (Label.ofNat (c.names.vars.idxOf v), ⟨c.names, c.log⟩) := by
    rw [hnaming, Naming.label_of_mem fun _ => hv, Naming.compact, Naming.spelling_unique hforeign]
  rw [emitVar_apply, name_apply, hlabel]
  rfl

/-- **A sequence of variables with numbers is written as a row of labels.** -/
theorem Emit.render_of_numbered {vs : List Var}
    (hvs : ∀ v ∈ vs, v.isForeign = false ∧ v ∈ c.names.vars) :
    ∃ output, render vs c = .ok ((), { c with output }) ∧
      output.text = c.output.text ++ String.join ((vs.map c.names.vars.idxOf).map Label.ofNat) := by
  induction vs generalizing c with
  | nil => exact ⟨c.output, rfl, String.append_empty.symm⟩
  | cons v vs ih =>
    obtain ⟨hforeign, hv⟩ := hvs v List.mem_cons_self
    have hfirst := emitVar_of_numbered hnaming hforeign hv
    obtain ⟨output, hrest, htext⟩ :=
      ih (c := { c with output := c.output.push (Label.ofNat (c.names.vars.idxOf v)) }) hnaming
        fun w hw => hvs w (List.mem_cons_of_mem v hw)
    refine ⟨output, ?_, ?_⟩
    · change (emitVar v c >>= fun r => render vs r.2) = _
      rw [hfirst]
      exact hrest
    · rw [htext, Output.text_push, List.map_cons, List.map_cons, String.join_cons,
        String.append_assoc]

end

/-- Members of a list are told by their places in it. -/
theorem eq_of_map_idxOf_eq {vars vs ws : List Var} (hvs : ∀ v ∈ vs, v ∈ vars)
    (hws : ∀ w ∈ ws, w ∈ vars) (h : vs.map vars.idxOf = ws.map vars.idxOf) : vs = ws := by
  have hread : ∀ us : List Var, (∀ u ∈ us, u ∈ vars) →
      (us.map vars.idxOf).map (vars[·]?) = us.map some := by
    intro us hus
    rw [List.map_map]
    exact List.map_congr_left fun u hu => List.getElem?_idxOf (hus u hu)
  have hsome : vs.map some = ws.map some := by
    rw [← hread vs hvs, ← hread ws hws, h]
  exact List.map_injective_iff.mpr (Option.some_injective Var) hsome

/-- **Labels in a row stay apart.** The labels of some words can be written one after another behind any
    text, and only the labels of the same words in the same order make the same text. So two sequences
    of variables, none of them foreign and all of them with a number in one table, can be written under
    `compact`, whatever else the two states are; this numbers nothing more, and only where the
    sequences are the same are the texts that they add. -/
theorem Label.rows_tell_apart :
    (∀ (out : String) (ns ms : List UInt32), ∃ s t,
      writeWords? ns out = some s ∧ writeWords? ms out = some t ∧ (s = t → ns = ms)) ∧
    (∀ (c d : Context) (vs ws : List Var),
      c.config.naming = .compact → d.config.naming = .compact → d.names = c.names →
      (∀ v ∈ vs ++ ws, v.isForeign = false ∧ ∃ i, c.names.get? v = some i) →
      ∃ c' d' s t, render vs c = .ok ((), c') ∧ render ws d = .ok ((), d') ∧
        c'.names = c.names ∧ d'.names = c.names ∧
        c'.output.text = c.output.text ++ s ∧ d'.output.text = d.output.text ++ t ∧
        (s = t → vs = ws)) := by
  constructor
  · intro out ns ms
    refine ⟨_, _, writeWords?_eq ns out, writeWords?_eq ms out, fun h => ?_⟩
    have hnumbers : ns.map UInt32.toNat = ms.map UInt32.toNat :=
      join_injective ((String.append_right_inj out).mp h)
    exact List.map_injective_iff.mpr (fun _ _ => UInt32.toNat_inj.mp) hnumbers
  · intro c d vs ws hc hd hnames hnumbered
    have hmem : ∀ v ∈ vs ++ ws, v.isForeign = false ∧ v ∈ c.names.vars := fun v hv => by
      obtain ⟨hforeign, i, hi⟩ := hnumbered v hv
      exact ⟨hforeign, NameTable.mem_vars_iff.mpr (by rw [hi]; exact Option.some_ne_none i)⟩
    obtain ⟨hvs, hws⟩ := List.forall_mem_append.mp hmem
    obtain ⟨output, hrender, htext⟩ := Emit.render_of_numbered hc hvs
    obtain ⟨output', hrender', htext'⟩ := Emit.render_of_numbered hd (hnames ▸ hws)
    rw [hnames] at htext'
    refine ⟨_, _, _, _, hrender, hrender', rfl, hnames, htext, htext', fun h => ?_⟩
    exact eq_of_map_idxOf_eq (fun v hv => (hvs v hv).2) (fun w hw => (hws w hw).2) (join_injective h)

/-- The label `_1` is the beginning of `_10`, which is the label of 62: behind a text that is itself a
    label, the two do not run together. Two variables in a row and the first of them twice are told
    apart behind any output. -/
theorem Label.rows_tell_apart_overlapping :
    writeWords? [1, 0] "_1" ≠ writeWords? [62] "_1" ∧
      ∀ output : Output, ∃ c' d' : Context,
        let table := (NameTable.empty.enter (.internal "x")).enter (.external "M" "x")
        let c : Context := ⟨.compact, table, output, #[]⟩
        render [Var.internal "x", .external "M" "x"] c = .ok ((), c') ∧
          render [Var.internal "x", .internal "x"] c = .ok ((), d') ∧
          c'.output.text ≠ d'.output.text := by
  constructor
  · obtain ⟨s, t, hs, ht, htold⟩ := rows_tell_apart.1 "_1" [1, 0] [62]
    rw [hs, ht]
    intro h
    exact absurd (htold (Option.some.inj h)) (by decide)
  · intro output
    have hnumbered : ∀ v ∈ [Var.internal "x", .external "M" "x"] ++ [.internal "x", .internal "x"],
        v.isForeign = false ∧
          ∃ i, ((NameTable.empty.enter (.internal "x")).enter (.external "M" "x")).get? v =
            some i := by
      intro v hv
      simp only [List.cons_append, List.nil_append, List.mem_cons, List.not_mem_nil, or_false] at hv
      rcases hv with rfl | rfl | rfl | rfl
      · exact ⟨rfl, 0, by decide +kernel⟩
      · exact ⟨rfl, 1, by decide +kernel⟩
      · exact ⟨rfl, 0, by decide +kernel⟩
      · exact ⟨rfl, 0, by decide +kernel⟩
    obtain ⟨c', d', s, t, hc', hd', -, -, hs, ht, htold⟩ :=
      rows_tell_apart.2 ⟨.compact, _, output, #[]⟩ _ _ _ rfl rfl rfl hnumbered
    refine ⟨c', d', hc', hd', fun h => ?_⟩
    rw [hs, ht] at h
    exact absurd (htold ((String.append_right_inj output.text).mp h)) (by decide)

end Emission
