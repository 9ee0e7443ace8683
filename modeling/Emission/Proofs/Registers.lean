import Emission.Proofs.Sink

/-!
# Registers of output

Whatever is done to registers, what they hold came about by writing texts (`Output.Written`), also where
a register is appended to itself, or a source is named twice. Of such an output the views agree:

* it keeps no empty text, and its count of bytes is that of its pieces together;
* it is empty in one view exactly if it is in every other (`Output.Written.bytes_eq_zero_iff`,
  `Output.Written.pieces_eq_empty_iff`);
* what is displayed and what is flattened is the pieces joined, and a sink without a limit gets the bytes
  of that, however few it takes at a time (`Output.writeTo_of_unbounded`).

All that can fail is to flatten a text that is too long (`Registers.run_eq_error_iff`).
-/

namespace Emission

namespace Output

/-! ## 1. Outputs that came about by writing -/

/-- The output has written some texts, and nothing else was done to it. -/
def Written (o : Output) : Prop :=
  ∃ ss, o = ofTexts ss

theorem written_empty : Written empty := ⟨[], rfl⟩

theorem Written.append {a b : Output} (ha : a.Written) (hb : b.Written) : (a ++ b).Written := by
  obtain ⟨ss, rfl⟩ := ha
  obtain ⟨ts, rfl⟩ := hb
  exact ⟨ss ++ ts, (ofTexts_append ss ts).symm⟩

theorem Written.call {o : Output} (h : o.Written) (call : Call) : (call.run o).Written := by
  obtain ⟨ss, rfl⟩ := h
  refine ⟨ss ++ [call.payload], ?_⟩
  rw [run_eq_push, ofTexts_concat]

theorem Written.extend {o : Output} (h : o.Written) {others : List Output}
    (hothers : ∀ a ∈ others, a.Written) : (o.extend others).Written := by
  induction others generalizing o with
  | nil => exact h
  | cons a others ih =>
    have ha : a.Written := hothers a List.mem_cons_self
    exact ih (h.append ha) fun b hb => hothers b (List.mem_cons_of_mem a hb)

section

variable {o : Output}

/-- **No empty text is kept.** -/
theorem Written.ne_empty (h : o.Written) : ∀ s ∈ o.pieces, s ≠ "" := by
  obtain ⟨ss, rfl⟩ := h
  intro s hs
  rw [← Array.mem_toList_iff, pieces_ofTexts, List.mem_filter] at hs
  exact of_decide_eq_true hs.2

/-- **The bytes are those of the pieces**: the texts that were not kept have none. -/
theorem Written.bytes_eq_sum (h : o.Written) :
    o.bytes = (o.pieces.toList.map String.utf8ByteSize).sum := by
  obtain ⟨ss, rfl⟩ := h
  rw [bytes_ofTexts, pieces_ofTexts]
  induction ss with
  | nil => rfl
  | cons s ss ih =>
    rw [List.map_cons, List.sum_cons, ih]
    by_cases hs : s = ""
    · simp [hs]
    · simp [hs]

/-- Without bytes there are no pieces. -/
theorem Written.bytes_eq_zero_iff (h : o.Written) : o.bytes = 0 ↔ o.pieces = #[] := by
  constructor
  · intro hzero
    rw [h.bytes_eq_sum, List.sum_eq_zero_iff_forall_eq_nat] at hzero
    refine Array.eq_empty_iff_forall_not_mem.mpr fun s hs => h.ne_empty s hs ?_
    rw [← String.utf8ByteSize_eq_zero_iff]
    exact hzero _ (List.mem_map_of_mem (Array.mem_toList_iff.mpr hs))
  · intro hpieces
    rw [h.bytes_eq_sum, hpieces]
    rfl

theorem Written.bytes_eq_utf8ByteSize (h : o.Written) : o.bytes = o.text.utf8ByteSize := by
  obtain ⟨ss, rfl⟩ := h
  rw [bytes_ofTexts, text_ofTexts]
  induction ss with
  | nil => rfl
  | cons s ss ih =>
    rw [List.map_cons, List.sum_cons, ih, String.join_cons, String.utf8ByteSize_append]

/-- Without pieces there is no text. -/
theorem Written.pieces_eq_empty_iff (h : o.Written) : o.pieces = #[] ↔ o.text = "" := by
  rw [← h.bytes_eq_zero_iff, h.bytes_eq_utf8ByteSize, String.utf8ByteSize_eq_zero_iff]

end

end Output

namespace Registers

/-! ## 2. Steps on registers -/

/-- What each of the registers holds came about by writing. -/
def Written (rs : Registers) : Prop :=
  ∀ key, (rs.read key).Written

theorem written_start : Written .empty :=
  fun _ => Output.written_empty

section

variable {rs : Registers}

theorem Written.put (h : Written rs) (key : String) {o : Output} (ho : o.Written) :
    Written (rs.put key o) := by
  intro other
  rw [read_put]
  split
  · exact ho
  · exact h other

theorem Written.erase (h : Written rs) (key : String) : Written (rs.erase key) := by
  intro other
  rw [read_erase]
  split
  · exact Output.written_empty
  · exact h other

/-- What is taken out was held, or else it is empty: the second time a register is named it has been
    taken out already. -/
theorem Written.takeOutAll (h : Written rs) (keys : List String) :
    (∀ o ∈ (rs.takeOutAll keys).1, o.Written) ∧ Written (rs.takeOutAll keys).2 := by
  induction keys generalizing rs with
  | nil => exact ⟨fun _ ho => absurd ho List.not_mem_nil, h⟩
  | cons key keys ih =>
    obtain ⟨htaken, hleft⟩ := ih (h.erase key)
    exact ⟨List.forall_mem_cons.mpr ⟨h key, htaken⟩, hleft⟩

/-- Taking a register out joins its text. -/
theorem Action.perform_flatten (key : String) (rs : Registers) :
    Action.perform key rs .flatten =
      (rs.read key).flatten.map fun s => (.text s, Shelf.erase rs key) := by
  change (do let s ← (rs.read key).flatten; _) = _
  cases (rs.read key).flatten <;> rfl

/-- **Whatever is done to a register, what all registers hold came about by writing.** -/
theorem Written.perform (h : Written rs) {key : String} {action : Action} {answer : Answer}
    {rs' : Registers} (hperform : action.perform key rs = .ok (answer, rs')) : Written rs' := by
  cases action with
  | call call =>
    cases hperform
    exact h.put key ((h key).call call)
  | append source =>
    cases hperform
    exact (h.erase source).put key ((h.erase source key).append (h source))
  | extend sources =>
    cases hperform
    obtain ⟨htaken, hleft⟩ := h.takeOutAll sources
    exact hleft.put key ((hleft key).extend htaken)
  | copy source =>
    cases hperform
    exact h.put key (h source)
  | clear =>
    cases hperform
    exact h.put key Output.written_empty
  | flatten =>
    rw [Action.perform_flatten] at hperform
    obtain ⟨_, -, heq⟩ := map_eq_ok_iff.mp hperform
    cases heq
    exact h.erase key
  | eq | text | inspect | pieces | write =>
    cases hperform
    exact h

/-- **Nothing fails but to flatten a text that is too long.** -/
theorem Action.perform_eq_error_iff {key : String} {action : Action} {e : Fault} :
    action.perform key rs = .error e ↔
      action = .flatten ∧ e = .capacityOverflow ∧ maxTextSize < (rs.read key).bytes := by
  cases action with
  | flatten =>
    rw [Action.perform_flatten, map_eq_error_iff, Output.flatten_eq]
    split <;> simp_all [eq_comm]
  | call | append | extend | copy | clear | eq | text | inspect | pieces | write =>
    refine ⟨fun h => ?_, fun h => ?_⟩
    · cases h
    · cases h.1

theorem run_cons (step : Step) (steps : List Step) (rs : Registers) :
    run (step :: steps) rs =
      (do
        let (answer, rs') ← step.action.perform step.on rs
        let o := rs'.read step.on
        (run steps rs').map fun r => (⟨answer, o.bytes, o.count, o.isEmpty⟩ :: r.1, r.2)) := by
  rw [run, Step.run]
  cases step.action.perform step.on rs with
  | error e => rfl
  | ok r =>
    change (do let r' ← run steps r.2; _) = (run steps r.2).map _
    cases run steps r.2 <;> rfl

/-- **Steps that do not fail** have done the first, and then the rest. -/
theorem run_cons_eq_ok_iff {step : Step} {steps : List Step} {notes : List Note} {rs' : Registers} :
    run (step :: steps) rs = .ok (notes, rs') ↔
      ∃ answer rs₁ rest, step.action.perform step.on rs = .ok (answer, rs₁) ∧
        run steps rs₁ = .ok (rest, rs') ∧
        notes = ⟨answer, (rs₁.read step.on).bytes, (rs₁.read step.on).count,
          (rs₁.read step.on).isEmpty⟩ :: rest := by
  rw [run_cons, bind_eq_ok_iff]
  constructor
  · intro h
    obtain ⟨⟨answer, rs₁⟩, hstep, h⟩ := h
    obtain ⟨⟨rest, rs₂⟩, hrest, heq⟩ := map_eq_ok_iff.mp h
    cases heq
    exact ⟨answer, rs₁, rest, hstep, hrest, rfl⟩
  · intro h
    obtain ⟨answer, rs₁, rest, hstep, hrest, rfl⟩ := h
    exact ⟨(answer, rs₁), hstep, map_eq_ok_iff.mpr ⟨(rest, rs'), hrest, rfl⟩⟩

/-- Steps fail in the first, or later. -/
theorem run_cons_eq_error_iff {step : Step} {steps : List Step} {e : Fault} :
    run (step :: steps) rs = .error e ↔
      step.action.perform step.on rs = .error e ∨
        ∃ answer rs₁, step.action.perform step.on rs = .ok (answer, rs₁) ∧
          run steps rs₁ = .error e := by
  rw [run_cons, bind_eq_error_iff, Prod.exists]
  simp only [map_eq_error_iff]

/-- **After any steps, what the registers hold came about by writing.** -/
theorem Written.run (h : Written rs) {steps : List Step} {notes : List Note} {rs' : Registers}
    (hrun : Registers.run steps rs = .ok (notes, rs')) : Written rs' := by
  induction steps generalizing rs notes with
  | nil =>
    cases hrun
    exact h
  | cons step steps ih =>
    obtain ⟨answer, rs₁, rest, hstep, hrest, -⟩ := run_cons_eq_ok_iff.mp hrun
    exact ih (h.perform hstep) hrest

/-- **Steps fail where a text is flattened that is too long**, after all those before were done. -/
theorem run_eq_error_iff {steps : List Step} {e : Fault} :
    run steps rs = .error e ↔
      e = .capacityOverflow ∧ ∃ before key after notes rs',
        steps = before ++ ⟨key, .flatten⟩ :: after ∧ run before rs = .ok (notes, rs') ∧
          maxTextSize < (rs'.read key).bytes := by
  constructor
  · intro h
    induction steps generalizing rs with
    | nil => cases h
    | cons step steps ih =>
      rcases run_cons_eq_error_iff.mp h with hstep | ⟨answer, rs₁, hstep, hrest⟩
      · obtain ⟨key, action⟩ := step
        obtain ⟨rfl, rfl, hlong⟩ := Action.perform_eq_error_iff.mp hstep
        exact ⟨rfl, [], key, steps, [], rs, rfl, rfl, hlong⟩
      · obtain ⟨he, before, key, after, notes, rs', rfl, hbefore, hlong⟩ := ih hrest
        exact ⟨he, step :: before, key, after, _, rs', rfl,
          run_cons_eq_ok_iff.mpr ⟨answer, rs₁, notes, hstep, hbefore, rfl⟩, hlong⟩
  · rintro ⟨rfl, before, key, after, notes, rs', rfl, hbefore, hlong⟩
    induction before generalizing rs notes with
    | nil =>
      cases hbefore
      exact run_cons_eq_error_iff.mpr (.inl (Action.perform_eq_error_iff.mpr ⟨rfl, rfl, hlong⟩))
    | cons step before ih =>
      obtain ⟨answer, rs₁, rest, hstep, hrest, -⟩ := run_cons_eq_ok_iff.mp hbefore
      exact run_cons_eq_error_iff.mpr (.inr ⟨answer, rs₁, hstep, ih rest hrest⟩)

end

/-! ## 3. Views -/

/-- The views of a register agree. -/
structure Agree (rs : Registers) (key : String) : Prop where
  /-- No piece is empty. -/
  ne_empty : ∀ s ∈ (rs.read key).pieces, s ≠ ""
  /-- The bytes counted are those of the pieces. -/
  bytes : (rs.read key).bytes = ((rs.read key).pieces.toList.map String.utf8ByteSize).sum
  /-- Empty, without bytes, without pieces and without text are one and the same. -/
  isEmpty_iff : (rs.read key).isEmpty = true ↔ (rs.read key).bytes = 0
  bytes_eq_zero_iff : (rs.read key).bytes = 0 ↔ (rs.read key).count = 0
  count_eq_zero_iff : (rs.read key).count = 0 ↔ (rs.read key).text = ""
  /-- The pieces that are asked for are as many as are counted, and joined they are the text. -/
  pieces : ∃ ss, Action.perform key rs .pieces = .ok (.pieces ss, rs) ∧
    ss.length = (rs.read key).count ∧ String.join ss = (rs.read key).text
  /-- The text that is asked for is the text. -/
  asked : Action.perform key rs .text = .ok (.text (rs.read key).text, rs)
  /-- So is the text that is taken out, as long as a text can have so many bytes. -/
  flattened : (rs.read key).bytes ≤ maxTextSize →
    Action.perform key rs .flatten = .ok (.text (rs.read key).text, Shelf.erase rs key)
  /-- It cannot be taken out if it is too long. -/
  not_flattened : maxTextSize < (rs.read key).bytes →
    Action.perform key rs .flatten = .error .capacityOverflow
  /-- What a sink without a limit gets are the bytes of the text. -/
  written : ∀ sink : Sink, sink.limit = none → sink.chunk ≠ some 0 →
    Action.perform key rs (.write sink) =
      .ok (.receipt ⟨(rs.read key).text.toUTF8.data, if sink.flushFails then some .flush else none⟩,
        rs)

/-- **The views of registers agree** if what they hold came about by writing. -/
theorem Written.agree {rs : Registers} (h : Written rs) (key : String) : rs.Agree key where
  ne_empty := (h key).ne_empty
  bytes := (h key).bytes_eq_sum
  isEmpty_iff := beq_iff_eq
  bytes_eq_zero_iff := (h key).bytes_eq_zero_iff.trans Array.size_eq_zero_iff.symm
  count_eq_zero_iff := Array.size_eq_zero_iff.trans (h key).pieces_eq_empty_iff
  pieces := ⟨(rs.read key).pieces.toList, rfl, Array.length_toList, rfl⟩
  asked := congrArg (fun s => Except.ok (Answer.text s, rs)) (rs.read key).toString_eq
  flattened hshort := by
    rw [Action.perform_flatten, Output.flatten_eq, if_neg (Nat.not_lt.mpr hshort)]
    rfl
  not_flattened hlong := Action.perform_eq_error_iff.mpr ⟨rfl, rfl, hlong⟩
  written sink hlimit hchunk :=
    congrArg (fun r => Except.ok (Answer.receipt r, rs))
      ((rs.read key).writeTo_of_unbounded hlimit hchunk)

/-- A register that is appended to itself is as it was, and a source named twice is taken once. -/
example :
    let steps : List Step := [⟨"a", .call (.text .lent "xy")⟩, ⟨"a", .append "a"⟩,
      ⟨"b", .copy "a"⟩, ⟨"a", .extend ["b", "b"]⟩]
    (run steps .empty).map (fun r => (r.2.read "a").pieces) = .ok #["xy", "xy"] ∧
      (run steps .empty).map (fun r => (r.2.read "b").count) = .ok 0 := by
  decide +kernel

end Registers

end Emission
