import Emission.Proofs.Registers

/-!
# Equality and merging of outputs

Outputs are compared by the count of their bytes and then byte by byte, across the borders of their
pieces. For outputs that came about by writing this compares their texts (`Output.Written.beq_iff`), as
the count is right and no two texts have the same bytes. So equal outputs look the same in every view
but that of the pieces, and merging them with equal outputs gives equal outputs.

Merging puts the pieces of one output after those of the other. Whatever is merged, in whatever groups,
the result has the pieces of all in their order (`Output.pieces_extend`).
-/

namespace Emission

namespace Registers

/-- Texts that are written to one register make up what it holds. -/
theorem exists_run_calls (key : String) (ss : List String) (rs : Registers) :
    ∃ notes rs', run (ss.map fun s => ⟨key, .call (.text .owned s)⟩) rs = .ok (notes, rs') ∧
      rs'.read key = ss.foldl (fun o s => o.push s) (rs.read key) := by
  induction ss generalizing rs with
  | nil => exact ⟨[], rs, rfl, rfl⟩
  | cons s ss ih =>
    obtain ⟨notes, rs', hrun, hread⟩ := ih (Shelf.put rs key ((rs.read key).push s))
    rw [read_put, if_pos rfl] at hread
    exact ⟨_, rs', run_cons_eq_ok_iff.mpr ⟨_, _, notes, rfl, hrun, rfl⟩, hread⟩

end Registers

namespace Output

/-! ## 1. Outputs that registers hold -/

/-- Some register holds the output, after some steps on empty registers. -/
def Reachable (o : Output) : Prop :=
  ∃ steps notes rs key, Registers.run steps .empty = .ok (notes, rs) ∧ rs.read key = o

/-- **What registers hold came about by writing texts**, and every such output is held by some. -/
theorem reachable_iff_written (o : Output) : o.Reachable ↔ o.Written := by
  constructor
  · rintro ⟨steps, notes, rs, key, hrun, rfl⟩
    exact Registers.written_start.run hrun key
  · rintro ⟨ss, rfl⟩
    obtain ⟨notes, rs, hrun, hread⟩ := Registers.exists_run_calls "" ss .empty
    exact ⟨_, notes, rs, "", hrun, hread⟩

theorem Reachable.append {a b : Output} (ha : a.Reachable) (hb : b.Reachable) :
    (a ++ b).Reachable := by
  rw [reachable_iff_written] at *
  exact ha.append hb

/-! ## 2. Equality -/

theorem octets_eq (o : Output) : o.octets = o.text.toUTF8.data.toList := by
  rw [octets, List.flatMap_def, flatten_toUTF8]

/-- Texts with the same bytes are the same. -/
theorem eq_of_toUTF8_eq {s t : String} (h : s.toUTF8.data.toList = t.toUTF8.data.toList) : s = t :=
  String.toByteArray_inj.mp (ByteArray.ext (Array.toList_inj.mp h))

/-- **Outputs that came about by writing are equal if their texts are.** -/
theorem Written.beq_iff {a b : Output} (ha : a.Written) (hb : b.Written) :
    (a == b) = true ↔ a.text = b.text := by
  show (a.bytes == b.bytes && a.octets == b.octets) = true ↔ _
  rw [Bool.and_eq_true, beq_iff_eq, beq_iff_eq, octets_eq, octets_eq]
  constructor
  · rintro ⟨-, h⟩
    exact eq_of_toUTF8_eq h
  · intro h
    rw [ha.bytes_eq_utf8ByteSize, hb.bytes_eq_utf8ByteSize, h]
    exact ⟨rfl, rfl⟩

/-! ## 3. Merging -/

theorem count_append (a b : Output) : (a ++ b).count = a.count + b.count := by
  rw [count, pieces_append, Array.size_append]
  rfl

/-- **Several outputs may be merged among themselves first.** -/
theorem extend_eq_append (o : Output) (others : List Output) :
    o.extend others = o ++ empty.extend others := by
  induction others generalizing o with
  | nil => exact (append_empty o).symm
  | cons a others ih =>
    show (o ++ a).extend others = o ++ (empty ++ a).extend others
    rw [ih (o ++ a), ih (empty ++ a), empty_append, append_assoc]

/-- **The pieces of all come in their order.** -/
theorem pieces_extend (o : Output) (others : List Output) :
    (o.extend others).pieces.toList =
      o.pieces.toList ++ others.flatMap fun a => a.pieces.toList := by
  induction others generalizing o with
  | nil => exact (List.append_nil _).symm
  | cons a others ih =>
    show ((o ++ a).extend others).pieces.toList = _
    rw [ih, pieces_append, Array.toList_append, List.flatMap_cons, List.append_assoc]

theorem bytes_extend (o : Output) (others : List Output) :
    (o.extend others).bytes = o.bytes + (others.map bytes).sum := by
  induction others generalizing o with
  | nil => rfl
  | cons a others ih =>
    show ((o ++ a).extend others).bytes = _
    rw [ih, bytes_append, List.map_cons, List.sum_cons, Nat.add_assoc]

theorem count_extend (o : Output) (others : List Output) :
    (o.extend others).count = o.count + (others.map count).sum := by
  induction others generalizing o with
  | nil => rfl
  | cons a others ih =>
    show ((o ++ a).extend others).count = _
    rw [ih, count_append, List.map_cons, List.sum_cons, Nat.add_assoc]

/-! ## 4. Both together -/

/-- The outputs look the same in every view but that of the pieces. -/
structure LookAlike (a b : Output) : Prop where
  text : a.text = b.text
  display : ∀ out, a.display out = b.display out
  flatten : a.flatten = b.flatten
  octets : a.octets = b.octets
  bytes : a.bytes = b.bytes
  isEmpty : a.isEmpty = b.isEmpty
  writeTo : ∀ sink, a.writeTo sink = b.writeTo sink

theorem Written.lookAlike {a b : Output} (ha : a.Written) (hb : b.Written) (h : a.text = b.text) :
    LookAlike a b where
  text := h
  display out := by rw [display_eq, display_eq, h]
  flatten := by
    rw [flatten_eq, flatten_eq, ha.bytes_eq_utf8ByteSize, hb.bytes_eq_utf8ByteSize, h]
  octets := by rw [octets_eq, octets_eq, h]
  bytes := by rw [ha.bytes_eq_utf8ByteSize, hb.bytes_eq_utf8ByteSize, h]
  isEmpty := by
    rw [isEmpty, isEmpty, ha.bytes_eq_utf8ByteSize, hb.bytes_eq_utf8ByteSize, h]
  writeTo sink := writeTo_congr h rfl Iff.rfl rfl rfl

/-- Outputs are equal exactly if their texts are. So equality is an equivalence relation, and equal
    outputs look alike. -/
structure EqualityLaws (a b c : Output) : Prop where
  beq_iff : (a == b) = true ↔ a.text = b.text
  refl : (a == a) = true
  symm : (a == b) = true → (b == a) = true
  trans : (a == b) = true → (b == c) = true → (a == c) = true
  lookAlike : (a == b) = true → LookAlike a b

/-- Merging puts the pieces of the second after those of the first, which makes an output that a register
    can hold. It is associative, and has the empty output as its unit. The counts add up, and the texts
    are joined. -/
structure MergingLaws (a b c : Output) : Prop where
  reachable : (a ++ b).Reachable
  pieces : (a ++ b).pieces = a.pieces ++ b.pieces
  assoc : a ++ b ++ c = a ++ (b ++ c)
  empty_left : empty ++ a = a
  empty_right : a ++ empty = a
  text : (a ++ b).text = a.text ++ b.text
  bytes : (a ++ b).bytes = a.bytes + b.bytes
  count : (a ++ b).count = a.count + b.count

/-- To merge with several outputs is to merge with one after the other, or with all of them merged. -/
structure ExtendLaws (a : Output) (others : List Output) : Prop where
  reachable : (a.extend others).Reachable
  pieces : (a.extend others).pieces.toList =
    a.pieces.toList ++ others.flatMap fun o => o.pieces.toList
  one_by_one : a.extend others = others.foldl (fun o other => o ++ other) a
  merged : a.extend others = a ++ others.foldl (fun o other => o ++ other) empty
  bytes : (a.extend others).bytes = a.bytes + (others.map bytes).sum
  count : (a.extend others).count = a.count + (others.map count).sum

section

variable {a b c : Output}

theorem Written.equalityLaws (ha : a.Written) (hb : b.Written) (hc : c.Written) :
    EqualityLaws a b c where
  beq_iff := ha.beq_iff hb
  refl := (ha.beq_iff ha).mpr rfl
  symm h := (hb.beq_iff ha).mpr ((ha.beq_iff hb).mp h).symm
  trans hab hbc := (ha.beq_iff hc).mpr (((ha.beq_iff hb).mp hab).trans ((hb.beq_iff hc).mp hbc))
  lookAlike h := ha.lookAlike hb ((ha.beq_iff hb).mp h)

theorem Reachable.mergingLaws (ha : a.Reachable) (hb : b.Reachable) (c : Output) :
    MergingLaws a b c where
  reachable := ha.append hb
  pieces := pieces_append a b
  assoc := append_assoc a b c
  empty_left := empty_append a
  empty_right := append_empty a
  text := text_append a b
  bytes := bytes_append a b
  count := count_append a b

theorem Reachable.extendLaws {others : List Output} (ha : a.Reachable)
    (hothers : ∀ o ∈ others, o.Reachable) : ExtendLaws a others where
  reachable := by
    simp only [reachable_iff_written] at *
    exact ha.extend hothers
  pieces := pieces_extend a others
  one_by_one := rfl
  merged := extend_eq_append a others
  bytes := bytes_extend a others
  count := count_extend a others

end

/-- **Equality and merging of outputs that registers hold.** Equality compares texts, merging puts pieces
    one after the other, and merging equal outputs gives equal outputs. -/
theorem equality_and_merging {a b c a' b' : Output} {others : List Output}
    (ha : a.Reachable) (hb : b.Reachable) (hc : c.Reachable) (ha' : a'.Reachable)
    (hb' : b'.Reachable) (hothers : ∀ o ∈ others, o.Reachable) :
    EqualityLaws a b c ∧ MergingLaws a b c ∧ ExtendLaws a others ∧
      ((a == a') = true → (b == b') = true → (a ++ b == a' ++ b') = true) := by
  refine ⟨?_, ha.mergingLaws hb c, ha.extendLaws hothers, fun haa hbb => ?_⟩
  · rw [reachable_iff_written] at ha hb hc
    exact ha.equalityLaws hb hc
  · rw [reachable_iff_written] at ha hb ha' hb'
    rw [(ha.append hb).beq_iff (ha'.append hb'), text_append, text_append,
      (ha.beq_iff ha').mp haa, (hb.beq_iff hb').mp hbb]

/-- One text cut inside and outside of a word of several bytes, merged with nothing and with itself. -/
theorem equality_and_merging_cut :
    let cut := ofTexts ["é", "", "a"]
    let whole := ofTexts ["éa"]
    cut.Reachable ∧ whole.Reachable ∧ (cut == whole) = true ∧ cut.count ≠ whole.count ∧
      (cut ++ whole == whole ++ cut) = true ∧
      (empty.extend [cut, whole, empty]).pieces = #["é", "a", "éa"] := by
  intro cut whole
  have hcut : cut.Reachable := (reachable_iff_written cut).mpr ⟨_, rfl⟩
  have hwhole : whole.Reachable := (reachable_iff_written whole).mpr ⟨_, rfl⟩
  have hempty : empty.Reachable := (reachable_iff_written empty).mpr written_empty
  have hothers : ∀ o ∈ [cut, whole, empty], o.Reachable := by
    simp [hcut, hwhole, hempty]
  have heq : (cut == whole) = true := by decide +kernel
  obtain ⟨hequality, -, -, hcongr⟩ := equality_and_merging hcut hwhole hempty hwhole hcut hothers
  exact ⟨hcut, hwhole, heq, by decide, hcongr heq (hequality.symm heq), by decide +kernel⟩

end Output

end Emission
