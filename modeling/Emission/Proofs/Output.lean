import Emission.Output
import Mathlib.Algebra.GroupWithZero.Nat
import Mathlib.Data.List.Induction

/-!
# Laws of output

Taking over pieces is associative and has the empty output on either side as its unit, whichever way
the pieces are taken over. A text that is written is an output of one piece, or of none, that is taken
over (`push_eq_append`), so one law on taking over is a law on all writing.

An output that has written some texts (`Output.ofTexts`) is known in all its views: its pieces are the
texts that are not empty, its bytes are theirs together, and its text is the texts joined.
-/

namespace Emission

namespace Output

/-! ## 1. Taking over -/

/-- Outputs with the same pieces and the same count of bytes are the same. -/
theorem eq_of_pieces {a b : Output} (hpieces : a.pieces = b.pieces) (hbytes : a.bytes = b.bytes) :
    a = b := by
  cases a
  cases b
  cases hpieces
  cases hbytes
  rfl

@[simp] theorem append_empty (o : Output) : o ++ empty = o := by
  refine eq_of_pieces ?_ ?_
  · rw [pieces_append]
    exact Array.append_empty
  · rfl

@[simp] theorem empty_append (o : Output) : empty ++ o = o := by
  refine eq_of_pieces ?_ ?_
  · rw [pieces_append]
    exact Array.empty_append
  · exact Nat.zero_add o.bytes

/-- **What is taken over in two parts may be put together first.** -/
theorem append_assoc (a b c : Output) : a ++ b ++ c = a ++ (b ++ c) := by
  refine eq_of_pieces ?_ ?_
  · simp only [pieces_append, Array.append_assoc]
  · exact Nat.add_assoc a.bytes b.bytes c.bytes

/-- **Writing a text is taking over what the text alone would write.** -/
theorem push_eq_append (s : String) (o : Output) : o.push s = o ++ empty.push s := by
  refine eq_of_pieces ?_ ?_
  · rw [pieces_append, pieces_push, pieces_push]
    split
    · exact Array.append_empty.symm
    · rfl
  · rw [bytes_append, bytes_push, bytes_push, bytes_empty, Nat.zero_add]

/-! ## 2. Outputs of texts -/

/-- The output that has written some texts, one after the other. -/
def ofTexts (ss : List String) : Output :=
  ss.foldl (fun o s => o.push s) empty

/-- Writing some texts is taking over the output of them. -/
theorem foldl_push (ss : List String) (o : Output) :
    ss.foldl (fun o s => o.push s) o = o ++ ofTexts ss := by
  induction ss generalizing o with
  | nil => exact (append_empty o).symm
  | cons s ss ih =>
    have hrest : ofTexts (s :: ss) = empty.push s ++ ofTexts ss := ih (empty.push s)
    rw [List.foldl_cons, ih, hrest, push_eq_append, append_assoc]

/-- **Texts written in two parts are two outputs, the second taken over.** -/
theorem ofTexts_append (ss ts : List String) : ofTexts (ss ++ ts) = ofTexts ss ++ ofTexts ts := by
  rw [ofTexts, List.foldl_append]
  exact foldl_push ts (ofTexts ss)

theorem ofTexts_concat (ss : List String) (s : String) :
    ofTexts (ss ++ [s]) = (ofTexts ss).push s := by
  rw [ofTexts_append, push_eq_append]
  rfl

/-- **The pieces are the texts that are not empty.** -/
theorem pieces_ofTexts (ss : List String) :
    (ofTexts ss).pieces.toList = ss.filter fun s => s ≠ "" := by
  induction ss using List.reverseRecOn with
  | nil => rfl
  | append_singleton ss s ih =>
    rw [ofTexts_concat, pieces_push, List.filter_append]
    by_cases h : s = ""
    · simp [h, ih]
    · simp [h, ih]

/-- **The bytes are those of all the texts.** -/
theorem bytes_ofTexts (ss : List String) :
    (ofTexts ss).bytes = (ss.map String.utf8ByteSize).sum := by
  induction ss using List.reverseRecOn with
  | nil => rfl
  | append_singleton ss s ih =>
    rw [ofTexts_concat, bytes_push, ih, List.map_append, List.sum_append, List.map_singleton,
      List.sum_singleton]

theorem text_ofTexts (ss : List String) : (ofTexts ss).text = String.join ss := by
  induction ss using List.reverseRecOn with
  | nil => rfl
  | append_singleton ss s ih =>
    rw [ofTexts_concat, text_push, ih, String.join_append, String.join_cons, String.join_nil,
      String.append_empty]

end Output

end Emission
