import Emission.Emitter
import Emission.Fault
import Emission.Text.Quoted

/-!
# Output

The text of a run is collected piece by piece and joined only at the end, so that what was written
elsewhere can be taken over without being read again. An output has its pieces, in order, and the
number of their bytes. It can be read

* as `pieces`, the texts as they were written, without the empty ones;
* as `text`, the pieces joined;
* by `display`, which writes the pieces after a text, one after the other;
* by `flatten`, which makes room for as many bytes as were counted before it does so, and fails where
  that is more than a text can have;
* as `octets`, the bytes of the pieces.

All of these are views of one text (`display_eq`, `flatten_eq`). Two outputs are equal (`==`) when they
have the same text, wherever it was cut.
-/

namespace Emission

/-- Text collected piece by piece. -/
structure Output where
  pieces : Array String
  /-- The bytes of all pieces together. The count has no bound here; where it is kept in a word of 64
      bits it is this number as long as that is below `UInt64.size`. -/
  bytes : Nat
  deriving Repr

namespace Output

/-! ## 1. Writing -/

/-- The output without text. -/
def empty : Output := ⟨#[], 0⟩

instance : EmptyCollection Output := ⟨empty⟩
instance : Inhabited Output := ⟨empty⟩

/-- Puts `s` at the end; an empty text is not kept. -/
def push (s : String) (o : Output) : Output :=
  if s.isEmpty then o else ⟨o.pieces.push s, o.bytes + s.utf8ByteSize⟩

/-- An output keeps every text it is handed, except that a lent text which is empty is not even
    copied. -/
instance : Emitter Output where
  emit s o := if s.isEmpty then o else o.push s
  emitOwned s o := o.push s
  emitFixed s o := o.push s

/-- Takes over the pieces of `other`. An output without pieces takes them as they lie. -/
def append (o other : Output) : Output where
  pieces := if o.pieces.isEmpty then other.pieces else o.pieces ++ other.pieces
  bytes := o.bytes + other.bytes

instance : Append Output := ⟨append⟩

/-- Takes over the pieces of several outputs, one after the other. -/
def extend (o : Output) (others : List Output) : Output :=
  others.foldl append o

/-! ## 2. Reading -/

def isEmpty (o : Output) : Bool :=
  o.bytes == 0

/-- How many pieces there are. -/
def count (o : Output) : Nat :=
  o.pieces.size

/-- The text, all pieces joined. -/
def text (o : Output) : String :=
  String.join o.pieces.toList

/-- Writes the pieces after `out`. -/
def display (o : Output) (out : String) : String :=
  o.pieces.foldl (fun out s => out ++ s) out

instance : ToString Output := ⟨(·.display "")⟩

/-- The text, in room that is made for it all at once. -/
def flatten (o : Output) : Except Fault String :=
  if maxTextSize < o.bytes then .error .capacityOverflow
  else .ok (o.pieces.foldl String.append "")

/-- The bytes of the pieces. -/
def octets (o : Output) : List UInt8 :=
  o.pieces.toList.flatMap fun s => s.toUTF8.data.toList

/-- Two outputs are equal when they have as many bytes and the same ones. -/
instance : BEq Output where
  beq a b := a.bytes == b.bytes && a.octets == b.octets

/-- The two counts of the output, for inspection. -/
def inspect (o : Output) : String :=
  Text.record "Fragments" [("fragments", Text.natural o.count), ("len", Text.natural o.bytes)]

/-! ## 3. What writing does to the pieces and the bytes -/

@[simp] theorem pieces_empty : empty.pieces = #[] := rfl

@[simp] theorem bytes_empty : empty.bytes = 0 := rfl

theorem pieces_push (s : String) (o : Output) :
    (o.push s).pieces = if s = "" then o.pieces else o.pieces.push s := by
  unfold push
  by_cases h : s = "" <;> simp [h]

@[simp] theorem bytes_push (s : String) (o : Output) :
    (o.push s).bytes = o.bytes + s.utf8ByteSize := by
  unfold push
  by_cases h : s = "" <;> simp [h]

/-- **Every call on an output keeps the text it hands over, as `push` does.** -/
theorem run_eq_push (call : Call) (o : Output) : call.run o = o.push call.payload := by
  cases call with
  | newline => rfl
  | text how s =>
    cases how with
    | lent =>
      change (if s.isEmpty then o else o.push s) = o.push s
      unfold push
      split <;> rfl
    | owned => rfl
    | fixed => rfl

/-- **Taking over puts the pieces one after the other, whichever way it is done.** -/
@[simp] theorem pieces_append (a b : Output) : (a ++ b).pieces = a.pieces ++ b.pieces := by
  change (if a.pieces.isEmpty then b.pieces else a.pieces ++ b.pieces) = _
  split
  · rename_i h
    rw [Array.isEmpty_iff.mp h, Array.empty_append]
  · rfl

@[simp] theorem bytes_append (a b : Output) : (a ++ b).bytes = a.bytes + b.bytes := rfl

@[simp] theorem text_append (a b : Output) : (a ++ b).text = a.text ++ b.text := by
  simp [text]

@[simp] theorem text_push (s : String) (o : Output) : (o.push s).text = o.text ++ s := by
  unfold text
  rw [pieces_push]
  by_cases h : s = "" <;> simp [h]

/-! ## 4. Views of one text -/

/-- Texts written one after the other are written joined. -/
theorem foldl_append (ss : List String) (out : String) :
    ss.foldl (fun out s => out ++ s) out = out ++ String.join ss := by
  induction ss generalizing out with
  | nil => simp
  | cons s ss ih => rw [List.foldl_cons, ih, String.join_cons, String.append_assoc]

/-- **What is displayed is the text**, after what was there. -/
theorem display_eq (o : Output) (out : String) : o.display out = out ++ o.text := by
  unfold display
  rw [← Array.foldl_toList]
  exact foldl_append o.pieces.toList out

theorem toString_eq (o : Output) : toString o = o.text :=
  (o.display_eq "").trans String.empty_append

/-- **What is flattened is the text**, as long as a text can have so many bytes. -/
theorem flatten_eq (o : Output) :
    o.flatten = if maxTextSize < o.bytes then .error .capacityOverflow else .ok o.text := by
  have hjoined : o.pieces.foldl String.append "" = o.text := o.toString_eq
  unfold flatten
  rw [hjoined]

end Output

end Emission
