import Emission.Output.Registers
import Emission.Proofs.Output

/-!
# What a sink gets

An output is written to a sink in two loops, over its pieces and over what the sink has not yet taken
of a piece. What comes of it depends on neither:

* a sink has a capacity, its limit, or nothing if it takes no byte at a time (`Sink.cap`), and gets the
  first bytes of the text, as many as that (`Sink.take_eq`);
* it is flushed if the capacity is enough for the whole text, and then this is the last call that is
  made on it; otherwise it ends the writing itself (`Sink.exists_continues_take`).

The invariant of both loops is that the sink has not got more than its capacity (`Sink.Fits`); and in
both, what it has got is what it took in the calls (`Sink.Transfer.Continues`).
-/

namespace Emission

namespace Sink

/-! ## 1. Capacity -/

/-- How many bytes the sink takes in all, if there is a bound. -/
def cap (sink : Sink) : Option Nat :=
  if sink.chunk = some 0 then some 0 else sink.limit

/-- The sink can take `n` bytes in all. -/
def Fits (sink : Sink) (n : Nat) : Prop :=
  ∀ c ∈ sink.cap, n ≤ c

instance (sink : Sink) (n : Nat) : Decidable (sink.Fits n) :=
  inferInstanceAs (Decidable (∀ c ∈ sink.cap, n ≤ c))

/-- How many of `n` bytes the sink takes, at most as many as its capacity. -/
def most (sink : Sink) (n : Nat) : Nat :=
  match sink.cap with
  | none => n
  | some c => min n c

/-- The first of some bytes, as many as the sink takes. -/
def first (sink : Sink) (bytes : List UInt8) : List UInt8 :=
  bytes.take (sink.most bytes.length)

section

variable {sink : Sink} {m n : Nat}

theorem Fits.mono (h : sink.Fits n) (hle : m ≤ n) : sink.Fits m :=
  fun c hc => Nat.le_trans hle (h c hc)

theorem fits_zero (sink : Sink) : sink.Fits 0 :=
  fun c _ => Nat.zero_le c

theorem fits_of_cap_eq_none (h : sink.cap = none) (n : Nat) : sink.Fits n := fun c hc => by
  rw [h] at hc
  cases hc

theorem exists_lt_of_not_fits (h : ¬ sink.Fits n) : ∃ c, sink.cap = some c ∧ c < n := by
  cases hcap : sink.cap with
  | none => exact absurd (fits_of_cap_eq_none hcap n) h
  | some c =>
    refine ⟨c, rfl, Nat.lt_of_not_le fun hle => h fun c' hc' => ?_⟩
    rw [hcap] at hc'
    cases hc'
    exact hle

theorem first_of_fits {bytes : List UInt8} (h : sink.Fits bytes.length) :
    sink.first bytes = bytes := by
  unfold first most
  cases hcap : sink.cap with
  | none => exact List.take_length
  | some c =>
    show bytes.take (min bytes.length c) = bytes
    rw [Nat.min_eq_left (h c hcap), List.take_length]

/-- What comes after more bytes than the sink takes does not get to it. -/
theorem first_append_of_not_fits {xs : List UInt8} (h : ¬ sink.Fits xs.length) (ys : List UInt8) :
    sink.first (xs ++ ys) = sink.first xs := by
  obtain ⟨c, hcap, hlt⟩ := exists_lt_of_not_fits h
  unfold first most
  rw [hcap]
  show (xs ++ ys).take (min (xs ++ ys).length c) = xs.take (min xs.length c)
  rw [List.length_append, Nat.min_eq_right (by omega), Nat.min_eq_right (by omega),
    List.take_append_of_le_length (by omega)]

/-! ## 2. Room

A sink that has not got more than its capacity never does, and can take nothing more only when it has
got all of it. -/

/-- A sink whose room has no bound has none itself. -/
theorem unbounded_of_room (h : sink.room n = none) : sink.chunk = none ∧ sink.limit = none := by
  unfold room at h
  cases hchunk : sink.chunk <;> cases hlimit : sink.limit <;> simp [hchunk, hlimit] at h ⊢

theorem cap_of_room_eq_none (h : sink.room n = none) : sink.cap = none := by
  obtain ⟨hchunk, hlimit⟩ := unbounded_of_room h
  rw [cap, hchunk]
  exact hlimit

/-- The room is bounded by what the sink takes at a time and by what its limit leaves. -/
theorem le_of_room {k : Nat} (h : sink.room n = some k) :
    (∀ c ∈ sink.chunk, k ≤ c) ∧ ∀ c ∈ sink.limit, k ≤ c - n := by
  unfold room at h
  cases hchunk : sink.chunk <;> cases hlimit : sink.limit <;> simp [hchunk, hlimit] at h ⊢ <;> omega

theorem eq_zero_or_le_of_room (h : sink.room n = some 0) :
    sink.chunk = some 0 ∨ ∃ c, sink.limit = some c ∧ c ≤ n := by
  unfold room at h
  cases hchunk : sink.chunk <;> cases hlimit : sink.limit <;> simp [hchunk, hlimit] at h ⊢ <;> omega

theorem cap_of_room_eq_zero (hfits : sink.Fits n) (h : sink.room n = some 0) :
    sink.cap = some n := by
  have hcap : ∃ c, sink.cap = some c ∧ c ≤ n := by
    unfold cap
    split
    · exact ⟨0, rfl, Nat.zero_le n⟩
    · exact (eq_zero_or_le_of_room h).resolve_left ‹_›
  obtain ⟨c, hc, hle⟩ := hcap
  rw [hc, Nat.le_antisymm hle (hfits c hc)]

theorem fits_of_room {k : Nat} (h : sink.room n = some (k + 1)) :
    sink.Fits (n + (k + 1)) := by
  obtain ⟨hchunk, hlimit⟩ := le_of_room h
  intro c hc
  unfold cap at hc
  split at hc
  · exact absurd (hchunk 0 ‹_›) (Nat.not_succ_le_zero k)
  · have hle := hlimit c hc
    omega

/-! ## 3. What the sink gets -/

/-- **A sink gets the first bytes of what it is offered**, as many as it takes in all, and stops the
    writing if these are not all. -/
theorem offer_eq (bytes : List UInt8) {t : Transfer} (hfits : sink.Fits t.received.size) :
    (sink.offer bytes t).toReceipt =
      ⟨(sink.first (t.received.toList ++ bytes)).toArray,
        if sink.Fits (t.received.size + bytes.length) then t.failure else some sink.stuck⟩ := by
  fun_induction sink.offer bytes t with
  | case1 t =>
    rw [List.append_nil, first_of_fits (by simpa using hfits), List.length_nil, Nat.add_zero,
      if_pos hfits, Array.toArray_toList]
  | case2 b rest received failure calls hroom =>
    have hall := fits_of_cap_eq_none (cap_of_room_eq_none hroom)
    have hbytes : received ++ b :: rest = (received.toList ++ b :: rest).toArray := by
      apply Array.ext'
      simp
    rw [first_of_fits (hall _), if_pos (hall _), hbytes]
  | case3 b rest received failure calls hroom =>
    have hcap := cap_of_room_eq_zero hfits hroom
    have hnot : ∀ n, received.size < n → ¬ sink.Fits n := fun n hlt h =>
      absurd (h _ hcap) (Nat.not_le.mpr hlt)
    have hfirst : sink.first (received.toList ++ b :: rest) = received.toList := by
      unfold first most
      rw [hcap]
      simp
    rw [hfirst, if_neg (hnot _ (by simp)), Array.toArray_toList]
  | case4 b rest received failure calls n hroom ih =>
    have hlist : (received.push b ++ rest.take n).toList = received.toList ++ b :: rest.take n := by
      simp
    have hlength : (received.push b ++ rest.take n).size =
        received.size + (1 + min n rest.length) := by
      rw [← Array.length_toList, hlist, List.length_append, List.length_cons, List.length_take,
        Array.length_toList, Nat.add_comm 1]
    have hfits' : sink.Fits (received.push b ++ rest.take n).size :=
      (fits_of_room hroom).mono (by omega)
    have hall : received.toList ++ b :: rest.take n ++ rest.drop n = received.toList ++ b :: rest := by
      simp
    have hsize : received.size + (1 + min n rest.length) + (rest.drop n).length =
        received.size + (b :: rest).length := by
      rw [List.length_drop, List.length_cons]
      omega
    rw [ih hfits', hlist, hall, hlength, hsize]

/-- A sink that takes all the bytes it is offered has got them after those before. -/
theorem offer_of_fits {bytes : List UInt8} {t : Transfer}
    (hfits : sink.Fits (t.received.size + bytes.length)) :
    (sink.offer bytes t).toReceipt = ⟨(t.received.toList ++ bytes).toArray, t.failure⟩ := by
  rw [offer_eq bytes (hfits.mono (Nat.le_add_right _ _)), if_pos hfits,
    first_of_fits (by simpa using hfits)]

/-- Pieces after one that the sink takes are offered too. -/
theorem take_of_fits {piece : List UInt8} (pieces : List (List UInt8)) {t : Transfer}
    (hfailure : t.failure = none) (hfits : sink.Fits (t.received.size + piece.length)) :
    sink.take (piece :: pieces) t = sink.take pieces (sink.offer piece t) := by
  have hoffer : (sink.offer piece t).failure = none :=
    (congrArg Receipt.failure (offer_of_fits hfits)).trans hfailure
  rw [take, hoffer]

/-- Pieces after one that the sink does not take are not. -/
theorem take_of_not_fits {piece : List UInt8} (pieces : List (List UInt8)) {t : Transfer}
    (hfits : sink.Fits t.received.size) (hpiece : ¬ sink.Fits (t.received.size + piece.length)) :
    sink.take (piece :: pieces) t = sink.offer piece t := by
  have hoffer : (sink.offer piece t).failure = some sink.stuck := by
    rw [offer_eq piece hfits]
    exact if_neg hpiece
  rw [take, hoffer]

/-- **And so it does when it is offered pieces.** If it takes all of them, it is flushed. -/
theorem take_eq (pieces : List (List UInt8)) {t : Transfer} (hfailure : t.failure = none)
    (hfits : sink.Fits t.received.size) :
    (sink.take pieces t).toReceipt =
      ⟨(sink.first (t.received.toList ++ pieces.flatten)).toArray,
        if sink.Fits (t.received.size + pieces.flatten.length) then
          if sink.flushFails then some .flush else none
        else some sink.stuck⟩ := by
  induction pieces generalizing t with
  | nil =>
    have hall : sink.first (t.received.toList ++ [].flatten) = t.received.toList := by
      rw [List.flatten_nil, List.append_nil, first_of_fits (by simpa using hfits)]
    rw [take, flush, hall, hfailure, List.flatten_nil, List.length_nil, Nat.add_zero, if_pos hfits,
      Array.toArray_toList]
  | cons piece pieces ih =>
    rw [List.flatten_cons, ← List.append_assoc]
    by_cases hpiece : sink.Fits (t.received.size + piece.length)
    · have hoffer := offer_of_fits hpiece
      have hreceived : (sink.offer piece t).received.toList = t.received.toList ++ piece :=
        congrArg (fun r : Receipt => r.received.toList) hoffer
      have hsize : (sink.offer piece t).received.size = t.received.size + piece.length := by
        rw [← Array.length_toList, hreceived, List.length_append, Array.length_toList]
      rw [take_of_fits pieces hfailure hpiece,
        ih ((congrArg Receipt.failure hoffer).trans hfailure) (by rwa [hsize]), hreceived, hsize,
        List.length_append, Nat.add_assoc]
    · have hrest : ¬ sink.Fits (t.received.size + (piece ++ pieces.flatten).length) := fun h =>
        hpiece (h.mono (by simp))
      have hfirst : sink.first (t.received.toList ++ piece ++ pieces.flatten) =
          sink.first (t.received.toList ++ piece) := first_append_of_not_fits (by simpa using hpiece) _
      rw [take_of_not_fits pieces hfits hpiece, offer_eq piece hfits, if_neg hpiece, if_neg hrest,
        hfirst]

end

/-! ## 4. The calls that are made on it -/

namespace Call

/-- The bytes that the sink takes in the call. -/
def taken : Call → List UInt8
  | write _ taken => taken
  | flush => []

/-- The call offers something, and the sink takes the first of it, no more than it takes at a time. -/
def Offers (sink : Sink) : Call → Prop
  | write offered taken =>
    offered ≠ [] ∧ taken <+: offered ∧ ∀ c ∈ sink.chunk, taken.length ≤ c
  | flush => False

end Call

/-- From `t` to `t'` the calls `writes` were made on the sink: each offered something, and what the sink
    took in them it has got. -/
structure Transfer.Continues (sink : Sink) (t : Transfer) (writes : List Call) (t' : Transfer) :
    Prop where
  offers : ∀ call ∈ writes, call.Offers sink
  calls : t'.calls.toList = t.calls.toList ++ writes
  received : t'.received.toList = t.received.toList ++ writes.flatMap Call.taken

section

variable {sink : Sink} {t t' t'' : Transfer} {writes writes' : List Call}

theorem Transfer.Continues.refl (sink : Sink) (t : Transfer) : Continues sink t [] t where
  offers := List.forall_mem_nil _
  calls := (List.append_nil _).symm
  received := (List.append_nil _).symm

theorem Transfer.Continues.trans (h : Continues sink t writes t')
    (h' : Continues sink t' writes' t'') : Continues sink t (writes ++ writes') t'' where
  offers := List.forall_mem_append.mpr ⟨h.offers, h'.offers⟩
  calls := by rw [h'.calls, h.calls, List.append_assoc]
  received := by rw [h'.received, h.received, List.flatMap_append, List.append_assoc]

/-- One call. -/
theorem Transfer.Continues.of_write {offered taken : List UInt8}
    (hoffers : (Call.write offered taken).Offers sink)
    (hcalls : t'.calls = t.calls.push (.write offered taken))
    (hreceived : t'.received.toList = t.received.toList ++ taken) :
    Continues sink t [.write offered taken] t' where
  offers := List.forall_mem_singleton.mpr hoffers
  calls := by rw [hcalls, Array.toList_push]
  received := by rw [hreceived, List.flatMap_singleton, Call.taken]

/-- **Bytes are offered in calls that offer some**, and what the sink takes in them it gets. -/
theorem exists_continues_offer (sink : Sink) (bytes : List UInt8) (t : Transfer) :
    ∃ writes, Transfer.Continues sink t writes (sink.offer bytes t) := by
  fun_induction sink.offer bytes t with
  | case1 t => exact ⟨[], .refl sink t⟩
  | case2 b rest received failure calls hroom =>
    refine ⟨_, .of_write ⟨List.cons_ne_nil b rest, List.prefix_refl _, fun c hc => ?_⟩ rfl ?_⟩
    · rw [(unbounded_of_room hroom).1] at hc
      cases hc
    · exact Array.toList_appendList
  | case3 b rest received failure calls hroom =>
    have hoffers : (Call.write (b :: rest) []).Offers sink :=
      ⟨List.cons_ne_nil b rest, List.nil_prefix, fun c _ => Nat.zero_le c⟩
    exact ⟨_, .of_write hoffers rfl (List.append_nil _).symm⟩
  | case4 b rest received failure calls n hroom ih =>
    obtain ⟨writes, hwrites⟩ := ih
    refine ⟨_, .trans (.of_write ⟨List.cons_ne_nil b rest, ?_, fun c hc => ?_⟩ rfl ?_) hwrites⟩
    · exact (List.prefix_cons_inj b).mpr (List.take_prefix n rest)
    · have hle := (le_of_room hroom).1 c hc
      rw [List.length_cons, List.length_take]
      omega
    · simp

/-- **The calls that are made when pieces are written.** First something is offered, in each call, and
    what is taken is what the sink gets. Then it is flushed, if it has taken all. -/
theorem exists_continues_take (pieces : List (List UInt8)) {t : Transfer}
    (hfailure : t.failure = none) (hfits : sink.Fits t.received.size) :
    ∃ writes t', Transfer.Continues sink t writes t' ∧
      sink.take pieces t =
        if sink.Fits (t.received.size + pieces.flatten.length) then sink.flush t' else t' := by
  induction pieces generalizing t with
  | nil =>
    refine ⟨[], t, .refl sink t, ?_⟩
    rw [List.flatten_nil, List.length_nil, Nat.add_zero, if_pos hfits, take]
  | cons piece pieces ih =>
    obtain ⟨writes, hwrites⟩ := sink.exists_continues_offer piece t
    rw [List.flatten_cons]
    by_cases hpiece : sink.Fits (t.received.size + piece.length)
    · -- the piece is taken, and the rest goes on from what the sink has got by then
      have hoffer := offer_of_fits hpiece
      have hsize : (sink.offer piece t).received.size = t.received.size + piece.length := by
        rw [hoffer, List.size_toArray, List.length_append, Array.length_toList]
      obtain ⟨writes', t', hwrites', htake⟩ :=
        ih ((congrArg Receipt.failure hoffer).trans hfailure) (hsize ▸ hpiece)
      refine ⟨writes ++ writes', t', hwrites.trans hwrites', ?_⟩
      rw [take_of_fits pieces hfailure hpiece, htake, hsize, List.length_append, Nat.add_assoc]
    · have hrest : ¬ sink.Fits (t.received.size + (piece ++ pieces.flatten).length) := fun h =>
        hpiece (h.mono (by simp))
      refine ⟨writes, _, hwrites, ?_⟩
      rw [take_of_not_fits pieces hfits hpiece, if_neg hrest]

end

end Sink

/-! ## 5. Outputs -/

namespace Output

/-- The bytes of the pieces, put together, are those of the text. -/
theorem flatten_toUTF8 (o : Output) :
    (o.pieces.toList.map fun s => s.toUTF8.data.toList).flatten = o.text.toUTF8.data.toList := by
  unfold text
  induction o.pieces.toList with
  | nil => rfl
  | cons s ss ih =>
    have hjoin : (String.join (s :: ss)).toUTF8.data.toList =
        s.toUTF8.data.toList ++ (String.join ss).toUTF8.data.toList := by
      simp [String.toUTF8]
    rw [List.map_cons, List.flatten_cons, ih, hjoin]

/-- **What comes of writing an output is a matter of its text and of the sink.** -/
theorem writeTo_eq (o : Output) (sink : Sink) :
    o.writeTo sink =
      ⟨(sink.first o.text.toUTF8.data.toList).toArray,
        if sink.Fits o.text.toUTF8.data.toList.length then
          if sink.flushFails then some .flush else none
        else some sink.stuck⟩ := by
  have htake := Sink.take_eq (o.pieces.toList.map fun s => s.toUTF8.data.toList)
    (t := Sink.Transfer.start) rfl sink.fits_zero
  rw [flatten_toUTF8] at htake
  rw [writeTo, transfer, htake]
  simp [Sink.Transfer.start]

/-- **A sink without a limit gets the bytes of the text**, and nothing stops the writing but a flush
    that fails. -/
theorem writeTo_of_unbounded (o : Output) {sink : Sink} (hlimit : sink.limit = none)
    (hchunk : sink.chunk ≠ some 0) :
    o.writeTo sink = ⟨o.text.toUTF8.data, if sink.flushFails then some .flush else none⟩ := by
  have hcap : sink.cap = none := by rw [Sink.cap, if_neg hchunk, hlimit]
  have hall := Sink.fits_of_cap_eq_none hcap
  rw [writeTo_eq, Sink.first_of_fits (hall _), if_pos (hall _), Array.toArray_toList]

/-- Of a sink only this counts: its limit, whether it takes any bytes at a time, whether it refuses, and
    whether flushing fails. -/
theorem writeTo_congr {a b : Output} {s t : Sink} (htext : a.text = b.text)
    (hlimit : s.limit = t.limit) (hchunk : s.chunk = some 0 ↔ t.chunk = some 0)
    (hrefuses : s.refuses = t.refuses) (hflush : s.flushFails = t.flushFails) :
    a.writeTo s = b.writeTo t := by
  have hcap : s.cap = t.cap := by
    unfold Sink.cap
    rw [hlimit]
    exact if_congr hchunk rfl rfl
  have hfirst : ∀ bytes, s.first bytes = t.first bytes := fun bytes => by
    rw [Sink.first, Sink.most, hcap]
    rfl
  have hfits : ∀ n, s.Fits n ↔ t.Fits n := fun n => by
    rw [Sink.Fits, hcap]
    rfl
  have hstuck : s.stuck = t.stuck := by
    rw [Sink.stuck, hrefuses]
    rfl
  rw [writeTo_eq, writeTo_eq, htext, hfirst, hflush, hstuck]
  simp only [hfits]

/-- The calls are those that offer something, and a last one that flushes the sink, if it took all. -/
theorem exists_calls_transfer (o : Output) (sink : Sink) :
    ∃ writes : List Sink.Call, (∀ call ∈ writes, call.Offers sink) ∧
      (o.writeTo sink).received.toList = writes.flatMap Sink.Call.taken ∧
      (o.transfer sink).calls.toList = writes ++
        if sink.Fits o.text.toUTF8.data.toList.length then [.flush] else [] := by
  obtain ⟨writes, t, hwrites, htake⟩ := Sink.exists_continues_take
    (o.pieces.toList.map fun s => s.toUTF8.data.toList) (t := Sink.Transfer.start) rfl
    sink.fits_zero
  have hsize : Sink.Transfer.start.received.size = 0 := rfl
  rw [flatten_toUTF8, hsize, Nat.zero_add] at htake
  refine ⟨writes, hwrites.offers, ?_, ?_⟩
  · rw [writeTo, transfer, htake]
    split <;> exact hwrites.received
  · rw [transfer, htake]
    split
    · rw [Sink.flush, Array.toList_push, hwrites.calls]
      rfl
    · rw [List.append_nil]
      exact hwrites.calls

end Output

namespace Registers

/-- **What a sink gets of a register**, whatever the registers hold. It gets the first bytes of the text,
    as many as it takes in all. All calls made on it offer something, but for one: if the sink can take
    the whole text it is flushed, in the last call, and nothing fails unless flushing does. If it cannot,
    it is not flushed, and it fails as it does when it is full. The registers are as before. Any register
    with this text has the same receipt, also from a sink that takes more or fewer bytes at a time, if it
    takes any. -/
theorem receipt_write (rs : Registers) (key : String) (sink : Sink) :
    let o := rs.read key
    let bytes := o.text.toUTF8.data.toList
    ∃ (receipt : Receipt) (writes : List Sink.Call),
      Action.perform key rs (.write sink) = .ok (.receipt receipt, rs) ∧
      receipt = (o.transfer sink).toReceipt ∧
      receipt.received.toList = bytes.take (sink.most bytes.length) ∧
      (∀ call ∈ writes, call.Offers sink) ∧
      receipt.received.toList = writes.flatMap Sink.Call.taken ∧
      (sink.Fits bytes.length →
        (o.transfer sink).calls.toList = writes ++ [.flush] ∧
        receipt.failure = if sink.flushFails then some .flush else none) ∧
      (¬ sink.Fits bytes.length →
        (o.transfer sink).calls.toList = writes ∧
        receipt.failure = some (if sink.refuses then .full else .nothingTaken)) ∧
      (∀ (rs' : Registers) (key' : String) (sink' : Sink),
        (rs'.read key').text = o.text → sink'.limit = sink.limit →
          (sink'.chunk = some 0 ↔ sink.chunk = some 0) → sink'.refuses = sink.refuses →
          sink'.flushFails = sink.flushFails →
          Action.perform key' rs' (.write sink') = .ok (.receipt receipt, rs')) := by
  intro o bytes
  obtain ⟨writes, hoffers, htaken, hcalls⟩ := o.exists_calls_transfer sink
  have hreceipt := o.writeTo_eq sink
  refine ⟨o.writeTo sink, writes, rfl, rfl, ?_, hoffers, htaken, fun h => ⟨?_, ?_⟩,
    fun h => ⟨?_, ?_⟩, ?_⟩
  · rw [hreceipt]
    rfl
  · rw [hcalls, if_pos h]
  · rw [hreceipt]
    exact if_pos h
  · rw [hcalls, if_neg h, List.append_nil]
  · rw [hreceipt]
    exact if_neg h
  · intro rs' key' sink' htext hlimit hchunk hrefuses hflush
    exact congrArg (fun r => Except.ok (Answer.receipt r, rs'))
      (Output.writeTo_congr htext hlimit hchunk hrefuses hflush)

/-- A limit that is reached where a piece ends is enough if it is the last piece, and not if there is
    another. -/
example :
    let sink : Sink := ⟨some 2, some 3, false, false⟩
    let o := Output.ofTexts ["", "abc"]
    let o' := Output.ofTexts ["abc", "d"]
    o.writeTo sink = ⟨"abc".toUTF8.data, none⟩ ∧ (o.transfer sink).calls.size = 3 ∧
      o'.writeTo sink = ⟨"abc".toUTF8.data, some .nothingTaken⟩ := by
  decide +kernel

end Registers

end Emission
