import Emission.Output

/-!
# Sinks

An output can be written to a sink, piece by piece. A sink may take only some bytes at a time
(`chunk`) and only so many in all (`limit`); what it has not taken is offered to it again. A sink
that can take nothing of what it is offered either refuses or takes nothing, and both end the
writing. After the last piece the sink is flushed, which may fail too.

`Sink.take` is the writing, with the calls that are made on the sink; of these `Output.writeTo` gives no
account, but of what the sink got and why it stopped, if it stopped early.
-/

namespace Emission

/-- Something that takes bytes. -/
structure Sink where
  /-- The most bytes taken at a time, if there is a bound. -/
  chunk : Option Nat
  /-- The most bytes taken in all, if there is a bound. -/
  limit : Option Nat
  /-- Whether the sink refuses what it cannot take, or else takes nothing of it. -/
  refuses : Bool
  /-- Whether flushing fails. -/
  flushFails : Bool
  deriving DecidableEq, Repr

/-- Why writing to a sink ended early. -/
inductive SinkFailure where
  /-- The sink refused to take more. -/
  | full
  /-- The sink took nothing of what it was offered. -/
  | nothingTaken
  /-- The sink could not be flushed. -/
  | flush
  deriving DecidableEq, Repr

/-- The wording of a failure. -/
def SinkFailure.message : SinkFailure → String
  | .full => "sink full"
  | .nothingTaken => "failed to write whole buffer"
  | .flush => "flush failed"

/-- What came of writing to a sink. -/
structure Receipt where
  /-- The bytes that the sink took, in order. -/
  received : Array UInt8
  failure : Option SinkFailure
  deriving DecidableEq, Repr

namespace Sink

/-- A call on a sink. -/
inductive Call where
  /-- Some bytes are offered, and the first of them are taken. -/
  | write (offered taken : List UInt8)
  | flush
  deriving DecidableEq, Repr

/-- What has come of writing to a sink so far, and the calls it came about by. -/
structure Transfer extends Receipt where
  calls : Array Call
  deriving DecidableEq, Repr

/-- Nothing has been written to the sink. -/
def Transfer.start : Transfer := ⟨⟨#[], none⟩, #[]⟩

/-- How many bytes the sink takes at most when it has `received` already. -/
def room (sink : Sink) (received : Nat) : Option Nat :=
  match sink.chunk, sink.limit.map (· - received) with
  | none, none => none
  | some n, none | none, some n => some n
  | some n, some m => some (min n m)

/-- The failure of a sink that can take nothing of what it is offered. -/
def stuck (sink : Sink) : SinkFailure :=
  if sink.refuses then .full else .nothingTaken

/-- Offers some bytes to the sink until it has taken all of them or can take no more. -/
def offer (sink : Sink) : List UInt8 → Transfer → Transfer
  | [], t => t
  | b :: rest, ⟨⟨received, failure⟩, calls⟩ =>
    match sink.room received.size with
    | none => ⟨⟨received ++ (b :: rest), failure⟩, calls.push (.write (b :: rest) (b :: rest))⟩
    | some 0 => ⟨⟨received, some sink.stuck⟩, calls.push (.write (b :: rest) [])⟩
    | some (n + 1) =>
      sink.offer (rest.drop n)
        ⟨⟨received.push b ++ rest.take n, failure⟩,
          calls.push (.write (b :: rest) (b :: rest.take n))⟩
termination_by bytes => bytes.length
decreasing_by
  simp only [List.length_drop, List.length_cons]
  omega

/-- Flushes the sink. -/
def flush (sink : Sink) (t : Transfer) : Transfer where
  received := t.received
  failure := if sink.flushFails then some .flush else t.failure
  calls := t.calls.push .flush

/-- Offers the pieces to the sink, one after the other, and flushes it after the last. -/
def take (sink : Sink) : List (List UInt8) → Transfer → Transfer
  | [], t => sink.flush t
  | piece :: pieces, t =>
    let t := sink.offer piece t
    match t.failure with
    | none => sink.take pieces t
    | some _ => t

end Sink

namespace Output

/-- The writing of the output to a sink that nothing has been written to. -/
def transfer (o : Output) (sink : Sink) : Sink.Transfer :=
  sink.take (o.pieces.toList.map fun s => s.toUTF8.data.toList) .start

/-- Writes the output to a sink that nothing has been written to. -/
def writeTo (o : Output) (sink : Sink) : Receipt :=
  (o.transfer sink).toReceipt

end Output

end Emission
