/-!
# Emitters

An emitter takes texts, one after the other, and keeps their order. A caller hands over a text in one
of three ways (`Handover`); an emitter need only say how it takes a text that is lent to it, and takes
the others the same way unless it says otherwise. A newline is a fixed text.

`Transcript` is the emitter that records every text it is given, the empty ones included, and says
nothing but how it takes a lent one.
-/

namespace Emission

/-- How a caller hands over a text. -/
inductive Handover where
  /-- The caller lends the text for the time of the call. -/
  | lent
  /-- The caller gives the text away. -/
  | owned
  /-- The text is a fixed part of the program. -/
  | fixed
  deriving DecidableEq, Repr

/-- Something that takes texts in order. -/
class Emitter (σ : Type) where
  emit : String → σ → σ
  emitOwned : String → σ → σ := emit
  emitFixed : String → σ → σ := emit
  emitNewline : σ → σ := emitFixed "\n"

/-- One call that a caller makes on an emitter. -/
inductive Call where
  | text (how : Handover) (s : String)
  | newline
  deriving DecidableEq, Repr

namespace Call

/-- The emitter after the call. -/
def run {σ : Type} [Emitter σ] : Call → σ → σ
  | text .lent s, e => Emitter.emit s e
  | text .owned s, e => Emitter.emitOwned s e
  | text .fixed s, e => Emitter.emitFixed s e
  | newline, e => Emitter.emitNewline e

/-- The text that the call hands over. -/
def payload : Call → String
  | text _ s => s
  | newline => "\n"

/-- The emitter after all the calls, in order. -/
def runAll {σ : Type} [Emitter σ] (calls : List Call) (e : σ) : σ :=
  calls.foldl (fun e call => call.run e) e

end Call

/-- A record of texts, in the order in which they came. -/
structure Transcript where
  texts : Array String
  deriving DecidableEq, Repr

namespace Transcript

def empty : Transcript := ⟨#[]⟩

instance : Emitter Transcript where
  emit s t := ⟨t.texts.push s⟩

@[simp] theorem texts_run (call : Call) (t : Transcript) :
    (call.run t).texts = t.texts.push call.payload := by
  cases call with
  | text how s => cases how <;> rfl
  | newline => rfl

/-- **The transcript of some calls is the list of the texts they hand over.** -/
theorem texts_runAll (calls : List Call) (t : Transcript) :
    (Call.runAll calls t).texts = t.texts ++ (calls.map Call.payload).toArray := by
  induction calls generalizing t with
  | nil => simp [Call.runAll]
  | cons call calls ih =>
    have := ih (call.run t)
    simp only [Call.runAll, List.foldl_cons] at this ⊢
    rw [this, texts_run]
    simp

end Transcript

end Emission
