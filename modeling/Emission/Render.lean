import Emission.Emit.Scope

/-!
# Things that render themselves

A type whose values can be written by an emission run is an instance of `Render`. Text is written as
it is, and a variable by its label; what is absent writes nothing; a list writes its elements in
order. Between the elements of a list a separator can be put (`renderSep`): there is one between each
two neighbours, whether they write anything or not.
-/

namespace Emission

/-- A type whose values can be written. -/
class Render (α : Type) where
  render : α → Emit Unit

export Render (render)

namespace Emit

/-- Runs the computations in order. -/
def inOrder : List (Emit Unit) → Emit Unit
  | [] => pure ()
  | body :: bodies => do
    body
    inOrder bodies

/-- Runs the computations in order and writes `separator` between neighbours. -/
def separatedBy (separator : String) : List (Emit Unit) → Emit Unit
  | [] => pure ()
  | body :: bodies => do
    body
    inOrder (bodies.map fun body => do
      emit separator
      body)

end Emit

variable {α : Type}

instance : Render String := ⟨Emit.emit⟩

instance : Render Var := ⟨Emit.emitVar⟩

instance [Render α] : Render (Option α) where
  render
    | none => pure ()
    | some a => render a

instance [Render α] : Render (List α) where
  render as := Emit.inOrder (as.map render)

/-- Writes the items in order with `separator` between neighbours. -/
def renderSep [Render α] (items : List α) (separator : String) : Emit Unit :=
  Emit.separatedBy separator (items.map render)

/-- The text of `a`, rendered in a run of its own. -/
def renderToString [Render α] (config : Config) (a : α) : Except Fault String := do
  return (← Emit.run config (render a)).text

end Emission
