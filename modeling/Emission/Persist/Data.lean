/-!
# Persisted data

The form in which values are stored: `Data`, a tree of the kinds that JSON has. Integers are kept
apart from other numbers, since only an integer can be read as a natural number.

A type with such a form is an instance of `Persistent`: it writes every value (`toData`) and reads
those data that are the form of one (`ofData?`). The readers of simple data are here.
-/

namespace Emission

/-- A tree of stored data. -/
inductive Data where
  | null
  | bool (b : Bool)
  | int (n : Int)
  /-- A number that is not written as an integer, by its numeral. -/
  | real (numeral : String)
  | str (s : String)
  | arr (items : List Data)
  | obj (fields : List (String × Data))
  deriving Repr

/-- A type whose values can be stored. -/
class Persistent (α : Type) where
  toData : α → Data
  ofData? : Data → Option α

export Persistent (toData ofData?)

namespace Data

/-- The greatest natural number that is stored: the greatest word of 64 bits. -/
def maxNatural : Nat := UInt64.size - 1

/-- The truth value that the data are. -/
def bool? : Data → Option Bool
  | bool b => some b
  | _ => none

/-- The text that the data are. -/
def str? : Data → Option String
  | str s => some s
  | _ => none

/-- The natural number that the data are, if it is one that is stored. -/
def natural? : Data → Option Nat
  | int n => if 0 ≤ n ∧ n ≤ maxNatural then some n.toNat else none
  | _ => none

/-- The field of the name `key`. -/
def field? (key : String) : List (String × Data) → Option Data
  | [] => none
  | (k, d) :: fields => if k = key then some d else field? key fields

/-- The name of a constructor without fields: it stands by itself, or as the only key of an object
    before a null. -/
def tag? : Data → Option String
  | str tag => some tag
  | obj [(tag, null)] => some tag
  | _ => none

end Data

end Emission
