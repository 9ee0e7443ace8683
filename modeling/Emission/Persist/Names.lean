import Emission.Naming
import Emission.Persist.Data

/-!
# The stored form of variables and strategies

A constructor with one field is an object whose only key is the constructor's name and whose value is
the field. Fields with names are an object, in which unknown names are passed over; no other form of
them is read. A constructor without fields is read as `Data.tag?` says, and written by itself.
-/

namespace Emission

/-! ## 1. Variables -/

namespace Var

def toData : Var → Data
  | external module name =>
    .obj [("External", .obj [("module", .str module), ("name", .str name)])]
  | internal name => .obj [("Internal", .str name)]
  | foreign name => .obj [("Foreign", .str name)]

def ofData? : Data → Option Var
  | .obj [("External", .obj fields)] => do
    let module ← (← Data.field? "module" fields).str?
    let name ← (← Data.field? "name" fields).str?
    return external module name
  | .obj [("Internal", .str name)] => some (internal name)
  | .obj [("Foreign", .str name)] => some (foreign name)
  | _ => none

end Var

instance : Persistent Var := ⟨Var.toData, Var.ofData?⟩

/-! ## 2. Strategies -/

def Naming.toData : Naming → Data
  | .qualified => .str "Qualified"
  | .unique => .str "Unique"
  | .comment inner => .obj [("Comment", inner.toData)]
  | .commentExternal inner => .obj [("CommentExternal", inner.toData)]
  | .append back front => .obj [("Append", .obj [("back", back.toData), ("front", front.toData)])]

mutual

def Naming.ofData? : Data → Option Naming
  | .str "Qualified" | .obj [("Qualified", .null)] => some .qualified
  | .str "Unique" | .obj [("Unique", .null)] => some .unique
  | .obj [("Comment", inner)] => (Naming.ofData? inner).map .comment
  | .obj [("CommentExternal", inner)] => (Naming.ofData? inner).map .commentExternal
  | .obj [("Append", .obj fields)] => do
    let back ← Naming.ofField? "back" fields
    let front ← Naming.ofField? "front" fields
    return .append back front
  | _ => none

/-- The strategy stored in the field of the name `key`. -/
def Naming.ofField? (key : String) : List (String × Data) → Option Naming
  | [] => none
  | (k, d) :: fields => if k = key then Naming.ofData? d else Naming.ofField? key fields

end

instance : Persistent Naming := ⟨Naming.toData, Naming.ofData?⟩

/-- The strategy in a field is the one that the field's data are. -/
theorem Naming.ofField?_eq (key : String) (fields : List (String × Data)) :
    Naming.ofField? key fields = (Data.field? key fields).bind Naming.ofData? := by
  induction fields with
  | nil => rfl
  | cons field fields ih =>
    obtain ⟨k, d⟩ := field
    rw [Naming.ofField?, Data.field?]
    split <;> simp [ih]

end Emission
