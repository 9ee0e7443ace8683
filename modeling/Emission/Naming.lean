import Emission.Label
import Emission.NameTable.Ledger

/-!
# Naming strategies

A strategy decides how a variable is spelt in the text. Two strategies are primitive:

* `qualified` spells the variable as it is called, `module.name` or the bare name;
* `unique` spells it by the label of its number in the name table, and numbers it if need be; a
  foreign variable keeps its name, since the environment knows it by that.

The others are built from strategies: `comment` puts a spelling between comment marks,
`commentExternal` does so for external variables and is silent about all others, and `append` runs
two strategies one after the other, the one in front first.

Three combinations have names of their own: `pseudo`, `pretty` and `compact`.
-/

namespace Emission

/-- What opens a comment in the text. -/
def commentOpen : String := "/*"

/-- What closes a comment in the text. -/
def commentClose : String := "*/"

/-- A way to spell variables. -/
inductive Naming where
  | qualified
  | unique
  | comment (inner : Naming)
  | commentExternal (inner : Naming)
  | append (back front : Naming)
  deriving DecidableEq, Repr

namespace Naming

/-! ## 1. The named combinations -/

/-- Names as they are called, for reading; they may collide. -/
def pseudo : Naming := qualified

/-- Labels, and after the label of an external variable a comment with its qualified spelling. -/
def pretty : Naming := append (commentExternal qualified) unique

/-- Labels alone. -/
def compact : Naming := unique

instance : Inhabited Naming := ⟨pretty⟩

/-! ## 2. Labels -/

/-- Writes the label of `v` after `out`, and asks for the number of `v` where the strategy does. -/
def writeLabel (v : Var) : Naming → String → Numbering String
  | qualified, out => return v.writeQualified out
  | unique, out => do
    if v.isForeign then return out ++ v.name
    else return Label.write (← Numbering.allocate v) out
  | comment inner, out => do
    return (← inner.writeLabel v (out ++ commentOpen)) ++ commentClose
  | commentExternal inner, out => do
    if v.isExternal then return (← inner.writeLabel v (out ++ commentOpen)) ++ commentClose
    else return out
  | append back front, out => do
    back.writeLabel v (← front.writeLabel v out)

/-- The label of `v` under the strategy. -/
def label (n : Naming) (v : Var) : Numbering String :=
  n.writeLabel v ""

/-- Whether the strategy can ask for a number. -/
def allocates : Naming → Bool
  | qualified => false
  | unique => true
  | comment inner | commentExternal inner => inner.allocates
  | append back front => back.allocates || front.allocates

/-- The strategy with its constructors, for inspection. -/
def inspect : Naming → String
  | qualified => "Qualified"
  | unique => "Unique"
  | comment inner => Text.applied "Comment" inner.inspect
  | commentExternal inner => Text.applied "CommentExternal" inner.inspect
  | append back front => Text.record "Append" [("back", back.inspect), ("front", front.inspect)]

end Naming

end Emission
