import Emission.Text.Quoted

/-!
# Variables

A variable of the program being written is known by what it is, not by how it will be spelt:

* an *external* variable is imported from another module, and has that module's name beside its own;
* an *internal* variable belongs to the program itself;
* a *foreign* variable is given by the environment the program runs in.

Two variables with the same parts are the same variable. They are ordered by origin (external,
internal, foreign), then by module, then by name, text being ordered by code point (`instOrdVar`);
the order is linear and agrees with equality, so variables can be the keys of a search tree.
-/

namespace Emission

/-- Where a variable comes from. -/
inductive Origin where
  | external
  | internal
  | foreign
  deriving DecidableEq, Repr

/-- A variable of the program being written. -/
inductive Var where
  | external (module name : String)
  | internal (name : String)
  | foreign (name : String)
  deriving DecidableEq, Repr

namespace Var

/-! ## 1. Parts -/

def origin : Var → Origin
  | external _ _ => .external
  | internal _ => .internal
  | foreign _ => .foreign

/-- The variable's own name, without its module. -/
def name : Var → String
  | external _ name | internal name | foreign name => name

/-- The module an external variable is imported from. -/
def module? : Var → Option String
  | external module _ => some module
  | internal _ | foreign _ => none

def isExternal (v : Var) : Bool :=
  v.origin == .external

def isForeign (v : Var) : Bool :=
  v.origin == .foreign

/-! ## 2. Spellings -/

/-- Writes the qualified spelling of `v` after `out`: an external variable has its module and a dot
    before its name. -/
def writeQualified (v : Var) (out : String) : String :=
  match v with
  | external module name => out ++ module ++ "." ++ name
  | internal name | foreign name => out ++ name

/-- The qualified spelling, `module.name` or the bare name. -/
def qualified : Var → String
  | external module name => module ++ "." ++ name
  | internal name | foreign name => name

instance : ToString Var := ⟨qualified⟩

/-- The two ways to the qualified spelling agree. -/
theorem writeQualified_eq (v : Var) (out : String) : v.writeQualified out = out ++ v.qualified := by
  cases v <;> simp [writeQualified, qualified, String.append_assoc]

/-- The variable with its constructor and fields, for inspection. -/
def inspect : Var → String
  | external module name =>
    Text.record "External" [("module", Text.quoted module), ("name", Text.quoted name)]
  | internal name => Text.applied "Internal" (Text.quoted name)
  | foreign name => Text.applied "Foreign" (Text.quoted name)

/-! ## 3. Order -/

/-- The place of an origin in the order of variables. -/
def rank (v : Var) : Nat :=
  match v.origin with
  | .external => 0
  | .internal => 1
  | .foreign => 2

/-- The module as an order key: only external variables have one, and they have rank 0. -/
def moduleKey (v : Var) : String :=
  v.module?.getD ""

instance instOrdVar : Ord Var where
  compare := compareLex (compareOn rank) (compareLex (compareOn moduleKey) (compareOn name))

instance : Std.TransOrd Var :=
  inferInstanceAs (Std.TransCmp
    (compareLex (compareOn rank) (compareLex (compareOn moduleKey) (compareOn name))))

/-- **Only equal variables compare as equal.** -/
theorem eq_of_compare_eq {v w : Var} (h : compare v w = .eq) : v = w := by
  have h' : compareLex (compareOn rank) (compareLex (compareOn moduleKey) (compareOn name)) v w
      = .eq := h
  simp only [compareLex_eq_eq, compareOn, Std.compare_eq_iff_eq] at h'
  obtain ⟨hr, hm, hn⟩ := h'
  cases v <;> cases w <;> simp_all [rank, origin, moduleKey, module?, name]

instance : Std.LawfulEqOrd Var where
  eq_of_compare := eq_of_compare_eq

/-! ## 4. Lists of variables -/

/-- The variables in increasing order, equal ones as often as they come. -/
def sort (vs : List Var) : List Var :=
  vs.mergeSort fun v w => (compare v w).isLE

/-- How many different variables there are among some. -/
def countDistinct (vs : List Var) : Nat :=
  vs.eraseDups.length

/-- Each variable with the one that follows it. -/
def neighbours (vs : List Var) : List (Var × Var) :=
  vs.zip vs.tail

end Var

end Emission
