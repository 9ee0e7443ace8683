import Emission.Naming

/-!
# Configurations

What an emission run is to look like: the depth it starts at, the width of a step inwards, the text
of one unit of depth, whether lines end and whether headers are written, and how variables are spelt.

Depths are words of 64 bits: adding to a depth stops at the greatest one (`Config.further`), and so
does the width of an indentation (`Config.indentWidth`).
-/

namespace Emission

/-- The greatest depth, and the greatest width: the greatest word of 64 bits. -/
def maxDepth : Nat := UInt64.size - 1

/-- The step inwards of the readable presets. -/
def defaultStep : Nat := 4

/-- The unit of depth of the readable presets. -/
def defaultUnit : String := " "

/-- The settings of an emission run. -/
structure Config where
  /-- The current depth, in units. -/
  indentLevel : Nat
  /-- The units added by one step inwards. -/
  indentStep : Nat
  /-- The text of one unit. -/
  indentUnit : String
  /-- Whether lines end with a newline. -/
  newlines : Bool
  /-- Whether headers are written. -/
  header : Bool
  /-- How variables are spelt. -/
  naming : Naming
  deriving DecidableEq, Repr

namespace Config

/-- Readable, with names as they are called and without headers. -/
def pseudo : Config where
  indentLevel := 0
  indentStep := defaultStep
  indentUnit := defaultUnit
  newlines := true
  header := false
  naming := .pseudo

/-- Laid out, with labels and the origin of imports beside them. -/
def pretty : Config where
  indentLevel := 0
  indentStep := defaultStep
  indentUnit := defaultUnit
  newlines := true
  header := true
  naming := .pretty

/-- On one line, with labels alone and no white space added. -/
def compact : Config where
  indentLevel := 0
  indentStep := 0
  indentUnit := ""
  newlines := false
  header := true
  naming := .compact

instance : Inhabited Config := ⟨pretty⟩

/-- The depth one step further in. -/
def further (c : Config) : Nat :=
  min maxDepth (c.indentLevel + c.indentStep)

/-- The bytes of an indentation at the current depth. -/
def indentWidth (c : Config) : Nat :=
  min maxDepth (c.indentLevel * c.indentUnit.utf8ByteSize)

/-- The configuration with its fields, for inspection. -/
def inspect (c : Config) : String :=
  Text.record "EmitConfig"
    [("indent_level", Text.natural c.indentLevel),
      ("indent_step", Text.natural c.indentStep),
      ("indent_unit", Text.quoted c.indentUnit),
      ("newlines", Text.truth c.newlines),
      ("header", Text.truth c.header),
      ("naming", c.naming.inspect)]

end Config

end Emission
