import Emission.Config.Preset
import Emission.Persist.Names

/-!
# The stored form of configurations and presets

A configuration is an object with a key for each of its fields. It is also read from an array of its
fields, all of them, in the order of the structure. A preset is a constructor without fields.
-/

namespace Emission

namespace Config

def toData (c : Config) : Data :=
  .obj
    [("indent_level", .int c.indentLevel),
      ("indent_step", .int c.indentStep),
      ("indent_unit", .str c.indentUnit),
      ("newlines", .bool c.newlines),
      ("header", .bool c.header),
      ("naming", c.naming.toData)]

/-- The configuration with the fields stored as these data. -/
def ofParts? (level step unit newlines header naming : Data) : Option Config := do
  return {
    indentLevel := ← level.natural?
    indentStep := ← step.natural?
    indentUnit := ← unit.str?
    newlines := ← newlines.bool?
    header := ← header.bool?
    naming := ← Naming.ofData? naming }

def ofData? : Data → Option Config
  | .obj fields => do
    ofParts? (← Data.field? "indent_level" fields) (← Data.field? "indent_step" fields)
      (← Data.field? "indent_unit" fields) (← Data.field? "newlines" fields)
      (← Data.field? "header" fields) (← Data.field? "naming" fields)
  | .arr [level, step, unit, newlines, header, naming] =>
    ofParts? level step unit newlines header naming
  | _ => none

end Config

instance : Persistent Config := ⟨Config.toData, Config.ofData?⟩

namespace Preset

def toData (p : Preset) : Data :=
  .str p.inspect

def ofData? (d : Data) : Option Preset := do
  match ← d.tag? with
  | "Pseudo" => some pseudo
  | "Pretty" => some pretty
  | "Compact" => some compact
  | _ => none

end Preset

instance : Persistent Preset := ⟨Preset.toData, Preset.ofData?⟩

end Emission
