import Emission.Config
import Emission.Text.Blank

/-!
# Presets

The three configurations that have a name. A preset is asked for by its name, in any mixture of upper
and lower case and with any white space around it (`Preset.ofText`); any other text is refused, and
the refusal quotes the text as it was given.
-/

namespace Emission

/-- A configuration with a name. -/
inductive Preset where
  | pseudo
  | pretty
  | compact
  deriving DecidableEq, Repr

/-- A text that names no preset. -/
structure UnknownPreset where
  input : String
  deriving DecidableEq, Repr

/-- The wording of the refusal. -/
def UnknownPreset.message (e : UnknownPreset) : String :=
  "unknown emit preset `" ++ e.input ++ "` (expected one of: pseudo, pretty, compact)"

namespace Preset

/-- All presets, in the order in which a name is looked up. -/
def all : List Preset := [pseudo, pretty, compact]

instance : Inhabited Preset := ⟨pretty⟩

def name : Preset → String
  | pseudo => "pseudo"
  | pretty => "pretty"
  | compact => "compact"

instance : ToString Preset := ⟨name⟩

/-- The configuration that the preset names. -/
def config : Preset → Config
  | pseudo => .pseudo
  | pretty => .pretty
  | compact => .compact

/-- The preset as a constructor, for inspection. -/
def inspect : Preset → String
  | pseudo => "Pseudo"
  | pretty => "Pretty"
  | compact => "Compact"

/-- The preset that `text` names. -/
def ofText (text : String) : Except UnknownPreset Preset :=
  match all.find? fun p => Text.sameUpToCase p.name.toList (Text.trim text.toList) with
  | some p => .ok p
  | none => .error ⟨text⟩

end Preset

end Emission
