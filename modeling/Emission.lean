import Emission.NameTable.Session
import Emission.Output.Registers
import Emission.Persist.Config
import Emission.Persist.Log
import Emission.Program.Exec
import Emission.Render.Module
import Emission.Proofs.Numbering
import Emission.Proofs.Spelling
import Emission.Proofs.Session
import Emission.Proofs.PlainText
import Emission.Proofs.PlainText.Agreement
import Emission.Proofs.Machine
import Emission.Proofs.Machine.Run
import Emission.Proofs.Label
import Emission.Proofs.Lookups
import Emission.Proofs.Collision
import Emission.Proofs.Machine.Pairs
import Emission.Proofs.Renaming
import Emission.Proofs.Lookups.Numbers
import Emission.Proofs.Machine.Places
import Emission.Proofs.Depth
import Emission.Proofs.Capacity
import Emission.Proofs.Machine.Frame
import Emission.Proofs.Capture
import Emission.Proofs.Registers
import Emission.Proofs.Draft
import Emission.Proofs.Session.Stability
import Emission.Proofs.Layout
import Emission.Proofs.Annotation
import Emission.Proofs.Log
import Emission.Label.Slots
import Emission.Proofs.Label.Codec
import Emission.Proofs.Label.Rows
import Emission.Proofs.Persist
import Emission.Proofs.Persist.Shape
import Emission.Proofs.Spelling.Effect
import Emission.Proofs.Annotation.Comments
import Emission.Proofs.Sink
import Emission.Proofs.Output.Merging
import Emission.Proofs.Preset
import Emission.Proofs.Machine.Alike
import Emission.Proofs.Node
import Emission.Proofs.Header
import Emission.Proofs.Lines
import Emission.Proofs.Handover
