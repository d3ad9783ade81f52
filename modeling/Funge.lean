import Funge.Main
import Funge.Playfield.Lemmas
import Funge.Proofs.Steps
import Funge.Proofs.Action
import Funge.Proofs.Attribution
import Funge.Proofs.Lockstep
import Funge.Proofs.Alike
import Funge.Proofs.StepLimit
import Funge.Proofs.Extension
import Funge.Proofs.Padding
import Funge.Proofs.Linear
import Funge.Proofs.OneLine
import Funge.Proofs.Calls
import Funge.Proofs.Protocol
import Funge.Proofs.History
import Funge.Proofs.Store
import Funge.Proofs.Samples
import Funge.Proofs.Directions
import Funge.Proofs.InputLines
import Funge.Proofs.Frame
import Funge.Proofs.Conversation
import Funge.Proofs.Agreement
import Funge.Proofs.Locality
import Funge.Proofs.Conservation
import Funge.Proofs.Reruns
import Funge.Proofs.Travel
import Funge.Proofs.Assignments
import Funge.Proofs.SplitValues
import Funge.Proofs.Edits
import Funge.Proofs.Presets
import Funge.Proofs.Layers
import Funge.Proofs.Interchange
import Funge.Proofs.Aftermath
import Funge.Playfield.Requests
import Funge.Proofs.Layout
import Funge.Proofs.Charts
import Funge.Proofs.Rereading
import Funge.Proofs.Arithmetic
import Funge.Proofs.Decimals
import Funge.Proofs.Carets
import Funge.Proofs.DiagnosticLines
import Funge.Proofs.HexColors
import Funge.Proofs.Selection
import Funge.Proofs.Paint
import Funge.Proofs.Spellings
import Funge.Proofs.WrittenFiles
