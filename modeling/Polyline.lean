import Polyline.Binary64.Arithmetic
import Polyline.Binary64.Conversion
import Polyline.Bytes
import Polyline.Command.Basic
import Polyline.Command.Run
import Polyline.CommandLine
import Polyline.Files.Tree
import Polyline.Main
import Polyline.Proofs.Acceptance
import Polyline.Proofs.Binary64.Rounding
import Polyline.Proofs.Binary64.Value
import Polyline.Proofs.Command.Checks
import Polyline.Proofs.Command.Inspecting
import Polyline.Proofs.Command.Printing
import Polyline.Proofs.CommandLine.Directory
import Polyline.Proofs.CommandLine.Effects
import Polyline.Proofs.CommandLine.PlainText
import Polyline.Proofs.Json.PointSpellings
import Polyline.Proofs.Json.RoundTrip
import Polyline.Proofs.Quantization
import Polyline.Proofs.Sample.Canonical
import Polyline.Proofs.Sample.Positional
import Polyline.Proofs.Sample.Size
import Polyline.Proofs.Sample.Transfer
import Polyline.Proofs.Shape.Calls
import Polyline.Proofs.Shape.Concatenation
import Polyline.Proofs.Shape.Damage
import Polyline.Proofs.Table

