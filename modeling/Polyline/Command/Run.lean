import Polyline.Command.Selection
import Polyline.Inspection.Report
import Polyline.PointList
import Polyline.Text.Utf8

/-!
# Running commands

Each command checks one thing after another and stops at the first failure. Encoding and decoding
print nothing before all checks are passed.
-/

set_option autoImplicit false

namespace Polyline.Command

variable {m : Type → Type} [Monad m] [MonadFiles m]

structure Result where
  printed : String
  failure? : Option Failure
  deriving DecidableEq

def Result.ofExcept : Except Failure String → Result
  | .ok printed => ⟨printed, none⟩
  | .error failure => ⟨"", some failure⟩

def within {α : Type} (context : FileError → Failure) (answer : m (Except FileError α)) :
    ExceptT Failure m α :=
  ExceptT.mk (Except.mapError context <$> answer)

def precision (digits : Nat) : Except Failure Precision :=
  match Precision.ofDigits? digits with
  | some precision => .ok precision
  | none => .error (.precisionOutOfRange digits)

def points [Explanations] (path : String) (bytes : Bytes) : Except Failure (List Point) :=
  match Utf8.decode? bytes with
  | none => .error (.pointsNotText path)
  | some text =>
    match PointList.read? text with
    | none => .error (.parsePoints (Explanations.points? text))
    | some points => .ok points

/-- An encoded shape on a line of its own: as it is if it is text, else in hexadecimal. -/
def shapeLine (format : SampleFormat) (encoded : Bytes) : String :=
  (if format.isText then Utf8.decodeLenient encoded else encoded.toHex) ++ "\n"

def pointsText (precision : Precision) (output : PointOutput) (points : List Point) : String :=
  match output with
  | .json => Json.print Json.pretty (PointList.toJson points) ++ "\n"
  | .table => PointList.table precision points

def reportText (json : Bool) (inspection : Inspection) : String :=
  if json then Json.print Json.pretty inspection.toJson ++ "\n" else inspection.text

def runEncode [Explanations] (path : String) (codec : CodecOptions) (target : Option String) :
    ExceptT Failure m String := do
  let bytes ← within (.readPoints path) (MonadFiles.readFile path)
  let points ← liftExcept (points path bytes)
  let precision ← liftExcept (precision codec.digits)
  let encoded := PointList.encode codec.format precision points
  match target with
  | none => return shapeLine codec.format encoded
  | some target =>
    within (.writeShape target) (MonadFiles.writeFile target encoded)
    return ""

def runDecode (path : String) (codec : CodecOptions) (output : PointOutput) :
    ExceptT Failure m String := do
  let bytes ← within (.readShape path) (MonadFiles.readFile path)
  let precision ← liftExcept (precision codec.digits)
  let points ← liftExcept
    ((PointList.decode codec.format precision bytes).mapError (Failure.decodeShape path))
  return pointsText precision output points

def heading (path : String) (size : Nat) : String := s!"== {path} ({size} bytes) ==\n"

def inspectFiles (directory : String) (report : Bytes → String) : List FileEntry → m Result
  | [] => return ⟨"", none⟩
  | file :: rest => do
    let path := joinPath directory file.name
    match ← MonadFiles.readFile path with
    | .error cause => return ⟨"", some (.readShape path cause)⟩
    | .ok bytes =>
      let further ← inspectFiles directory report rest
      return ⟨heading path file.size ++ report bytes ++ further.printed, further.failure?⟩

def selectFiles [FilePatterns] [Explanations] (directory : String) (options : InspectOptions) :
    ExceptT Failure m (List FileEntry) := do
  let pattern ← match options.glob with
    | none => pure none
    | some text =>
      match FilePatterns.compile? text with
      | none => throw (.invalidGlob (Explanations.pattern? text))
      | some pattern => pure (some pattern)
  let files ← within (.readDirectory directory) (MonadFiles.listFiles directory)
  return Selection.select directory pattern options files

def runInspect [FilePatterns] [Explanations] (path : String) (codec : CodecOptions)
    (options : InspectOptions) : m Result := do
  match precision codec.digits with
  | .error failure => return ⟨"", some failure⟩
  | .ok precision =>
    let report (bytes : Bytes) : String :=
      reportText options.json (.ofBytes codec.format precision bytes)
    if ← MonadFiles.isDirectory path then
      match ← (selectFiles path options).run with
      | .error failure => return ⟨"", some failure⟩
      | .ok files => inspectFiles path report files
    else
      match ← MonadFiles.readFile path with
      | .error cause => return ⟨"", some (.readShape path cause)⟩
      | .ok bytes => return ⟨report bytes, none⟩

def run [FilePatterns] [Explanations] : Command → m Result
  | .encode path codec target => Result.ofExcept <$> (runEncode path codec target).run
  | .decode path codec output => Result.ofExcept <$> (runDecode path codec output).run
  | .inspect path codec options => runInspect path codec options

end Polyline.Command
