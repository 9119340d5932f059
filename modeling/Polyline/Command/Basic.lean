import Polyline.Files.Basic
import Polyline.Precision
import Polyline.Sample.Cursor

/-!
# Commands

What the program can be asked to do, and the ways in which it fails.
-/

set_option autoImplicit false

namespace Polyline

/-- How shapes are encoded. The digits are those asked for, of which there may be too many. -/
structure CodecOptions where
  format : SampleFormat
  digits : Nat
  deriving DecidableEq

inductive PointOutput where
  | json
  | table
  deriving DecidableEq

inductive FileOrder where
  | size
  deriving DecidableEq

structure InspectOptions where
  glob : Option String
  order : Option FileOrder
  limit : Option Nat
  json : Bool
  deriving DecidableEq

inductive Command where
  | encode (path : String) (codec : CodecOptions) (target : Option String)
  | decode (path : String) (codec : CodecOptions) (output : PointOutput)
  | inspect (path : String) (codec : CodecOptions) (options : InspectOptions)
  deriving DecidableEq

/-- What the readers of points and of patterns say about a text that they refuse. Their wording is
not that of the program, which only puts it into its reports. -/
class Explanations where
  points? : String → Option String
  pattern? : String → Option String

instance : Explanations where
  points? _ := none
  pattern? _ := none

inductive Failure where
  | readPoints (path : String) (cause : FileError)
  | pointsNotText (path : String)
  | parsePoints (explanation : Option String := none)
  | precisionOutOfRange (digits : Nat)
  | writeShape (path : String) (cause : FileError)
  | readShape (path : String) (cause : FileError)
  | decodeShape (path : String) (cause : MalformedStream)
  | invalidGlob (explanation : Option String)
  | readDirectory (path : String) (cause : FileError)
  deriving DecidableEq

namespace Failure

def context : Failure → String
  | readPoints path _ | pointsNotText path => s!"read points {path}"
  | parsePoints _ => "parse points json"
  | precisionOutOfRange digits =>
    s!"precision of {digits} digits is out of range (max {Precision.maxDigits})"
  | writeShape path _ => s!"write shape {path}"
  | readShape path _ => s!"read shape {path}"
  | decodeShape path _ => s!"decode shape {path}"
  | invalidGlob _ => "invalid glob pattern"
  | readDirectory path _ => s!"read dir {path}"

/-- What went wrong with it, where the context does not say so itself. -/
def cause? : Failure → Option String
  | readPoints _ cause | writeShape _ cause | readShape _ cause | readDirectory _ cause =>
    some cause.message
  | pointsNotText _ => some "stream did not contain valid UTF-8"
  | decodeShape _ cause => some cause.message
  | parsePoints explanation | invalidGlob explanation => explanation
  | precisionOutOfRange _ => none

def report (failure : Failure) : String :=
  s!"Error: {failure.context}\n" ++
    match failure.cause? with
    | some cause => s!"\nCaused by:\n    {cause}\n"
    | none => ""

end Failure

end Polyline
