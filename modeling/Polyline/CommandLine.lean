import Polyline.Command.Run

/-!
# The command line

The arguments name a command, one path and options. An option is `--name value` or `--name=value`
and stands anywhere behind the command, until `--` ends the options. No option is given twice, and
nothing may be abbreviated.
-/

set_option autoImplicit false

namespace Polyline.CommandLine

inductive UsageError where
  | missingCommand
  | unknownCommand (name : String)
  | missingPath
  | unexpectedArgument (argument : String)
  | unknownOption (argument : String)
  | repeatedOption (name : String)
  | missingValue (name : String)
  | unexpectedValue (name : String)
  | invalidValue (name value : String)
  deriving DecidableEq

def UsageError.message : UsageError → String
  | missingCommand => "a command is required: encode, decode or inspect"
  | unknownCommand name => s!"unknown command {name}"
  | missingPath => "a path is required"
  | unexpectedArgument argument => s!"unexpected argument {argument}"
  | unknownOption argument => s!"unknown option {argument}"
  | repeatedOption name => s!"option --{name} is given twice"
  | missingValue name => s!"option --{name} needs a value"
  | unexpectedValue name => s!"option --{name} takes no value"
  | invalidValue name value => s!"invalid value {value} for {name}"

/-! ## Splitting arguments -/

inductive OptionKind where
  | flag
  | valued
  deriving DecidableEq

structure Arguments where
  paths : List String
  options : List (String × Option String)
  deriving DecidableEq

def longOption? (argument : String) : Option (String × Option String) :=
  match argument.toList with
  | '-' :: '-' :: body =>
    match body.span (· ≠ '=') with
    | (name, _ :: value) => some (String.ofList name, some (String.ofList value))
    | (name, []) => some (String.ofList name, none)
  | _ => none

/-- Whether an argument can be a path or a separate value. A lone hyphen can. -/
def isPlain (argument : String) : Bool :=
  match argument.toList with
  | '-' :: _ :: _ => false
  | _ => true

def split (kind? : String → Option OptionKind) (found : Arguments) :
    List String → Except UsageError Arguments
  | [] => .ok found
  | argument :: rest =>
    let withPaths (paths : List String) : Arguments := { found with paths := found.paths ++ paths }
    let withOption (name : String) (value : Option String) : Arguments :=
      { found with options := found.options ++ [(name, value)] }
    if argument = "--" then .ok (withPaths rest)
    else
      match longOption? argument with
      | some (name, attached) =>
        match kind? name, attached with
        | none, _ => .error (.unknownOption argument)
        | some .flag, none => split kind? (withOption name none) rest
        | some .flag, some _ => .error (.unexpectedValue name)
        | some .valued, some value => split kind? (withOption name (some value)) rest
        | some .valued, none =>
          match rest with
          | [] => .error (.missingValue name)
          | value :: rest =>
            if isPlain value then split kind? (withOption name (some value)) rest
            else .error (.missingValue name)
      | none =>
        if isPlain argument then split kind? (withPaths [argument]) rest
        else .error (.unknownOption argument)

def repeated? : List String → Option String
  | [] => none
  | name :: rest => if rest.contains name then some name else repeated? rest

/-! ## Values -/

def path? (value : String) : Option String := if value = "" then none else some value

def format? (value : String) : Option SampleFormat :=
  if value = SampleFormat.varint5.name then some .varint5
  else if value = SampleFormat.varint7.name then some .varint7
  else none

def output? (value : String) : Option PointOutput :=
  if value = "json" then some .json else if value = "pretty" then some .table else none

def order? (value : String) : Option FileOrder := if value = "size" then some .size else none

def natural? (digits : List Char) : Option Nat :=
  if digits.isEmpty || !digits.all Char.isDigit then none
  else some (Nat.ofDigitChars 10 digits 0)

/-- A number with an optional sign that fits into a byte. Minus zero does. -/
def digits? (value : String) : Option Nat :=
  let number : Option Nat := match value.toList with
    | '-' :: digits => (natural? digits).filter (· = 0)
    | '+' :: digits => natural? digits
    | digits => natural? digits
  number.filter (· < 256)

/-- A number with an optional plus sign that fits into 64 bits. -/
def limit? (value : String) : Option Nat :=
  let number : Option Nat := match value.toList with
    | '+' :: digits => natural? digits
    | digits => natural? digits
  number.filter (· < 0x10000000000000000)

namespace Arguments

def has (arguments : Arguments) (name : String) : Bool := arguments.options.any (·.1 = name)

def value? {α : Type} (arguments : Arguments) (name : String) (read : String → Option α) :
    Except UsageError (Option α) :=
  match arguments.options.lookup name with
  | some (some text) =>
    match read text with
    | some value => .ok (some value)
    | none => .error (.invalidValue name text)
  | _ => .ok none

def path (arguments : Arguments) : Except UsageError String :=
  match arguments.paths with
  | [] => .error .missingPath
  | [text] =>
    match path? text with
    | some path => .ok path
    | none => .error (.invalidValue "path" text)
  | _ :: second :: _ => .error (.unexpectedArgument second)

def codec (arguments : Arguments) : Except UsageError CodecOptions := do
  let format ← arguments.value? "format" format?
  let digits ← arguments.value? "digits" digits?
  return ⟨format.getD .varint5, digits.getD Precision.standard.digits⟩

end Arguments

/-! ## Commands -/

def codecKind? (name : String) : Option OptionKind :=
  if name = "format" ∨ name = "digits" then some .valued else none

/-- The options of a command: its own, and those of every command. -/
def optionKind? (valued flags : List String) (name : String) : Option OptionKind :=
  if valued.contains name then some .valued
  else if flags.contains name then some .flag
  else codecKind? name

def arguments (valued flags : List String) (texts : List String) : Except UsageError Arguments := do
  let found ← split (optionKind? valued flags) ⟨[], []⟩ texts
  match repeated? (found.options.map (·.1)) with
  | some name => throw (.repeatedOption name)
  | none => return found

def encode (texts : List String) : Except UsageError Command := do
  let found ← arguments ["out"] [] texts
  return .encode (← found.path) (← found.codec) (← found.value? "out" path?)

def decode (texts : List String) : Except UsageError Command := do
  let found ← arguments ["output"] [] texts
  let output ← found.value? "output" output?
  return .decode (← found.path) (← found.codec) (output.getD .json)

def inspect (texts : List String) : Except UsageError Command := do
  let found ← arguments ["glob", "sort", "limit"] ["json"] texts
  let options : InspectOptions :=
    { glob := ← found.value? "glob" some
      order := ← found.value? "sort" order?
      limit := ← found.value? "limit" limit?
      json := found.has "json" }
  return .inspect (← found.path) (← found.codec) options

inductive Request where
  | version
  | command (command : Command)
  deriving DecidableEq

/-- Whether the first argument asks for the version. Whatever follows does not count then. -/
def asksVersion (argument : String) : Bool :=
  argument = "--version" || argument.toList.take 2 = ['-', 'V']

def parse : List String → Except UsageError Request
  | [] => .error .missingCommand
  | first :: rest =>
    if asksVersion first then .ok .version
    else if first = "encode" then .command <$> encode rest
    else if first = "decode" then .command <$> decode rest
    else if first = "inspect" then .command <$> inspect rest
    else .error (.unknownCommand first)

/-! ## The whole program -/

def versionText : String := "shapecodec-tools 0.1.0\n"

structure Outcome where
  exitCode : Nat
  stdout : String
  stderr : String
  deriving DecidableEq

/-- Runs the program: exit code 2 for arguments that make no command, 1 for a command that fails. -/
def run {m : Type → Type} [Monad m] [MonadFiles m] [FilePatterns] [Explanations]
    (texts : List String) : m Outcome := do
  match parse texts with
  | .error error => return ⟨2, "", s!"error: {error.message}\n"⟩
  | .ok .version => return ⟨0, versionText, ""⟩
  | .ok (.command command) =>
    let result ← command.run
    match result.failure? with
    | none => return ⟨0, result.printed, ""⟩
    | some failure => return ⟨1, result.printed, failure.report⟩

end Polyline.CommandLine
