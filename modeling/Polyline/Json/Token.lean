import Polyline.Json.Literal

/-!
# Tokens of JSON

The scanner takes a text one character at a time. Blanks separate tokens and are otherwise left out.
-/

set_option autoImplicit false

namespace Polyline.Json

inductive Token where
  | openArray
  | closeArray
  | openObject
  | closeObject
  | comma
  | colon
  | scalar (value : Json)

namespace Scanner

/-- What the characters since the last complete token may become. Characters are held in reverse. -/
inductive Pending where
  | nothing
  | literal (read : List Char)
  | string (read : List Char)
  | escape (read : List Char)
  /-- Behind `\u`, with the digits so far, after the first half of a surrogate pair if there is
  one. -/
  | code (read : List Char) (half : Option Nat) (digits : List Char)
  /-- Behind the first half of a surrogate pair. -/
  | secondHalf (read : List Char) (half : Nat)
  /-- Behind the backslash after the first half of a surrogate pair. -/
  | secondHalfMark (read : List Char) (half : Nat)

structure State where
  tokens : List Token
  pending : Pending

def isBlank (char : Char) : Bool := char == ' ' || char == '\t' || char == '\n' || char == '\r'

def punctuation? : Char → Option Token
  | '[' => some .openArray
  | ']' => some .closeArray
  | '{' => some .openObject
  | '}' => some .closeObject
  | ',' => some .comma
  | ':' => some .colon
  | _ => none

def start? (tokens : List Token) (char : Char) : Option State :=
  if isBlank char then some ⟨tokens, .nothing⟩
  else if char = '"' then some ⟨tokens, .string []⟩
  else if isLiteral char then some ⟨tokens, .literal [char]⟩
  else (punctuation? char).map fun token => ⟨token :: tokens, .nothing⟩

def shortEscape? : Char → Option Char
  | '"' => some '"'
  | '\\' => some '\\'
  | '/' => some '/'
  | 'b' => some '\x08'
  | 'f' => some '\x0c'
  | 'n' => some '\n'
  | 'r' => some '\r'
  | 't' => some '\t'
  | _ => none

def hexValue? (char : Char) : Option Nat :=
  if char.isDigit then some (char.toNat - 48)
  else if 'a' ≤ char ∧ char ≤ 'f' then some (char.toNat - 87)
  else if 'A' ≤ char ∧ char ≤ 'F' then some (char.toNat - 55)
  else none

def codeUnit? (digits : List Char) : Option Nat :=
  digits.foldrM (fun char value => (hexValue? char).map (16 * value + ·)) 0

/-- What a complete four-digit escape makes of a string: a character, or half of one. The halves of
a character come as a first one directly followed by a second one. -/
def codeEscape? (read : List Char) (half : Option Nat) (unit : Nat) : Option Pending :=
  match half with
  | none =>
    if unit < 0xd800 ∨ 0xe000 ≤ unit then some (.string (Char.ofNat unit :: read))
    else if unit < 0xdc00 then some (.secondHalf read unit)
    else none
  | some first =>
    if 0xdc00 ≤ unit ∧ unit < 0xe000 then
      some (.string
        (Char.ofNat (0x10000 + (first - 0xd800) * 0x400 + (unit - 0xdc00)) :: read))
    else none

def State.step? (state : State) (char : Char) : Option State :=
  let within (pending : Pending) : State := { state with pending := pending }
  match state.pending with
  | .nothing => start? state.tokens char
  | .literal read =>
    if isLiteral char then some (within (.literal (char :: read)))
    else do
      let value ← literal? read.reverse
      start? (.scalar value :: state.tokens) char
  | .string read =>
    if char = '"' then
      some ⟨.scalar (.string (String.ofList read.reverse)) :: state.tokens, .nothing⟩
    else if char = '\\' then some (within (.escape read))
    else if char < ' ' then none
    else some (within (.string (char :: read)))
  | .escape read =>
    if char = 'u' then some (within (.code read none []))
    else (shortEscape? char).map fun meant => within (.string (meant :: read))
  | .code read half digits =>
    if digits.length < 3 then some (within (.code read half (char :: digits)))
    else do
      let unit ← codeUnit? (char :: digits)
      let pending ← codeEscape? read half unit
      return within pending
  | .secondHalf read half =>
    if char = '\\' then some (within (.secondHalfMark read half)) else none
  | .secondHalfMark read half =>
    if char = 'u' then some (within (.code read (some half) [])) else none

def State.finish? (state : State) : Option (List Token) :=
  match state.pending with
  | .nothing => some state.tokens.reverse
  | .literal read => do
    let value ← literal? read.reverse
    return (Token.scalar value :: state.tokens).reverse
  | _ => none

end Scanner

def tokens? (text : List Char) : Option (List Token) := do
  let state ← text.foldlM Scanner.State.step? ⟨[], .nothing⟩
  state.finish?

end Polyline.Json
