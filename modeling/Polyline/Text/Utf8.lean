import Polyline.Bytes

/-!
# Bytes as text

Text is UTF-8. Bytes split into characters and *faults*; a fault is a byte that starts no character,
or as much of a character as is there before it breaks off. Strict reading refuses faults, and
lenient reading shows each as a replacement character.
-/

set_option autoImplicit false

namespace Polyline.Utf8

def isContinuation (byte : UInt8) : Bool := 0x80 ≤ byte && byte < 0xc0

/-- Whether a byte may come second. Those that would only spell a number too long, spell half of a
surrogate pair or go past the last character may not. -/
def isSecond (lead second : UInt8) : Bool :=
  isContinuation second &&
    (if lead = 0xe0 then 0xa0 ≤ second
    else if lead = 0xed then second < 0xa0
    else if lead = 0xf0 then 0x90 ≤ second
    else if lead = 0xf4 then second < 0x90
    else true)

def payload (byte : UInt8) : Nat := byte.toNat % 0x40

def pieces : Bytes → List (Option Char)
  | [] => []
  | lead :: rest =>
    if lead < 0x80 then some (Char.ofNat lead.toNat) :: pieces rest
    else if lead < 0xc2 ∨ 0xf5 ≤ lead then none :: pieces rest
    else
      match rest with
      | [] => [none]
      | second :: tail =>
        if isSecond lead second = false then none :: pieces (second :: tail)
        else if lead < 0xe0 then
          some (Char.ofNat (lead.toNat % 0x20 * 0x40 + payload second)) :: pieces tail
        else
          match tail with
          | [] => [none]
          | third :: tail =>
            if isContinuation third = false then none :: pieces (third :: tail)
            else if lead < 0xf0 then
              some (Char.ofNat
                (lead.toNat % 0x10 * 0x1000 + payload second * 0x40 + payload third)) ::
                pieces tail
            else
              match tail with
              | [] => [none]
              | fourth :: tail =>
                if isContinuation fourth = false then none :: pieces (fourth :: tail)
                else
                  some (Char.ofNat
                    (lead.toNat % 0x08 * 0x40000 + payload second * 0x1000 +
                      payload third * 0x40 + payload fourth)) :: pieces tail

def decode? (bytes : Bytes) : Option String := ((pieces bytes).mapM id).map String.ofList

def replacement : Char := '\ufffd'

def decodeLenient (bytes : Bytes) : String :=
  String.ofList ((pieces bytes).map fun piece => piece.getD replacement)

def encode (text : String) : Bytes := text.toUTF8.data.toList

end Polyline.Utf8
