import Polyline.Bytes
import Polyline.ZigZag

/-!
# Sample formats

A sample is a signed 32-bit difference, written as its zig-zag code in groups of bits, lowest group
first, one group to a byte. Every byte but the last carries a continuation flag, so the last byte of
a sample, its *terminator*, is known by its value alone.

The five-bit format shifts its bytes into the printable range; the seven-bit format uses whole
bytes.
-/

set_option autoImplicit false

namespace Polyline

inductive SampleFormat where
  | varint5
  | varint7
  deriving DecidableEq, Repr

namespace SampleFormat

def name : SampleFormat → String
  | .varint5 => "varint5"
  | .varint7 => "varint7"

def isText : SampleFormat → Bool
  | .varint5 => true
  | .varint7 => false

def groupBits : SampleFormat → UInt32
  | .varint5 => 5
  | .varint7 => 7

/-- What is added to a byte to make it printable. -/
def offset : SampleFormat → UInt8
  | .varint5 => 63
  | .varint7 => 0

/-! ## Writing -/

def hasMore : SampleFormat → UInt32 → Bool
  | .varint5, code => 0x20 ≤ code
  | .varint7, code => 0x7f < code

def flaggedByte : SampleFormat → UInt32 → UInt8
  | .varint5, code => (0x20 ||| (code &&& 0x1f)).toUInt8 + offset .varint5
  | .varint7, code => 0x80 ||| (code &&& 0x7f).toUInt8

def finalByte : SampleFormat → UInt32 → UInt8
  | .varint5, code => code.toUInt8 + offset .varint5
  | .varint7, code => (code &&& 0x7f).toUInt8

theorem shiftRight_lt_of_hasMore {format : SampleFormat} {code : UInt32}
    (more : format.hasMore code) : (code >>> format.groupBits).toNat < code.toNat := by
  cases format <;>
    simp_all [hasMore, groupBits, UInt32.le_iff_toNat_le, UInt32.lt_iff_toNat_lt,
      UInt32.toNat_shiftRight, Nat.shiftRight_eq_div_pow] <;> omega

/-- The bytes of a code: its groups of bits, lowest first. -/
def encodeCode (format : SampleFormat) (code : UInt32) : Bytes :=
  if format.hasMore code then
    format.flaggedByte code :: format.encodeCode (code >>> format.groupBits)
  else [format.finalByte code]
  termination_by code.toNat
  decreasing_by exact shiftRight_lt_of_hasMore (by assumption)

def encode (format : SampleFormat) (delta : Int32) : Bytes :=
  format.encodeCode (ZigZag.encode delta)

/-! ## Reading -/

/-- How far a byte is above the offset of printable bytes, which is below zero for some bytes that
are never written. -/
def aboveOffset (byte : UInt8) : Int32 := byte.toUInt32.toInt32 - (offset .varint5).toUInt32.toInt32

/-- Whether a byte ends a sample. Bytes below the offset do as well. -/
def isTerminator : SampleFormat → UInt8 → Bool
  | .varint5, byte => aboveOffset byte < 0x20
  | .varint7, byte => byte &&& 0x80 == 0

/-- The payload of any byte, also of one that is never written. -/
def payload : SampleFormat → UInt8 → UInt32
  | .varint5, byte => (aboveOffset byte).toUInt32 &&& 0x1f
  | .varint7, byte => byte.toUInt32 &&& 0x7f

/-- The blanks that may stand behind encoded text. The encoder writes none of them. -/
def isBlank (byte : UInt8) : Bool :=
  byte == 0x09 || byte == 0x0a || byte == 0x0c || byte == 0x0d || byte == 0x20

/-- The encoded samples in a buffer: text formats leave out blanks at the end. -/
def trim (format : SampleFormat) (bytes : Bytes) : Bytes :=
  if format.isText then (bytes.reverse.dropWhile isBlank).reverse else bytes

end SampleFormat

end Polyline
