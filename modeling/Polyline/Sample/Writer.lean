import Polyline.Sample.Format

/-!
# Writing samples one after another

A writer gathers samples, each in a format of its own.
-/

set_option autoImplicit false

namespace Polyline

structure Writer where
  bytes : Bytes
  deriving DecidableEq

namespace Writer

def empty : Writer := ⟨[]⟩

def bytesWritten (writer : Writer) : Nat := writer.bytes.length

def writeSample (format : SampleFormat) (delta : Int32) (writer : Writer) : Writer :=
  ⟨writer.bytes ++ format.encode delta⟩

def finish (writer : Writer) : Bytes := writer.bytes

def finishInto (writer : Writer) (buffer : Bytes) : Bytes := buffer ++ writer.bytes

end Writer

end Polyline
