import Polyline.CommandLine

/-!
# The program

Runs the command line on the machine's own file system.
-/

set_option autoImplicit false

namespace Polyline

def FileError.ofError : IO.Error → FileError
  | .noFileOrDirectory .. => .notFound
  | .inappropriateType _ code _ =>
    if code = 20 ∨ code = 0 - 20 then .notADirectory else .isADirectory
  | error => .other (toString error)

def answered {α : Type} (action : IO α) : IO (Except FileError α) := do
  match ← action.toBaseIO with
  | .ok value => return .ok value
  | .error error => return .error (.ofError error)

instance : MonadFiles IO where
  readFile path := answered do
    let bytes ← IO.FS.readBinFile path
    return bytes.data.toList
  writeFile path bytes := answered (IO.FS.writeBinFile path ⟨bytes.toArray⟩)
  isDirectory path := do
    let found ← answered (IO.FS.realPath path)
    match found with
    | .ok place => place.isDir
    | .error _ => return false
  listFiles path := answered do
    let place ← IO.FS.realPath path
    let entries ← place.readDir
    entries.toList.filterMapM fun entry => do
      -- A link counts if it leads to a file, and its size is that of the link itself.
      match ← entry.path.metadata.toBaseIO with
      | .error _ => return none
      | .ok data =>
        if data.type == .file then
          let listed ← entry.path.symlinkMetadata
          return some ⟨entry.fileName, listed.byteSize.toNat⟩
        else return none

end Polyline

def main (arguments : List String) : IO UInt32 := do
  let outcome ← (Polyline.CommandLine.run arguments : IO Polyline.CommandLine.Outcome)
  IO.print outcome.stdout
  IO.eprint outcome.stderr
  return outcome.exitCode.toUInt32
