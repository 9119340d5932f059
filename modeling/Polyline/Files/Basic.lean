import Polyline.Bytes

/-!
# Access to files

What the commands ask of a file system, and how it may refuse. The file tree in memory and the
machine's own file system both answer these questions.
-/

set_option autoImplicit false

namespace Polyline

inductive FileError where
  | notFound
  | notADirectory
  | isADirectory
  | other (description : String)
  deriving DecidableEq

def FileError.message : FileError → String
  | .notFound => "No such file or directory (os error 2)"
  | .notADirectory => "Not a directory (os error 20)"
  | .isADirectory => "Is a directory (os error 21)"
  | .other description => description

structure FileEntry where
  name : String
  size : Nat
  deriving DecidableEq

class MonadFiles (m : Type → Type) where
  readFile : String → m (Except FileError Bytes)
  writeFile : String → Bytes → m (Except FileError Unit)
  isDirectory : String → m Bool
  /-- The regular files directly in a directory, in no particular order. -/
  listFiles : String → m (Except FileError (List FileEntry))

/-- The path of a name in a directory. A directory that ends in a slash gets no second one. -/
def joinPath (directory name : String) : String :=
  if directory.toList.getLast? = some '/' then directory ++ name else directory ++ "/" ++ name

end Polyline
