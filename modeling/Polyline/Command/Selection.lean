import Polyline.Command.Basic
import Polyline.Glob

/-!
# Selecting files of a directory

Which files of a directory are inspected, and in what order. Sorting makes the selection independent
of the order in which the directory lists its files.
-/

set_option autoImplicit false

namespace Polyline

/-- What patterns of file names mean: which texts are patterns, and what fits each of them. -/
class FilePatterns where
  compile? : String → Option (String → Bool)

instance : FilePatterns where
  compile? text := (Glob.compile? text).map Glob.isMatch

namespace Selection

/-- A file is a candidate if there is no pattern, or the pattern fits its path or its bare name. -/
def isCandidate (directory : String) (pattern : Option (String → Bool)) (file : FileEntry) : Bool :=
  match pattern with
  | none => true
  | some fits => fits (joinPath directory file.name) || fits file.name

/-- Larger files come first, and files of one size in the order of their names. -/
def precedes (left right : FileEntry) : Bool :=
  right.size < left.size || (left.size == right.size && left.name ≤ right.name)

def sorted (order : Option FileOrder) (files : List FileEntry) : List FileEntry :=
  match order with
  | none => files
  | some .size => files.mergeSort precedes

/-- How many files a sorted selection has if no other limit is given. -/
def sortedLimit : Nat := 10

def limit? (options : InspectOptions) : Option Nat :=
  options.limit.or (options.order.map fun _ => sortedLimit)

def select (directory : String) (pattern : Option (String → Bool)) (options : InspectOptions)
    (files : List FileEntry) : List FileEntry :=
  let candidates := sorted options.order (files.filter (isCandidate directory pattern))
  match limit? options with
  | none => candidates
  | some limit => candidates.take limit

end Selection

end Polyline
