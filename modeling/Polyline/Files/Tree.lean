import Polyline.Files.Basic

/-!
# File trees

A file tree in memory. Its root is the current directory. A path is followed one component at a
time, so every component but the last has to be there and to be a directory.
-/

set_option autoImplicit false

namespace Polyline

abbrev Location : Type := List String

inductive FileNode where
  | file (bytes : Bytes)
  | directory
  deriving DecidableEq

structure FileTree where
  nodes : List (Location × FileNode)
  deriving DecidableEq

namespace FileTree

def empty : FileTree := ⟨[]⟩

/-- What is at a location. The root is always a directory. -/
def node? (tree : FileTree) (location : Location) : Option FileNode :=
  if location = [] then some .directory else tree.nodes.lookup location

def insert (tree : FileTree) (location : Location) (node : FileNode) : FileTree :=
  ⟨tree.nodes.filter (·.1 ≠ location) ++ [(location, node)]⟩

def splitSlashes : List Char → List (List Char)
  | [] => [[]]
  | char :: rest =>
    if char = '/' then [] :: splitSlashes rest
    else
      match splitSlashes rest with
      | [] => [[char]]
      | first :: others => (char :: first) :: others

def components (path : String) : List String := (splitSlashes path.toList).map String.ofList

/-- Where a component leads to from a directory. Empty components and `.` stay, and `..` goes up;
above the root is the root. -/
def follow (directory : Location) (component : String) : Location :=
  if component = "" ∨ component = "." then directory
  else if component = ".." then directory.dropLast
  else directory ++ [component]

def locate (path : String) : Location := (components path).foldl follow []

def requireDirectory (tree : FileTree) (location : Location) : Except FileError Unit :=
  match tree.node? location with
  | some .directory => .ok ()
  | some (.file _) => .error .notADirectory
  | none => .error .notFound

def walk (tree : FileTree) (location : Location) : List String → Except FileError Location
  | [] => .ok location
  | component :: rest =>
    match tree.requireDirectory location with
    | .error error => .error error
    | .ok () => tree.walk (follow location component) rest

def resolve (tree : FileTree) (path : String) : Except FileError (Location × FileNode) :=
  match tree.walk [] (components path) with
  | .error error => .error error
  | .ok location =>
    match tree.node? location with
    | some node => .ok (location, node)
    | none => .error .notFound

def read (tree : FileTree) (path : String) : Except FileError Bytes :=
  match tree.resolve path with
  | .error error => .error error
  | .ok (_, .directory) => .error .isADirectory
  | .ok (_, .file bytes) => .ok bytes

def isDirectory (tree : FileTree) (path : String) : Bool :=
  match tree.resolve path with
  | .ok (_, .directory) => true
  | _ => false

def filesIn (tree : FileTree) (directory : Location) : List FileEntry :=
  tree.nodes.filterMap fun (location, node) =>
    match location.getLast?, node with
    | some name, .file bytes =>
      if location.dropLast = directory then some ⟨name, bytes.length⟩ else none
    | _, _ => none

def list (tree : FileTree) (path : String) : Except FileError (List FileEntry) :=
  match tree.resolve path with
  | .error error => .error error
  | .ok (_, .file _) => .error .notADirectory
  | .ok (location, .directory) => .ok (tree.filesIn location)

/-- The location that a path names for a file to be written. The directory around it has to be
there. A path that ends in a slash, `.` or `..` can only name a directory. -/
def target (tree : FileTree) (path : String) : Except FileError Location :=
  let steps := components path
  let named := (steps.reverse.dropWhile (· = "")).reverse
  match named.getLast? with
  | none => .error .isADirectory
  | some name =>
    match tree.walk [] named.dropLast with
    | .error error => .error error
    | .ok directory =>
      match tree.requireDirectory directory with
      | .error error => .error error
      | .ok () =>
        if steps ≠ named ∨ name = "." ∨ name = ".." then .error .isADirectory
        else if tree.node? (directory ++ [name]) = some .directory then .error .isADirectory
        else .ok (directory ++ [name])

def write (tree : FileTree) (path : String) (bytes : Bytes) : Except FileError FileTree :=
  (tree.target path).map fun location => tree.insert location (.file bytes)

/-- The tree with a directory at a location and at those around it, unless something is there. -/
def makeDirectories (tree : FileTree) (location : Location) : FileTree :=
  (List.range location.length).foldl
    (fun tree count =>
      let directory := location.take (count + 1)
      if (tree.node? directory).isSome then tree else tree.insert directory .directory)
    tree

end FileTree

instance : MonadFiles (StateM FileTree) where
  readFile path := do return (← get).read path
  writeFile path bytes := do
    match (← get).write path bytes with
    | .error error => return .error error
    | .ok tree =>
      set tree
      return .ok ()
  isDirectory path := do return (← get).isDirectory path
  listFiles path := do return (← get).list path

end Polyline
