import Mathlib.Data.List.Nodup
import Polyline.Proofs.Files.Tree

/-! What a directory lists. A tree whose locations are distinct answers the same whatever the order
of its nodes, apart from the order in which it lists the files of a directory. -/

set_option autoImplicit false

namespace Polyline

/-- A file as a directory lists it. -/
def FileEntry.ofFile (file : String × Bytes) : FileEntry := ⟨file.1, file.2.length⟩

namespace FileTree

variable {tree other : FileTree} {location directory : Location} {node : FileNode}
  {path name : String} {bytes : Bytes}

def HasDistinctLocations (tree : FileTree) : Prop := (tree.nodes.map Prod.fst).Nodup

theorem HasDistinctLocations.perm (distinct : tree.HasDistinctLocations)
    (reordered : other.nodes.Perm tree.nodes) : other.HasDistinctLocations :=
  ((reordered.map Prod.fst).nodup_iff).2 distinct

/-! ## Trees that agree -/

theorem lookup_eq_some_iff_mem {nodes : List (Location × FileNode)}
    (distinct : (nodes.map Prod.fst).Nodup) :
    nodes.lookup location = some node ↔ (location, node) ∈ nodes := by
  induction nodes with
  | nil => simp
  | cons entry nodes ih =>
    obtain ⟨here, there⟩ := entry
    obtain ⟨fresh, distinct⟩ := List.nodup_cons.1 distinct
    rw [List.lookup_cons, List.mem_cons]
    by_cases same : location = here
    · subst same
      have absent : (location, node) ∉ nodes := fun member =>
        fresh (List.mem_map.2 ⟨_, member, rfl⟩)
      simp [absent, eq_comm]
    · have apart : (location == here) = false := by simpa using same
      simp only [apart, Prod.mk.injEq, same, false_and, false_or]
      exact ih distinct

theorem node?_eq_of_perm (distinct : tree.HasDistinctLocations)
    (reordered : other.nodes.Perm tree.nodes) (location : Location) :
    other.node? location = tree.node? location := by
  have found : other.nodes.lookup location = tree.nodes.lookup location := by
    apply Option.ext
    intro node
    rw [lookup_eq_some_iff_mem distinct, lookup_eq_some_iff_mem (distinct.perm reordered),
      reordered.mem_iff]
  rw [node?, node?, found]

variable (same : ∀ location, other.node? location = tree.node? location)

include same

theorem walk_congr (start : Location) (steps : List String) :
    other.walk start steps = tree.walk start steps := by
  induction steps generalizing start with
  | nil => rfl
  | cons step steps ih => simp only [walk, requireDirectory, same, ih]

theorem resolve_congr (path : String) : other.resolve path = tree.resolve path := by
  simp only [resolve, walk_congr same, same]

theorem read_congr (path : String) : other.read path = tree.read path := by
  simp only [read, resolve_congr same]

omit same

/-! ## Files of a directory -/

def file? (directory : Location) : Location × FileNode → Option (String × Bytes)
  | (location, .file bytes) =>
    if location.dropLast = directory then location.getLast?.map (·, bytes) else none
  | (_, .directory) => none

/-- The regular files directly in a directory with what they hold, in the order in which they are
listed. -/
def filesWithBytes (tree : FileTree) (directory : Location) : List (String × Bytes) :=
  tree.nodes.filterMap (file? directory)

theorem file?_eq_some_iff {entry : Location × FileNode} :
    file? directory entry = some (name, bytes) ↔ entry = (directory ++ [name], .file bytes) := by
  obtain ⟨location, held | _⟩ := entry
  · obtain rfl | ⟨front, last, rfl⟩ := List.eq_nil_or_concat' location
    · simp [file?]
    · simp [file?, and_assoc]
  · simp [file?]

theorem mem_filesWithBytes :
    (name, bytes) ∈ tree.filesWithBytes directory ↔
      (directory ++ [name], .file bytes) ∈ tree.nodes := by
  rw [filesWithBytes, List.mem_filterMap]
  constructor
  · rintro ⟨entry, member, listed⟩
    rwa [file?_eq_some_iff.1 listed] at member
  · intro member
    exact ⟨_, member, file?_eq_some_iff.2 rfl⟩

theorem filesIn_eq_map (tree : FileTree) (directory : Location) :
    tree.filesIn directory = (tree.filesWithBytes directory).map .ofFile := by
  rw [filesIn, filesWithBytes, List.map_filterMap]
  congr 1
  funext ⟨location, node⟩
  obtain bytes | _ := node
  · obtain rfl | ⟨front, last, rfl⟩ := List.eq_nil_or_concat' location
    · simp [file?]
    · by_cases here : front = directory <;> simp [file?, here, FileEntry.ofFile]
  · simp [file?]

theorem list_eq_ok (found : tree.resolve path = .ok (directory, .directory)) :
    tree.list path = .ok ((tree.filesWithBytes directory).map .ofFile) := by
  rw [list, found, ← filesIn_eq_map]

theorem nodup_names_filesWithBytes (distinct : tree.HasDistinctLocations)
    (directory : Location) : ((tree.filesWithBytes directory).map Prod.fst).Nodup := by
  have apart : tree.nodes.Pairwise fun left right => left.1 ≠ right.1 :=
    List.pairwise_map.1 distinct
  refine List.pairwise_map.2 (apart.filterMap (file? directory) ?_)
  rintro left right unequal ⟨name, bytes⟩ first ⟨other, held⟩ second rfl
  apply unequal
  rw [file?_eq_some_iff.1 first, file?_eq_some_iff.1 second]

theorem filesWithBytes_perm (reordered : other.nodes.Perm tree.nodes) (directory : Location) :
    (other.filesWithBytes directory).Perm (tree.filesWithBytes directory) :=
  reordered.filterMap _

/-! ## Reading listed files -/

/-- A name that stands for itself as the last component of a path. -/
structure IsFileName (name : String) : Prop where
  spelled : name ≠ ""
  notHere : name ≠ "."
  notAbove : name ≠ ".."
  single : '/' ∉ name.toList

theorem splitSlashes_ne_nil (chars : List Char) : splitSlashes chars ≠ [] := by
  cases chars with
  | nil => nofun
  | cons char chars =>
    rw [splitSlashes]
    split
    · nofun
    · split <;> nofun

theorem splitSlashes_append (front back : List Char) :
    splitSlashes (front ++ '/' :: back) = splitSlashes front ++ splitSlashes back := by
  induction front with
  | nil => simp [splitSlashes]
  | cons char front ih =>
    rw [List.cons_append, splitSlashes, splitSlashes, ih]
    split
    · rfl
    · obtain ⟨first, others, divided⟩ := List.exists_cons_of_ne_nil (splitSlashes_ne_nil front)
      rw [divided]
      rfl

theorem splitSlashes_of_notMem {chars : List Char} (single : '/' ∉ chars) :
    splitSlashes chars = [chars] := by
  induction chars with
  | nil => rfl
  | cons char chars ih =>
    obtain ⟨plain, single⟩ := List.ne_and_not_mem_of_not_mem_cons single
    rw [splitSlashes, if_neg plain.symm, ih single]

/-- A name is one more component behind those of the directory. -/
theorem components_joinPath (path : String) (single : '/' ∉ name.toList) :
    ∃ steps, components (joinPath path name) = steps ++ [name] ∧
      (components path = steps ∨ components path = steps ++ [""]) := by
  have last := splitSlashes_of_notMem single
  unfold joinPath
  split
  next ending =>
    obtain ⟨stem, spelled⟩ := List.getLast?_eq_some_iff.1 ending
    refine ⟨(splitSlashes stem).map String.ofList, ?_, .inr ?_⟩
    · simp [components, spelled, splitSlashes_append, last]
    · simp [components, spelled, splitSlashes_append, splitSlashes]
  next =>
    refine ⟨components path, ?_, .inl rfl⟩
    simp [components, splitSlashes_append, last]

/-- The files that a directory lists can be read. -/
theorem read_joinPath (distinct : tree.HasDistinctLocations)
    (found : tree.resolve path = .ok (directory, .directory)) (named : IsFileName name)
    (listed : (directory ++ [name], .file bytes) ∈ tree.nodes) :
    tree.read (joinPath path name) = .ok bytes := by
  obtain ⟨walked, there⟩ := resolve_eq_ok_iff.1 found
  obtain ⟨steps, joined, spelled⟩ := components_joinPath path named.single
  have reached : tree.walk [] steps = .ok directory := by
    obtain spelled | spelled := spelled
    · rwa [spelled] at walked
    · rw [spelled] at walked
      obtain ⟨before, walked, -, stays⟩ := walk_concat_eq_ok.1 walked
      have same : before = directory := by simpa [follow] using stays
      rwa [same] at walked
  have led : tree.walk [] (components (joinPath path name)) = .ok (directory ++ [name]) := by
    rw [joined]
    refine walk_concat_eq_ok.2 ⟨directory, reached, requireDirectory_eq_ok_iff.2 there, ?_⟩
    simp [follow, named.spelled, named.notHere, named.notAbove]
  have held : tree.node? (directory ++ [name]) = some (.file bytes) := by
    rw [node?, if_neg (by simp)]
    exact (lookup_eq_some_iff_mem distinct).2 listed
  rw [read, resolve_eq_ok_iff.2 ⟨led, held⟩]

end FileTree

end Polyline
