import Polyline.Proofs.Command.Inspecting
import Polyline.Proofs.Inspection.Report
import Polyline.Proofs.Selection

/-! Inspecting a directory. One block is printed for each file that is selected, which tells what
the file holds, and sorting makes what is printed independent of the order in which the directory
is listed. -/

set_option autoImplicit false

namespace Polyline

variable {tree : FileTree} {path : String} {location : Location}

namespace Command

/-- The heading of a file in a directory and the report on what it holds. -/
def fileReport (directory : String) (options : InspectOptions) (format : SampleFormat)
    (precision : Precision) (file : String × Bytes) : String :=
  heading (joinPath directory file.1) file.2.length ++
    reportText options.json (.ofBytes format precision file.2)

/-- A line with the path and the size of a file, and below it what is found in the file. -/
def IsBlock (directory : String) (options : InspectOptions) (format : SampleFormat)
    (precision : Precision) (file : String × Bytes) (block : String) : Prop :=
  ∃ report,
    block = "== " ++ joinPath directory file.1 ++ " (" ++ toString file.2.length ++
      " bytes) ==\n" ++ report ∧
    (Inspection.ofBytes format precision file.2).IsReport options.json report

theorem isBlock_fileReport (directory : String) (options : InspectOptions) (format : SampleFormat)
    (precision : Precision) (file : String × Bytes) :
    IsBlock directory options format precision file
      (fileReport directory options format precision file) :=
  ⟨_, rfl, Inspection.isReport_reportText options.json format precision file.2⟩

theorem run_inspectFiles {report : Bytes → String} {files : List (String × Bytes)}
    (readable : ∀ file ∈ files, tree.read (joinPath path file.1) = .ok file.2) :
    StateT.run (inspectFiles path report (files.map .ofFile) : StateM FileTree Result) tree =
      (⟨String.join (files.map fun file =>
        heading (joinPath path file.1) file.2.length ++ report file.2), none⟩, tree) := by
  induction files with
  | nil => rfl
  | cons file files ih =>
    obtain ⟨first, others⟩ := List.forall_mem_cons.1 readable
    have taken : StateT.run (MonadFiles.readFile (joinPath path (FileEntry.ofFile file).name) :
        StateM FileTree (Except FileError Bytes)) tree = (.ok file.2, tree) :=
      congrArg (·, tree) first
    rw [List.map_cons, inspectFiles, run_bind_eq taken]
    dsimp only
    rw [run_bind_eq (ih others), List.map_cons, String.join_cons]
    rfl

variable [FilePatterns] [Explanations] {options : InspectOptions} {pattern : Option (String → Bool)}

theorem runIn_selectFiles_directory
    (compiled : options.glob.map FilePatterns.compile? = pattern.map some)
    (found : tree.resolve path = .ok (location, .directory)) :
    runIn tree (selectFiles path options) =
      (.ok ((Selection.selected path pattern options (tree.filesWithBytes location)).map .ofFile),
        tree) := by
  have selected (pattern : Option (String → Bool)) :
      ((tree.list path).mapError (Failure.readDirectory path)).map
        (Selection.select path pattern options) = .ok ((Selection.selected path pattern options
          (tree.filesWithBytes location)).map .ofFile) := by
    rw [FileTree.list_eq_ok found, ← Selection.select_map]
    rfl
  cases asked : options.glob with
  | none =>
    rw [asked] at compiled
    cases pattern with
    | none => rw [runIn_selectFiles_none tree path options asked, selected]
    | some fits => cases compiled
  | some text =>
    rw [asked] at compiled
    cases pattern with
    | none => cases compiled
    | some fits =>
      have understood : FilePatterns.compile? text = some fits := Option.some.inj compiled
      rw [runIn_selectFiles_some tree path options asked, understood]
      dsimp only
      rw [selected]

theorem run_runInspect_directory (format : SampleFormat) (precision : Precision)
    (compiled : options.glob.map FilePatterns.compile? = pattern.map some)
    (found : tree.resolve path = .ok (location, .directory))
    (readable : ∀ file ∈ tree.filesWithBytes location,
      tree.read (joinPath path file.1) = .ok file.2) :
    StateT.run (runInspect path ⟨format, precision.digits⟩ options : StateM FileTree Result) tree =
      (⟨String.join ((Selection.selected path pattern options
        (tree.filesWithBytes location)).map (fileReport path options format precision)), none⟩,
        tree) := by
  have directory : tree.isDirectory path = true := by
    rw [FileTree.isDirectory, found]
  have asked : StateT.run (MonadFiles.isDirectory path : StateM FileTree Bool) tree =
      (true, tree) := congrArg (·, tree) directory
  have chosen : StateT.run (selectFiles path options).run tree = _ :=
    runIn_selectFiles_directory compiled found
  have member : ∀ file ∈ Selection.selected path pattern options (tree.filesWithBytes location),
      tree.read (joinPath path file.1) = .ok file.2 := fun file selected =>
    readable file (Selection.mem_of_mem_selected selected)
  rw [runInspect, precision_digits]
  dsimp only
  rw [run_bind_eq asked, if_pos rfl, run_bind_eq chosen]
  exact run_inspectFiles member

end Command

namespace CommandLine

open Command

section Directory

variable [FilePatterns] [Explanations] {arguments : List String} {format : SampleFormat}
  {precision : Precision} {options : InspectOptions} {pattern : Option (String → Bool)}

theorem runOn_inspect_selected
    (asked : parse arguments =
      .ok (.command (.inspect path ⟨format, precision.digits⟩ options)))
    (compiled : options.glob.map FilePatterns.compile? = pattern.map some)
    (found : tree.resolve path = .ok (location, .directory))
    (readable : ∀ file ∈ tree.filesWithBytes location,
      tree.read (joinPath path file.1) = .ok file.2) :
    runOn arguments tree = (⟨0, String.join ((Selection.selected path pattern options
      (tree.filesWithBytes location)).map (fileReport path options format precision)), ""⟩,
      tree) := by
  have ran := run_runInspect_directory format precision compiled found readable
  unfold runOn run
  rw [asked]
  dsimp only
  rw [Command.run, run_bind_eq ran]
  rfl

/-- Inspecting a directory prints one block for each selected file, whatever predicate the pattern
of names is, and a block tells what its file holds. The candidates are the regular files that the
pattern fits, shown as they are listed, or ranked: then what is printed is the same in every order
of the listing. -/
theorem runOn_inspect_directory
    (asked : parse arguments =
      .ok (.command (.inspect path ⟨format, precision.digits⟩ options)))
    (compiled : options.glob.map FilePatterns.compile? = pattern.map some)
    (found : tree.resolve path = .ok (location, .directory))
    (distinct : tree.HasDistinctLocations)
    (readable : ∀ name bytes, (location ++ [name], FileNode.file bytes) ∈ tree.nodes →
      tree.read (joinPath path name) = .ok bytes) :
    let listed := tree.filesWithBytes location
    let candidates := Selection.candidates path pattern listed
    tree.list path = .ok (listed.map .ofFile) ∧ candidates.Sublist listed ∧
      (∀ name bytes, (name, bytes) ∈ candidates ↔
        (location ++ [name], FileNode.file bytes) ∈ tree.nodes ∧
          ∀ fits ∈ pattern, fits (joinPath path name) ∨ fits name) ∧
      (candidates.map Prod.fst).Nodup ∧
      ∃ ordered shown, ordered.Perm candidates ∧
        runOn arguments tree =
          (⟨0, String.join (shown.map (fileReport path options format precision)), ""⟩, tree) ∧
        (∀ file ∈ shown, IsBlock path options format precision file
          (fileReport path options format precision file)) ∧
        match options.order with
        | none => ordered = candidates ∧ shown = options.limit.elim ordered ordered.take
        | some .size =>
          ordered.Pairwise (Selection.Before path) ∧ shown = ordered.take (options.limit.getD 10) ∧
            ∀ other : FileTree, other.nodes.Perm tree.nodes →
              (runOn arguments other).1 = (runOn arguments tree).1 := by
  intro listed candidates
  have names : (listed.map Prod.fst).Nodup := FileTree.nodup_names_filesWithBytes distinct location
  have apart : (candidates.map Prod.fst).Nodup := Selection.nodup_names_candidates names pattern
  have held : ∀ file ∈ listed, tree.read (joinPath path file.1) = .ok file.2 := by
    rintro ⟨name, bytes⟩ member
    exact readable name bytes (FileTree.mem_filesWithBytes.1 member)
  have ran := runOn_inspect_selected asked compiled found held
  refine ⟨FileTree.list_eq_ok found, List.filter_sublist, ?_, apart,
    Selection.arranged options.order candidates, _, Selection.arranged_perm _ _, ran,
    fun _ _ => isBlock_fileReport .., ?_⟩
  · intro name bytes
    rw [Selection.mem_candidates, FileTree.mem_filesWithBytes]
  · cases ranks : options.order with
    | none => exact ⟨rfl, Selection.selected_of_unordered ranks pattern listed⟩
    | some order =>
      cases order with
      | size =>
        refine ⟨Selection.pairwise_before_ranked apart path,
          Selection.selected_of_ranked ranks pattern listed, ?_⟩
        intro other reordered
        have same := FileTree.node?_eq_of_perm distinct reordered
        have listing := FileTree.filesWithBytes_perm reordered location
        have again := runOn_inspect_selected asked compiled
          ((FileTree.resolve_congr same path).trans found) fun file member =>
            (FileTree.read_congr same _).trans (held file (listing.mem_iff.1 member))
        rw [again, ran, Selection.selected_eq_of_perm ranks names listing pattern]

end Directory

/-- The largest file and the first of two that are equally large, in every order of the tree. The
second of them ends behind a latitude. -/
theorem runOn_inspect_directory_ties :
    let tree : FileTree := ⟨[(["shapes"], .directory), (["shapes", "b"], .file [0x40]),
      (["shapes", "long"], .file [0x40, 0x40, 0x40]), (["shapes", "a"], .file [0x41]),
      (["shapes", "d"], .directory), (["shapes", "c"], .file [0x40, 0x3f])]⟩
    let arguments := ["inspect", "shapes", "--sort=size", "--limit=2", "--glob=?"]
    let largest :=
      "== shapes/c (2 bytes) ==\n" ++
        "format: varint5 digits: 6 bytes: 2 points: 1\n" ++
        "bytes/point: 2.00\n" ++
        "samples:\n" ++
        "  @0       1B Lat delta          -1 value          -1 (-0.000001)\n" ++
        "  @1       1B Lon delta           0 value           0 (0)\n"
    let first :=
      "== shapes/a (1 bytes) ==\n" ++
        "format: varint5 digits: 6 bytes: 1 points: 0\n" ++
        "samples:\n" ++
        "  @0       1B Lat delta           1 value           1 (0.000001)\n" ++
        "error: malformed stream: sample at byte 1 ended after 0 bytes without a terminating byte\n"
    ∀ other : FileTree, other.nodes.Perm tree.nodes →
      (runOn arguments other).1 = ⟨0, largest ++ first, ""⟩ := by
  intro tree arguments largest first other reordered
  have distinct : tree.HasDistinctLocations := by
    unfold FileTree.HasDistinctLocations
    decide
  have asked : parse arguments = .ok (.command (.inspect "shapes"
      ⟨.varint5, Precision.standard.digits⟩ ⟨some "?", some .size, some 2, false⟩)) := by
    decide +kernel
  have compiled : (some "?").map FilePatterns.compile? =
      (FilePatterns.compile? "?").map some := by
    have understood : (FilePatterns.compile? "?").isSome = true := by decide +kernel
    obtain ⟨fits, compiled⟩ := Option.isSome_iff_exists.1 understood
    rw [compiled]
    exact congrArg some compiled
  have found : tree.resolve "shapes" = .ok (["shapes"], .directory) := by decide +kernel
  have readable : ∀ name bytes, (["shapes", name], FileNode.file bytes) ∈ tree.nodes →
      tree.read (joinPath "shapes" name) = .ok bytes := by
    intro name bytes member
    refine FileTree.read_joinPath distinct found ?_ member
    have named : name = "b" ∨ name = "long" ∨ name = "a" ∨ name = "c" := by
      simp [tree] at member
      exact member.imp And.left (.imp And.left (.imp And.left And.left))
    obtain rfl | rfl | rfl | rfl := named <;> constructor <;> decide
  obtain ⟨-, -, -, -, ordered, shown, listed, ran, -, ranking, cut, same⟩ :=
    runOn_inspect_directory asked compiled found distinct readable
  have ranked : ordered = [("c", [0x40, 0x3f]), ("a", [0x41]), ("b", [0x40])] := by
    have candidates : Selection.candidates "shapes" (FilePatterns.compile? "?")
        (tree.filesWithBytes ["shapes"]) = [("b", [0x40]), ("a", [0x41]), ("c", [0x40, 0x3f])] := by
      decide +kernel
    rw [candidates] at listed
    refine Selection.eq_of_pairwise_before ranking ?_ (listed.trans (by decide))
    have tie : joinPath "shapes" "a" < joinPath "shapes" "b" :=
      Selection.joinPath_lt "shapes" (by decide +kernel)
    refine .cons (by simp [Selection.Before]) (.cons ?_ (List.pairwise_singleton _ _))
    intro file member
    obtain rfl := List.mem_singleton.1 member
    exact .inr ⟨rfl, tie⟩
  have printed : String.join ((ordered.take 2).map
      (fileReport "shapes" ⟨some "?", some .size, some 2, false⟩ .varint5 .standard)) =
        largest ++ first := by
    rw [ranked]
    decide +kernel
  rw [same other reordered, ran, cut]
  exact congrArg (Outcome.mk 0 · "") printed

end CommandLine

end Polyline
