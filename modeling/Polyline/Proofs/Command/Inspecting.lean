import Polyline.Proofs.Command.Runs

/-! Inspecting on a file tree. The tree is only looked at, however far the inspection gets. -/

set_option autoImplicit false

namespace Polyline.Command

theorem run_bind_eq {α β : Type} {action : StateM FileTree α} {next : α → StateM FileTree β}
    {tree after : FileTree} {value : α} (ran : StateT.run action tree = (value, after)) :
    StateT.run (action >>= next) tree = StateT.run (next value) after := by
  rw [StateT.run_bind, ran]
  rfl

/-! ## Selecting files -/

section Selecting

variable (tree : FileTree) (path : String) (options : InspectOptions)

theorem runIn_listFiles (context : FileError → Failure) :
    runIn tree (within context (MonadFiles.listFiles path)) =
      ((tree.list path).mapError context, tree) := rfl

theorem runIn_listFiles_select (pattern : Option (String → Bool)) :
    runIn tree (do
      let files ← within (.readDirectory path) (MonadFiles.listFiles path)
      return Selection.select path pattern options files) =
    (((tree.list path).mapError (.readDirectory path)).map (Selection.select path pattern options),
      tree) := by
  rw [runIn_bind, runIn_listFiles]
  cases tree.list path <;> rfl

theorem runIn_selectFiles_none [FilePatterns] [Explanations] (all : options.glob = none) :
    runIn tree (selectFiles path options) =
      (((tree.list path).mapError (.readDirectory path)).map (Selection.select path none options),
        tree) := by
  unfold selectFiles
  rw [all]
  exact runIn_listFiles_select tree path options none

theorem runIn_selectFiles_some [FilePatterns] [Explanations] {text : String}
    (asked : options.glob = some text) :
    runIn tree (selectFiles path options) =
      match FilePatterns.compile? text with
      | none => (.error (.invalidGlob (Explanations.pattern? text)), tree)
      | some pattern =>
        (((tree.list path).mapError (.readDirectory path)).map
          (Selection.select path (some pattern) options), tree) := by
  unfold selectFiles
  rw [asked]
  dsimp only
  cases FilePatterns.compile? text with
  | none => rfl
  | some pattern => exact runIn_listFiles_select tree path options (some pattern)

end Selecting

/-! ## Keeping the tree -/

/-- Whatever such an action answers, the tree is the same afterwards. -/
def Keeps {α : Type} (action : StateM FileTree α) : Prop :=
  ∀ tree, (StateT.run action tree).2 = tree

theorem Keeps.pure {α : Type} (value : α) : Keeps (Pure.pure value) := fun _ => rfl

theorem Keeps.bind {α β : Type} {action : StateM FileTree α} {next : α → StateM FileTree β}
    (first : Keeps action) (second : ∀ value, Keeps (next value)) : Keeps (action >>= next) := by
  intro tree
  rw [StateT.run_bind]
  exact (second _ _).trans (first tree)

theorem keeps_readFile (path : String) : Keeps (MonadFiles.readFile path) := fun _ => rfl

theorem keeps_isDirectory (path : String) : Keeps (MonadFiles.isDirectory path) := fun _ => rfl

theorem keeps_selectFiles [FilePatterns] [Explanations] (path : String)
    (options : InspectOptions) :
    Keeps (selectFiles path options).run := by
  intro tree
  change (runIn tree (selectFiles path options)).2 = tree
  cases asked : options.glob with
  | none => rw [runIn_selectFiles_none tree path options asked]
  | some text =>
    rw [runIn_selectFiles_some tree path options asked]
    cases FilePatterns.compile? text <;> rfl

theorem keeps_inspectFiles (directory : String) (report : Bytes → String)
    (files : List FileEntry) : Keeps (inspectFiles directory report files) := by
  induction files with
  | nil => exact .pure _
  | cons file files ih =>
    refine .bind (keeps_readFile _) ?_
    rintro (cause | bytes)
    · exact .pure _
    · exact .bind ih fun _ => .pure _

theorem keeps_runInspect [FilePatterns] [Explanations] (path : String) (codec : CodecOptions)
    (options : InspectOptions) : Keeps (runInspect path codec options) := by
  unfold runInspect
  split
  · exact .pure _
  · refine .bind (keeps_isDirectory path) fun directory => ?_
    cases directory with
    | false =>
      refine .bind (keeps_readFile path) ?_
      rintro (cause | bytes)
      · exact .pure _
      · exact .pure _
    | true =>
      refine .bind (keeps_selectFiles path options) ?_
      rintro (failure | files)
      · exact .pure _
      · exact keeps_inspectFiles path _ files

end Polyline.Command
