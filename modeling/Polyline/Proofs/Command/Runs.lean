import Polyline.CommandLine
import Polyline.Files.Tree

/-! Encoding and decoding on a file tree, as functions of the tree. -/

set_option autoImplicit false

namespace Polyline

def FileTree.HoldsPoints (tree : FileTree) (path : String) (points : List Point) : Prop :=
  ∃ bytes text, tree.read path = .ok bytes ∧ Utf8.decode? bytes = some text ∧
    PointList.read? text = some points

namespace Command

variable {α β : Type} (tree : FileTree) (path : String) (codec : CodecOptions)

/-- What a run answers, and the tree it leaves. -/
def runIn (action : ExceptT Failure (StateM FileTree) α) : Except Failure α × FileTree :=
  StateT.run action.run tree

theorem runIn_bind (action : ExceptT Failure (StateM FileTree) α)
    (next : α → ExceptT Failure (StateM FileTree) β) :
    runIn tree (action >>= next) =
      match runIn tree action with
      | (.ok value, after) => runIn after (next value)
      | (.error failure, after) => (.error failure, after) := by
  unfold runIn
  rw [ExceptT.run_bind, StateT.run_bind]
  change (match StateT.run action.run tree with | (_, _) => _) = _
  rcases StateT.run action.run tree with ⟨_ | _, after⟩ <;> rfl

theorem runIn_liftExcept (answer : Except Failure α) :
    runIn tree (liftExcept answer) = (answer, tree) := by
  cases answer <;> rfl

theorem runIn_readFile (context : FileError → Failure) :
    runIn tree (within context (MonadFiles.readFile path)) =
      ((tree.read path).mapError context, tree) := rfl

theorem run_writeFile (bytes : Bytes) :
    StateT.run (MonadFiles.writeFile path bytes : StateM FileTree (Except FileError Unit)) tree =
      match tree.write path bytes with
      | .error cause => (.error cause, tree)
      | .ok after => (.ok (), after) := by
  change (match tree.write path bytes with
    | .error cause => (fun tree => (.error cause, tree) : StateM FileTree (Except FileError Unit))
    | .ok after => fun _ => (.ok (), after)) tree = _
  cases tree.write path bytes <;> rfl

theorem runIn_writeFile (context : FileError → Failure) (bytes : Bytes) :
    runIn tree (within context (MonadFiles.writeFile path bytes)) =
      match tree.write path bytes with
      | .error cause => (.error (context cause), tree)
      | .ok after => (.ok (), after) := by
  unfold runIn within
  rw [ExceptT.run_mk, StateT.run_map, run_writeFile]
  cases tree.write path bytes <;> rfl

theorem precision_digits (kept : Precision) : precision kept.digits = .ok kept := by
  have found : Precision.ofDigits? kept.digits = some kept := dif_pos kept.digits_le
  rw [precision, found]

theorem runIn_runEncode [Explanations] (target : Option String) :
    runIn tree (runEncode path codec target) =
      match tree.read path with
      | .error cause => (.error (.readPoints path cause), tree)
      | .ok bytes =>
        match points path bytes with
        | .error failure => (.error failure, tree)
        | .ok points =>
          match precision codec.digits with
          | .error failure => (.error failure, tree)
          | .ok precision =>
            let encoded := PointList.encode codec.format precision points
            match target with
            | none => (.ok (shapeLine codec.format encoded), tree)
            | some target =>
              match tree.write target encoded with
              | .error cause => (.error (.writeShape target cause), tree)
              | .ok after => (.ok "", after) := by
  unfold runEncode
  rw [runIn_bind, runIn_readFile]
  cases tree.read path with
  | error cause => rfl
  | ok bytes =>
    dsimp only [Except.mapError]
    rw [runIn_bind, runIn_liftExcept]
    cases points path bytes with
    | error failure => rfl
    | ok points =>
      dsimp only
      rw [runIn_bind, runIn_liftExcept]
      cases precision codec.digits with
      | error failure => rfl
      | ok precision =>
        cases target with
        | none => rfl
        | some target =>
          dsimp only
          rw [runIn_bind, runIn_writeFile]
          cases tree.write target (PointList.encode codec.format precision points) <;> rfl

theorem runIn_runDecode (output : PointOutput) :
    runIn tree (runDecode path codec output) =
      match tree.read path with
      | .error cause => (.error (.readShape path cause), tree)
      | .ok bytes =>
        match precision codec.digits with
        | .error failure => (.error failure, tree)
        | .ok precision =>
          match PointList.decode codec.format precision bytes with
          | .error cause => (.error (.decodeShape path cause), tree)
          | .ok points => (.ok (pointsText precision output points), tree) := by
  unfold runDecode
  rw [runIn_bind, runIn_readFile]
  cases tree.read path with
  | error cause => rfl
  | ok bytes =>
    dsimp only [Except.mapError]
    rw [runIn_bind, runIn_liftExcept]
    cases precision codec.digits with
    | error failure => rfl
    | ok precision =>
      dsimp only
      rw [runIn_bind, runIn_liftExcept]
      cases PointList.decode codec.format precision bytes <;> rfl

end Command

namespace CommandLine

variable {arguments : List String} {path : String} {codec : CodecOptions}

/-- Runs the program on a file tree. -/
def runOn [FilePatterns] [Explanations] (arguments : List String) (tree : FileTree) :
    Outcome × FileTree :=
  StateT.run (run arguments : StateM FileTree Outcome) tree

def Outcome.ofExcept : Except Failure String → Outcome
  | .ok printed => ⟨0, printed, ""⟩
  | .error failure => ⟨1, "", failure.report⟩

/-- A command that answers a text or a failure ends the program with one or the other. -/
theorem runOn_of_parse_eq_ok [FilePatterns] [Explanations] {command : Command}
    {action : ExceptT Failure (StateM FileTree) String}
    (asked : parse arguments = .ok (.command command))
    (runs : (command.run : StateM FileTree Command.Result) = Command.Result.ofExcept <$> action.run)
    (tree : FileTree) :
    runOn arguments tree =
      (Outcome.ofExcept (Command.runIn tree action).1, (Command.runIn tree action).2) := by
  unfold runOn run Command.runIn
  rw [asked]
  dsimp only
  rw [runs, StateT.run_bind, StateT.run_map]
  obtain ⟨answer, after⟩ := StateT.run action.run tree
  cases answer <;> rfl

end CommandLine

end Polyline
