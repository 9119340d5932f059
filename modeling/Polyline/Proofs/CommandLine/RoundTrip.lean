import Polyline.Proofs.Command.Printing
import Polyline.Proofs.Command.Runs
import Polyline.Proofs.CommandLine.Requests
import Polyline.Proofs.Files.Tree
import Polyline.Proofs.Normalization
import Polyline.Proofs.Trimming

/-! Points that go through files: encoded, decoded, printed and encoded again. Encoding loses what
is between the grid points once, and nothing is lost after that. -/

set_option autoImplicit false

namespace Polyline

variable {tree after : FileTree} {source target path : String} {points : List Point}
  {format : SampleFormat} {precision : Precision}

namespace FileTree

theorem HoldsPoints.ne_empty (held : tree.HoldsPoints path points) : path ≠ "" := by
  obtain ⟨bytes, _, found, _⟩ := held
  exact ne_empty_of_read_eq_ok found

end FileTree

namespace CommandLine

/-- A command can be asked for, and however it is, on a plain line or otherwise, the program ends
without an error. -/
structure Succeeds (command : Command) (tree : FileTree) (stdout : String) (after : FileTree) :
    Prop where
  asked : ∃ arguments, parse arguments = .ok (.command command)
  ran : ∀ arguments, parse arguments = .ok (.command command) →
    runOn arguments tree = (⟨0, stdout, ""⟩, after)
  plain : ∀ line, IsPlainLine line command → runOn line tree = (⟨0, stdout, ""⟩, after)

theorem Succeeds.intro {command : Command} {stdout : String}
    {action : ExceptT Failure (StateM FileTree) String}
    (asked : ∃ arguments, parse arguments = .ok (.command command))
    (runs : (command.run : StateM FileTree Command.Result) = Command.Result.ofExcept <$> action.run)
    (printed : Command.runIn tree action = (.ok stdout, after)) :
    Succeeds command tree stdout after := by
  have ran : ∀ arguments, parse arguments = .ok (.command command) →
      runOn arguments tree = (⟨0, stdout, ""⟩, after) := by
    intro arguments parsed
    rw [runOn_of_parse_eq_ok parsed runs, printed]
    rfl
  exact ⟨asked, ran, fun line isPlain => ran line (parse_of_isPlainLine isPlain)⟩

theorem runIn_runEncode_of_holdsPoints (held : tree.HoldsPoints source points)
    (target : Option String) :
    Command.runIn tree (Command.runEncode source ⟨format, precision.digits⟩ target) =
      match target with
      | none => (.ok (Command.shapeLine format (PointList.encode format precision points)), tree)
      | some target =>
        match tree.write target (PointList.encode format precision points) with
        | .error cause => (.error (.writeShape target cause), tree)
        | .ok after => (.ok "", after) := by
  obtain ⟨bytes, text, found, spelled, accepted⟩ := held
  have parsed : Command.points source bytes = .ok points := by
    simp only [Command.points, spelled, accepted]
  have ran := Command.runIn_runEncode tree source ⟨format, precision.digits⟩ target
  rw [found] at ran
  simp only [parsed, Command.precision_digits] at ran
  exact ran

theorem succeeds_encode (held : tree.HoldsPoints source points)
    (written : tree.write target (PointList.encode format precision points) = .ok after) :
    Succeeds (.encode source ⟨format, precision.digits⟩ (some target)) tree "" after := by
  have named : some target ≠ some "" := by
    simpa using FileTree.ne_empty_of_write_eq_ok written
  refine .intro (exists_parse_eq_encode held.ne_empty precision.digits_lt named) rfl ?_
  rw [runIn_runEncode_of_holdsPoints held]
  dsimp only
  rw [written]

theorem succeeds_encode_line (format : SampleFormat) (precision : Precision)
    (held : tree.HoldsPoints source points) :
    Succeeds (.encode source ⟨format, precision.digits⟩ none) tree
      (Command.shapeLine format (PointList.encode format precision points)) tree := by
  refine .intro (exists_parse_eq_encode held.ne_empty precision.digits_lt (by simp)) rfl ?_
  rw [runIn_runEncode_of_holdsPoints held]

theorem succeeds_decode {bytes : Bytes} (found : tree.read path = .ok bytes)
    (decoded : PointList.decode format precision bytes = .ok points) (output : PointOutput) :
    Succeeds (.decode path ⟨format, precision.digits⟩ output) tree
      (Command.pointsText precision output points) tree := by
  refine .intro (exists_parse_eq_decode (FileTree.ne_empty_of_read_eq_ok found) precision.digits_lt
    output) rfl ?_
  rw [Command.runIn_runDecode, found]
  simp only [Command.precision_digits, decoded]

end CommandLine

namespace PointList

/-- Points as they come out of being encoded and decoded. -/
def onGrid (precision : Precision) (points : List Point) : List Point :=
  points.map fun point =>
    GridPoint.toPoint precision.decodeFactor (GridPoint.ofPoint precision.encodeFactor point)

theorem isFinite_of_mem_onGrid {point : Point} (member : point ∈ onGrid precision points) :
    point.IsFinite := by
  obtain ⟨source, _, rfl⟩ := List.mem_map.1 member
  exact ⟨isFinite_restore precision _, isFinite_restore precision _⟩

theorem encode_onGrid (format : SampleFormat) (precision : Precision) (points : List Point) :
    encode format precision (onGrid precision points) = encode format precision points := by
  have divided : onGrid precision points =
      (points.map (GridPoint.ofPoint precision.encodeFactor)).map
        (GridPoint.toPoint precision.decodeFactor) := by
    rw [List.map_map]
    rfl
  rw [divided, encode_map_toPoint, encode, Shape.encode, GridPoint.encodeGrid_eq_flatMap]

end PointList

namespace CommandLine

open PointList

/-- Points that are encoded to a file, decoded and printed make the same file when they are encoded
again. A shape that is printed instead, and saved with its line end, decodes like the file. -/
theorem succeeds_encode_decode_encode (format : SampleFormat) (precision : Precision)
    (held : tree.HoldsPoints source points) (writable : tree.IsWritable target) :
    let codec : CodecOptions := ⟨format, precision.digits⟩
    let encoded := PointList.encode format precision points
    let decoded := onGrid precision points
    let printed := Command.pointsText precision
    ∃ after, Succeeds (.encode source codec (some target)) tree "" after ∧
      after.read target = .ok encoded ∧
      (∀ output, Succeeds (.decode target codec output) after (printed output decoded) after) ∧
      Json.read? (printed .json decoded) = some (toJson decoded) ∧
      (∀ point ∈ decoded, point.IsFinite) ∧
      (∀ other : FileTree, ∀ copy final,
        other.read copy = .ok (Utf8.encode (printed .json decoded)) → other.IsWritable final →
          ∃ last, Succeeds (.encode copy codec (some final)) other "" last ∧
            last.read final = .ok encoded) ∧
      (format.isText = true → ∃ line, Succeeds (.encode source codec none) tree line tree ∧
        Utf8.encode line = encoded ++ [0x0a] ∧
        ∀ other : FileTree, ∀ copy, other.read copy = .ok (Utf8.encode line) →
          ∀ output, Succeeds (.decode copy codec output) other (printed output decoded) other) := by
  intro codec encoded decoded printed
  have restored : PointList.decode format precision encoded = .ok decoded :=
    decode_encode format precision points
  have finite : ∀ point ∈ decoded, point.IsFinite := fun _ member => isFinite_of_mem_onGrid member
  obtain ⟨after, written⟩ := writable.exists_write_eq_ok encoded
  have kept : after.read target = .ok encoded := FileTree.read_write written
  refine ⟨after, succeeds_encode held written, kept, succeeds_decode kept restored,
    read?_pointsText precision finite, finite, ?_, ?_⟩
  · intro other copy final found finalWritable
    have again : other.HoldsPoints copy decoded := by
      refine ⟨_, _, found, Utf8.decode?_encode _, ?_⟩
      rw [PointList.read?, read?_pointsText precision finite, Option.bind_some, ofJson?_toJson]
    obtain ⟨last, rewritten⟩ := finalWritable.exists_write_eq_ok encoded
    have same : PointList.encode format precision decoded = encoded :=
      encode_onGrid format precision points
    exact ⟨last, succeeds_encode again (same.symm ▸ rewritten), FileTree.read_write rewritten⟩
  · intro textual
    have ended : Utf8.encode (Command.shapeLine format encoded) = encoded ++ [0x0a] :=
      encode_shapeLine textual precision points
    refine ⟨_, succeeds_encode_line format precision held, ended, ?_⟩
    intro other copy found output
    have blank : ∀ byte ∈ ([0x0a] : Bytes), byte ∈ SampleFormat.blankBytes := by
      simp [SampleFormat.blankBytes]
    have trimmed := SampleFormat.trim_append_of_blanks textual encoded blank
    rw [ended] at found
    refine succeeds_decode found ?_ output
    rw [decode_congr_trim format precision trimmed, restored]

/-- A longitude that is lost between the grid points, and a latitude beyond all samples. -/
theorem succeeds_encode_decode_encode_saturated :
    let tree : FileTree := ⟨[(["points"], .file (Utf8.encode "[[4e-6,1e300]]"))]⟩
    let codec : CodecOptions := ⟨.varint5, 5⟩
    let printed := "[\n  \x7b\n    \"lon\": 0.0,\n    \"lat\": 21474.836470000002\n  \x7d\n]\n"
    ∃ points after, tree.HoldsPoints "points" points ∧ tree.IsWritable "shape" ∧
      Succeeds (.encode "points" codec (some "shape")) tree "" after ∧
      Succeeds (.decode "shape" codec .json) after printed after ∧
      runOn ["encode", "points", "--digits", "5", "--out", "shape"] tree = (⟨0, "", ""⟩, after) ∧
      runOn ["decode", "shape", "--digits", "5"] after = (⟨0, printed, ""⟩, after) ∧
      ∀ other : FileTree, ∀ copy final, other.read copy = .ok (Utf8.encode printed) →
        other.IsWritable final → ∃ last, Succeeds (.encode copy codec (some final)) other "" last ∧
          last.read final = after.read "shape" := by
  intro tree codec printed
  let points : List Point :=
    [⟨(Decimal.mk false 4 (-6)).toBinary64, (Decimal.mk false 1 300).toBinary64⟩]
  have accepted : PointList.read? "[[4e-6,1e300]]" = some points := by decide +kernel
  have held : tree.HoldsPoints "points" points := ⟨_, _, rfl, Utf8.decode?_encode _, accepted⟩
  have writable : tree.IsWritable "shape" := ⟨["shape"], by decide⟩
  have spelled : Command.pointsText .polyline5 .json (onGrid .polyline5 points) = printed := by
    decide +kernel
  obtain ⟨after, encoded, kept, decoded, _, _, again, _⟩ :=
    succeeds_encode_decode_encode .varint5 .polyline5 held writable
  have shown : Succeeds (.decode "shape" codec .json) after printed after := spelled ▸ decoded .json
  have plainSource : IsPlainPath "points" := ⟨by decide, by decide⟩
  have plainTarget : IsPlainPath "shape" := ⟨by decide, by decide⟩
  have encodes : IsPlainLine ["encode", "points", "--digits", "5", "--out", "shape"]
      (.encode "points" codec (some "shape")) :=
    @IsPlainLine.encode "points" none (some 5) (some "shape") plainSource (by decide)
      (by simpa using plainTarget)
  have decodes : IsPlainLine ["decode", "shape", "--digits", "5"] (.decode "shape" codec .json) :=
    @IsPlainLine.decode "shape" none (some 5) none plainTarget (by decide)
  refine ⟨points, after, held, writable, encoded, shown, encoded.plain _ encodes,
    shown.plain _ decodes, ?_⟩
  rw [kept, ← spelled]
  exact again

end CommandLine

end Polyline
