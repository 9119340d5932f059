import Polyline.Proofs.Command.Checks
import Polyline.Proofs.Command.Inspecting

/-! What the program does to the file tree and which failure it reports. Its checks are looked at
one by one, each as if it were the only one, and the first that fails speaks for the run. -/

set_option autoImplicit false

namespace Polyline

namespace CommandLine

open Command

section Runs

variable [FilePatterns] [Explanations] {arguments : List String} {path : String}
  {codec : CodecOptions}

/-- A run whose checks are passed ends with 0. Otherwise it ends with 1, prints nothing and reports
what the first failing check has to say, in a text that begins like the reports of no other. -/
def Outcome.Reports (outcome : Outcome) : Option (Check × String) → Prop
  | none => outcome.exitCode = 0 ∧ outcome.stderr = ""
  | some (check, text) =>
    outcome = ⟨1, "", text⟩ ∧ ∀ other : Check, other.Opens text ↔ other = check

theorem runOn_encode_cases {target : Option String}
    (asked : parse arguments = .ok (.command (.encode path codec target))) (tree : FileTree) :
    (∃ failure : Failure, runOn arguments tree = (⟨1, "", failure.report⟩, tree) ∧
      firstFailure (encodeChecks tree path codec target) =
        some (failure.check, failure.report)) ∨
    firstFailure (encodeChecks tree path codec target) = none ∧
      ∃ points precision, tree.HoldsPoints path points ∧
        Precision.ofDigits? codec.digits = some precision ∧
        let encoded := PointList.encode codec.format precision points
        (target = none ∧ runOn arguments tree = (⟨0, shapeLine codec.format encoded, ""⟩, tree) ∨
          ∃ out after, target = some out ∧ tree.write out encoded = .ok after ∧
            runOn arguments tree = (⟨0, "", ""⟩, after)) := by
  rw [runOn_of_parse_eq_ok asked rfl]
  obtain ⟨failure, ran, failing⟩ | ⟨passed, points, precision, held, inRange, done⟩ :=
    runIn_runEncode_cases tree path codec target
  · exact .inl ⟨failure, by rw [ran]; rfl, failing⟩
  · refine .inr ⟨passed, points, precision, held, inRange, ?_⟩
    obtain ⟨nowhere, ran⟩ | ⟨out, after, targeted, written, ran⟩ := done
    · exact .inl ⟨nowhere, by rw [ran]; rfl⟩
    · exact .inr ⟨out, after, targeted, written, by rw [ran]; rfl⟩

theorem runOn_decode_cases {output : PointOutput}
    (asked : parse arguments = .ok (.command (.decode path codec output))) (tree : FileTree) :
    (∃ failure : Failure, runOn arguments tree = (⟨1, "", failure.report⟩, tree) ∧
      firstFailure (decodeChecks tree path codec) = some (failure.check, failure.report)) ∨
    ∃ printed, runOn arguments tree = (⟨0, printed, ""⟩, tree) ∧
      firstFailure (decodeChecks tree path codec) = none := by
  rw [runOn_of_parse_eq_ok asked rfl]
  obtain ⟨failure, ran, failing⟩ | ⟨printed, ran, passed⟩ :=
    runIn_runDecode_cases tree path codec output
  · exact .inl ⟨failure, by rw [ran]; rfl, failing⟩
  · exact .inr ⟨printed, by rw [ran]; rfl, passed⟩

theorem runOn_inspect_snd {options : InspectOptions}
    (asked : parse arguments = .ok (.command (.inspect path codec options))) (tree : FileTree) :
    (runOn arguments tree).2 = tree := by
  unfold runOn run
  rw [asked]
  dsimp only
  refine Keeps.bind (keeps_runInspect path codec options) (fun result => ?_) tree
  split
  · exact .pure _
  · exact .pure _

/-- Only an encoding to a file that ends with 0 can change the tree. -/
theorem runOn_snd_eq_or (arguments : List String) (tree : FileTree) :
    (runOn arguments tree).2 = tree ∨ (runOn arguments tree).1.exitCode = 0 ∧
      ∃ path codec out, parse arguments = .ok (.command (.encode path codec (some out))) := by
  cases asked : parse arguments with
  | error cause =>
    unfold runOn run
    rw [asked]
    exact .inl rfl
  | ok request =>
    cases request with
    | version =>
      unfold runOn run
      rw [asked]
      exact .inl rfl
    | command command =>
      cases command with
      | encode path codec target =>
        obtain ⟨failure, ran, -⟩ | ⟨-, points, precision, -, -, done⟩ :=
          runOn_encode_cases asked tree
        · exact .inl (by rw [ran])
        · obtain ⟨-, ran⟩ | ⟨out, after, rfl, -, ran⟩ := done
          · exact .inl (by rw [ran])
          · exact .inr ⟨by rw [ran], path, codec, out, rfl⟩
      | decode path codec output =>
        obtain ⟨failure, ran, -⟩ | ⟨printed, ran, -⟩ := runOn_decode_cases asked tree
        · exact .inl (by rw [ran])
        · exact .inl (by rw [ran])
      | inspect path codec options => exact .inl (runOn_inspect_snd asked tree)

theorem runOn_encode_reports {target : Option String}
    (asked : parse arguments = .ok (.command (.encode path codec target))) (tree : FileTree) :
    (runOn arguments tree).1.Reports (firstFailure (encodeChecks tree path codec target)) := by
  obtain ⟨failure, ran, failing⟩ | ⟨passed, points, precision, -, -, done⟩ :=
    runOn_encode_cases asked tree
  · rw [ran, failing]
    exact ⟨rfl, failure.opens_report_iff⟩
  · rw [passed]
    obtain ⟨-, ran⟩ | ⟨out, after, -, -, ran⟩ := done
    · rw [ran]
      exact ⟨rfl, rfl⟩
    · rw [ran]
      exact ⟨rfl, rfl⟩

theorem runOn_decode_reports {output : PointOutput}
    (asked : parse arguments = .ok (.command (.decode path codec output))) (tree : FileTree) :
    (runOn arguments tree).1.Reports (firstFailure (decodeChecks tree path codec)) := by
  obtain ⟨failure, ran, failing⟩ | ⟨printed, ran, passed⟩ := runOn_decode_cases asked tree
  · rw [ran, failing]
    exact ⟨rfl, failure.opens_report_iff⟩
  · rw [ran, passed]
    exact ⟨rfl, rfl⟩

/-- The file that a shape is encoded to is all that changes, and may be that of the points. -/
theorem runOn_encode_to_file {out : String}
    (asked : parse arguments = .ok (.command (.encode path codec (some out)))) (tree : FileTree) :
    let outcome := (runOn arguments tree).1
    let after := (runOn arguments tree).2
    (∀ location, tree.target out ≠ .ok location → after.node? location = tree.node? location) ∧
      (outcome.exitCode = 0 → ∃ points precision, tree.HoldsPoints path points ∧
        Precision.ofDigits? codec.digits = some precision ∧
        after.read out = .ok (PointList.encode codec.format precision points)) := by
  dsimp only
  obtain ⟨failure, ran, -⟩ | ⟨-, points, precision, held, inRange, done⟩ :=
    runOn_encode_cases asked tree
  · rw [ran]
    exact ⟨fun _ _ => rfl, nofun⟩
  · obtain ⟨nowhere, -⟩ | ⟨_, after, targeted, written, ran⟩ := done
    · cases nowhere
    · cases targeted
      rw [ran]
      refine ⟨?_, ?_⟩
      · intro location other
        exact FileTree.node?_write_of_ne written other
      · intro _
        exact ⟨points, precision, held, inRange, FileTree.read_write written⟩

/-- Only encoding to a file changes the tree, and only when the program ends with 0: then the file
holds the encoded points and everything else is as before. Otherwise the first failing check is
reported and nothing is printed. -/
theorem runOn_effects (arguments : List String) (tree : FileTree) :
    let outcome := (runOn arguments tree).1
    let after := (runOn arguments tree).2
    (after = tree ∨ outcome.exitCode = 0 ∧
      ∃ path codec out, parse arguments = .ok (.command (.encode path codec (some out)))) ∧
    (∀ path codec out, parse arguments = .ok (.command (.encode path codec (some out))) →
      (∀ location, tree.target out ≠ .ok location → after.node? location = tree.node? location) ∧
      (outcome.exitCode = 0 → ∃ points precision, tree.HoldsPoints path points ∧
        Precision.ofDigits? codec.digits = some precision ∧
        after.read out = .ok (PointList.encode codec.format precision points))) ∧
    (∀ path codec target, parse arguments = .ok (.command (.encode path codec target)) →
      outcome.Reports (firstFailure (encodeChecks tree path codec target))) ∧
    (∀ path codec output, parse arguments = .ok (.command (.decode path codec output)) →
      outcome.Reports (firstFailure (decodeChecks tree path codec))) := by
  intro outcome after
  refine ⟨runOn_snd_eq_or arguments tree, ?_, ?_, ?_⟩
  · intro path codec out asked
    exact runOn_encode_to_file asked tree
  · intro path codec target asked
    exact runOn_encode_reports asked tree
  · intro path codec output asked
    exact runOn_decode_reports asked tree

end Runs

/-- Every check but that for reading fails, of an encoding and of a decoding. -/
theorem runOn_effects_faults :
    letI : Explanations := ⟨fun _ => some "expected value at line 1 column 1", fun _ => none⟩
    let tree : FileTree := ⟨[(["points"], .file (Utf8.encode "x"))]⟩
    let encoding := ["encode", "points", "--digits", "12", "--out", "no/shape"]
    let decoding := ["decode", "points", "--digits", "12"]
    let unparsable :=
      "Error: parse points json\n\nCaused by:\n    expected value at line 1 column 1\n"
    let tooPrecise := "Error: precision of 12 digits is out of range (max 9)\n"
    (encodeChecks tree "points" ⟨.varint5, 12⟩ (some "no/shape")).map (·.2.isSome) =
        [false, true, true, true] ∧
      runOn encoding tree = (⟨1, "", unparsable⟩, tree) ∧
      (decodeChecks tree "points" ⟨.varint5, 12⟩).map (·.2.isSome) = [false, true, true] ∧
      runOn decoding tree = (⟨1, "", tooPrecise⟩, tree) := by
  let explanations : Explanations :=
    ⟨fun _ => some "expected value at line 1 column 1", fun _ => none⟩
  intro tree encoding decoding unparsable tooPrecise
  have encodingAsked : parse encoding =
      .ok (.command (.encode "points" ⟨.varint5, 12⟩ (some "no/shape"))) := by decide +kernel
  have decodingAsked : parse decoding =
      .ok (.command (.decode "points" ⟨.varint5, 12⟩ .json)) := by decide +kernel
  have firstOfEncoding :
      firstFailure (encodeChecks tree "points" ⟨.varint5, 12⟩ (some "no/shape")) =
        some (.parsePoints, unparsable) := by decide +kernel
  have firstOfDecoding : firstFailure (decodeChecks tree "points" ⟨.varint5, 12⟩) =
      some (.precision, tooPrecise) := by decide +kernel
  obtain ⟨encodingKeeps, -, encodingReports, -⟩ := runOn_effects encoding tree
  obtain ⟨decodingKeeps, -, -, decodingReports⟩ := runOn_effects decoding tree
  have encoded := encodingReports _ _ _ encodingAsked
  have decoded := decodingReports _ _ _ decodingAsked
  rw [firstOfEncoding] at encoded
  rw [firstOfDecoding] at decoded
  obtain ⟨encoded, -⟩ := encoded
  obtain ⟨decoded, -⟩ := decoded
  rw [encoded] at encodingKeeps
  rw [decoded] at decodingKeeps
  refine ⟨by decide +kernel, Prod.ext encoded ?_, by decide +kernel, Prod.ext decoded ?_⟩
  · exact encodingKeeps.resolve_right (by simp)
  · exact decodingKeeps.resolve_right (by simp)

end CommandLine

end Polyline
