import Polyline.Proofs.Command.Runs
import Polyline.Proofs.Files.Tree
import Polyline.Proofs.PointList

/-! The checks of encoding and decoding, each looked at as if it were the only one, with what it has
to report. The words that a report begins with tell which check it comes from. -/

set_option autoImplicit false

namespace Polyline

namespace Command

/-! ## Reports -/

inductive Check where
  | readPoints
  | parsePoints
  | precision
  | writeShape
  | readShape
  | decodeShape
  | compilePattern
  | readDirectory
  deriving DecidableEq

namespace Check

/-- What every headline of a check begins with. -/
def words : Check → String
  | readPoints => "read points "
  | parsePoints => "parse points json"
  | precision => "precision of "
  | writeShape => "write shape "
  | readShape => "read shape "
  | decodeShape => "decode shape "
  | compilePattern => "invalid glob pattern"
  | readDirectory => "read dir "

/-- What every report of a check begins with. -/
def opening (check : Check) : String := "Error: " ++ check.words

def Opens (check : Check) (text : String) : Prop := check.opening.toList <+: text.toList

theorem eq_of_opening_isPrefix {left right : Check}
    (within : left.opening.toList <+: right.opening.toList) : left = right := by
  revert within
  cases left <;> cases right <;> decide

/-- No text begins like the reports of two checks. -/
theorem Opens.unique {left right : Check} {text : String} (first : left.Opens text)
    (second : right.Opens text) : left = right := by
  rcases List.prefix_or_prefix_of_prefix first second with within | within
  · exact eq_of_opening_isPrefix within
  · exact (eq_of_opening_isPrefix within).symm

end Check

/-- A headline, and the cause below it if there is one to be told. -/
def complaint (headline : String) (cause : Option String) : String :=
  "Error: " ++ headline ++ "\n" ++
    match cause with
    | none => ""
    | some cause => "\nCaused by:\n    " ++ cause ++ "\n"

end Command

namespace Failure

open Command

/-- The check that fails. -/
def check : Failure → Check
  | readPoints .. | pointsNotText _ => .readPoints
  | parsePoints _ => .parsePoints
  | precisionOutOfRange _ => .precision
  | writeShape .. => .writeShape
  | readShape .. => .readShape
  | decodeShape .. => .decodeShape
  | invalidGlob _ => .compilePattern
  | readDirectory .. => .readDirectory

/-- A report is a headline, and the cause below it if there is one to be told. -/
theorem report_eq (failure : Failure) :
    failure.report = complaint failure.context failure.cause? := by
  unfold report complaint
  cases failure.cause? <;> rfl

theorem context_precisionOutOfRange (digits : Nat) :
    (precisionOutOfRange digits).context =
      "precision of " ++ (toString digits ++ " digits is out of range (max 9)") := by
  have closing : " digits is out of range (max " ++ toString Precision.maxDigits ++ ")" =
      " digits is out of range (max 9)" := by decide
  rw [← closing, ← String.append_assoc, ← String.append_assoc, ← String.append_assoc]
  rfl

theorem exists_context_eq (failure : Failure) :
    ∃ subject, failure.context = failure.check.words ++ subject := by
  cases failure with
  | readPoints path | pointsNotText path | writeShape path | readShape path | decodeShape path
  | readDirectory path => exact ⟨path, rfl⟩
  | parsePoints | invalidGlob => exact ⟨"", rfl⟩
  | precisionOutOfRange digits => exact ⟨_, context_precisionOutOfRange digits⟩

theorem opens_report (failure : Failure) : failure.check.Opens failure.report := by
  obtain ⟨subject, headline⟩ := failure.exists_context_eq
  rw [report_eq, headline]
  unfold Check.Opens Check.opening complaint
  simp only [String.toList_append, List.append_assoc]
  exact (List.prefix_append_right_inj _).2 (List.prefix_append _ _)

/-- A report names its check and no other. -/
theorem opens_report_iff (failure : Failure) (other : Check) :
    other.Opens failure.report ↔ other = failure.check := by
  constructor
  · intro opens
    exact opens.unique failure.opens_report
  · rintro rfl
    exact failure.opens_report

/-- Failures of different checks are reported differently. -/
theorem check_eq_of_report_eq {left right : Failure} (same : left.report = right.report) :
    left.check = right.check :=
  (right.opens_report_iff left.check).1 (same ▸ left.opens_report)

end Failure

namespace Command

/-! ## Checks -/

section Checks

variable (tree : FileTree) (path : String)

/-- Points are read from a file that holds text. -/
def unreadablePoints? : Option String :=
  let headline := "read points " ++ path
  match tree.read path with
  | .error cause => some (complaint headline (some cause.message))
  | .ok bytes =>
    if Utf8.decode? bytes = none then
      some (complaint headline (some "stream did not contain valid UTF-8"))
    else none

/-- Only a text that could be read can fail to hold points. -/
def unparsable? [Explanations] : Option String :=
  match (tree.read path).toOption.bind Utf8.decode? with
  | none => none
  | some text =>
    if PointList.read? text = none then
      some (complaint "parse points json" (Explanations.points? text))
    else none

def tooPrecise? (digits : Nat) : Option String :=
  if 9 < digits then
    let subject := toString digits ++ " digits is out of range (max 9)"
    some (complaint ("precision of " ++ subject) none)
  else none

def unwritable? (target : Option String) : Option String :=
  match target with
  | none => none
  | some target =>
    match tree.target target with
    | .error cause => some (complaint ("write shape " ++ target) (some cause.message))
    | .ok _ => none

def unreadableShape? : Option String :=
  match tree.read path with
  | .error cause => some (complaint ("read shape " ++ path) (some cause.message))
  | .ok _ => none

/-- Whether a shape ends behind a point does not depend on the precision of its points. -/
def undecodable? (format : SampleFormat) : Option String :=
  match tree.read path with
  | .error _ => none
  | .ok bytes =>
    match Shape.failure? format (format.trim bytes) with
    | none => none
    | some cause => some (complaint ("decode shape " ++ path) (some cause.message))

/-- What each check of an encoding has to report, in the order of the checks. -/
def encodeChecks [Explanations] (codec : CodecOptions) (target : Option String) :
    List (Check × Option String) :=
  [(.readPoints, unreadablePoints? tree path), (.parsePoints, unparsable? tree path),
    (.precision, tooPrecise? codec.digits), (.writeShape, unwritable? tree target)]

def decodeChecks (codec : CodecOptions) : List (Check × Option String) :=
  [(.readShape, unreadableShape? tree path), (.precision, tooPrecise? codec.digits),
    (.decodeShape, undecodable? tree path codec.format)]

/-- The first check that fails, with its report. -/
def firstFailure (checks : List (Check × Option String)) : Option (Check × String) :=
  checks.findSome? fun (check, report?) => report?.map (check, ·)

end Checks

variable {tree : FileTree} {path : String}

theorem precision_cases (digits : Nat) :
    (∃ kept, precision digits = .ok kept ∧ Precision.ofDigits? digits = some kept ∧
      tooPrecise? digits = none) ∨
    ∃ failure, precision digits = .error failure ∧ failure.check = .precision ∧
      tooPrecise? digits = some failure.report := by
  unfold precision Precision.ofDigits?
  by_cases inRange : digits ≤ Precision.maxDigits
  · rw [dif_pos inRange]
    exact .inl ⟨_, rfl, rfl, if_neg (Nat.not_lt.2 inRange)⟩
  · rw [dif_neg inRange]
    refine .inr ⟨_, rfl, rfl, ?_⟩
    rw [Failure.report_eq, Failure.context_precisionOutOfRange]
    exact if_pos (Nat.not_le.1 inRange)

/-- What a file holds is no text, a text that lists no points, or a list of points. -/
theorem points_cases [Explanations] {bytes : Bytes} (found : tree.read path = .ok bytes) :
    (∃ failure, points path bytes = .error failure ∧
      (failure.check = .readPoints ∧ unreadablePoints? tree path = some failure.report ∨
        failure.check = .parsePoints ∧ unreadablePoints? tree path = none ∧
          unparsable? tree path = some failure.report)) ∨
    ∃ held, points path bytes = .ok held ∧ tree.HoldsPoints path held ∧
      unreadablePoints? tree path = none ∧ unparsable? tree path = none := by
  unfold points unreadablePoints? unparsable?
  rw [found]
  dsimp only [Except.toOption, Option.bind_some]
  cases spelled : Utf8.decode? bytes with
  | none =>
    refine .inl ⟨_, rfl, .inl ⟨rfl, ?_⟩⟩
    rw [Failure.report_eq]
    exact if_pos rfl
  | some text =>
    cases listed : PointList.read? text with
    | none =>
      refine .inl ⟨.parsePoints (Explanations.points? text), ?_, .inr ⟨rfl, if_neg nofun, ?_⟩⟩
      · simp only [listed]
      · rw [Failure.report_eq]
        exact if_pos listed
    | some held =>
      refine .inr ⟨held, ?_, ⟨bytes, text, found, spelled, listed⟩, if_neg nofun, if_neg ?_⟩
      · simp only [listed]
      · rw [listed]
        exact nofun

/-! ## Runs -/

theorem unreadablePoints?_of_error {cause : FileError} (found : tree.read path = .error cause) :
    unreadablePoints? tree path = some (Failure.readPoints path cause).report := by
  rw [unreadablePoints?, found, Failure.report_eq]
  rfl

theorem unwritable?_of_error {cause : FileError} (targeted : tree.target path = .error cause) :
    unwritable? tree (some path) = some (Failure.writeShape path cause).report := by
  simp only [unwritable?, targeted, Failure.report_eq]
  rfl

theorem unwritable?_of_ok {location : Location} (targeted : tree.target path = .ok location) :
    unwritable? tree (some path) = none := by
  simp only [unwritable?, targeted]

theorem unreadableShape?_of_error {cause : FileError} (found : tree.read path = .error cause) :
    unreadableShape? tree path = some (Failure.readShape path cause).report := by
  rw [unreadableShape?, found, Failure.report_eq]
  rfl

theorem undecodable?_of_ok {bytes : Bytes} (found : tree.read path = .ok bytes)
    (format : SampleFormat) :
    undecodable? tree path format =
      (Shape.failure? format (format.trim bytes)).map fun cause =>
        (Failure.decodeShape path cause).report := by
  rw [undecodable?, found]
  dsimp only
  cases Shape.failure? format (format.trim bytes) with
  | none => rfl
  | some cause =>
    rw [Option.map_some, Failure.report_eq]
    rfl

/-- Encoding either fails and leaves the tree as it is, or has points of a text and a precision for
them, and prints their shape or writes it. -/
theorem runIn_runEncode_cases [Explanations] (tree : FileTree) (path : String)
    (codec : CodecOptions) (target : Option String) :
    (∃ failure, runIn tree (runEncode path codec target) = (.error failure, tree) ∧
      firstFailure (encodeChecks tree path codec target) =
        some (failure.check, failure.report)) ∨
    firstFailure (encodeChecks tree path codec target) = none ∧
      ∃ points precision, tree.HoldsPoints path points ∧
        Precision.ofDigits? codec.digits = some precision ∧
        let encoded := PointList.encode codec.format precision points
        let answer := runIn tree (runEncode path codec target)
        (target = none ∧ answer = (.ok (shapeLine codec.format encoded), tree) ∨
          ∃ out after, target = some out ∧ tree.write out encoded = .ok after ∧
            answer = (.ok "", after)) := by
  rw [runIn_runEncode]
  unfold encodeChecks
  cases found : tree.read path with
  | error cause => exact .inl ⟨_, rfl, by rw [unreadablePoints?_of_error found]; rfl⟩
  | ok bytes =>
    dsimp only
    obtain ⟨failure, refused, failing⟩ | ⟨points, accepted, held, readable, parsable⟩ :=
      points_cases found
    · refine .inl ⟨failure, by rw [refused], ?_⟩
      obtain ⟨check, failing⟩ | ⟨check, readable, failing⟩ := failing
      · rw [failing, check]
        rfl
      · rw [readable, failing, check]
        rfl
    rw [accepted, readable, parsable]
    obtain ⟨kept, told, inRange, passed⟩ | ⟨failure, refused, check, failing⟩ :=
      precision_cases codec.digits
    · rw [told, passed]
      cases target with
      | none => exact .inr ⟨rfl, points, kept, held, inRange, .inl ⟨rfl, rfl⟩⟩
      | some out =>
        cases targeted : tree.target out with
        | error cause =>
          refine .inl ⟨.writeShape out cause, ?_, by rw [unwritable?_of_error targeted]; rfl⟩
          simp only [FileTree.write_of_target_eq_error targeted]
        | ok location =>
          refine .inr ⟨by rw [unwritable?_of_ok targeted]; rfl, points, kept, held, inRange,
            .inr ⟨out, _, rfl, FileTree.write_of_target_eq_ok targeted, ?_⟩⟩
          simp only [FileTree.write_of_target_eq_ok targeted]
    · exact .inl ⟨failure, by rw [refused], by rw [failing, check]; rfl⟩

theorem runIn_runDecode_cases (tree : FileTree) (path : String) (codec : CodecOptions)
    (output : PointOutput) :
    (∃ failure, runIn tree (runDecode path codec output) = (.error failure, tree) ∧
      firstFailure (decodeChecks tree path codec) = some (failure.check, failure.report)) ∨
    ∃ printed, runIn tree (runDecode path codec output) = (.ok printed, tree) ∧
      firstFailure (decodeChecks tree path codec) = none := by
  rw [runIn_runDecode]
  unfold decodeChecks
  cases found : tree.read path with
  | error cause => exact .inl ⟨_, rfl, by rw [unreadableShape?_of_error found]; rfl⟩
  | ok bytes =>
    have readable : unreadableShape? tree path = none := by
      rw [unreadableShape?, found]
    rw [readable, undecodable?_of_ok found]
    dsimp only [PointList.decode]
    obtain ⟨kept, told, -, passed⟩ | ⟨failure, refused, check, failing⟩ :=
      precision_cases codec.digits
    · rw [told, passed]
      dsimp only
      rw [Shape.decode_eq_elim]
      cases Shape.failure? codec.format (codec.format.trim bytes) with
      | none => exact .inr ⟨_, rfl, rfl⟩
      | some cause => exact .inl ⟨_, rfl, rfl⟩
    · exact .inl ⟨failure, by rw [refused], by rw [failing, check]; rfl⟩

end Command

end Polyline
