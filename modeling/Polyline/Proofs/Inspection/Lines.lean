import Polyline.Inspection.Report
import Polyline.Proofs.Decimal.Fixed
import Polyline.Proofs.Grid
import Polyline.Proofs.Json.Whole
import Polyline.Proofs.Text.Words

/-! The text of an inspection, line by line. The words of its lines tell all that the inspection
holds. -/

set_option autoImplicit false

namespace Polyline

open Decimal Json

/-! ## What lines tell -/

/-- The words that tell where a buffer breaks off. -/
def MalformedStream.words (error : MalformedStream) : List (List Char) :=
  ["malformed".toList, "stream:".toList, "sample".toList, "at".toList, "byte".toList,
    Text.natural error.position, "ended".toList, "after".toList, Text.natural error.consumed,
    "bytes".toList, "without".toList, "a".toList, "terminating".toList, "byte".toList]

/-- A quotient to two decimal places, off by half a place and by what doubles lose. -/
def IsAverage (bytes points : Nat) (text : List Char) : Prop :=
  ∃ steps : Nat, IsExpansion 2 (steps / 10 ^ 2) text ∧
    |(steps : ℚ) - (bytes : ℚ) / points * 10 ^ 2| ≤ 1 / 2 + ((bytes : ℚ) / points + 1) / 2 ^ 46

namespace SampleEntry

/-- A line of text tells an entry, the coordinate in a spelling that is read as it. -/
def IsLine (entry : SampleEntry) (line : List Char) : Prop :=
  ∃ number,
    Text.words line =
      ['@' :: Text.natural entry.offset, Text.natural entry.length ++ ['B'],
        if entry.axis = .lat then "Lat".toList else "Lon".toList,
        "delta".toList, Text.integer entry.delta.toInt,
        "value".toList, Text.integer entry.value.toInt, '(' :: number ++ [')']] ∧
    IsNumber entry.coordinate number

end SampleEntry

namespace Inspection

/-- Lines of text tell an inspection: one with its format and its totals, one with an average if
there are points, a heading, one for each entry, and one with the failure if there is one. -/
def IsText (inspection : Inspection) (text : String) : Prop :=
  let points := inspection.samples.length / 2
  ∃ totals average samples fault,
    text.toList.splitOn '\n' =
      totals :: (average ++ "samples:".toList :: (samples ++ fault)) ++ [[]] ∧
    Text.words totals =
      ["format:".toList,
        if inspection.format = .varint5 then "varint5".toList else "varint7".toList,
        "digits:".toList, Text.natural inspection.precision.digits,
        "bytes:".toList, Text.natural inspection.byteLength,
        "points:".toList, Text.natural points] ∧
    (if points = 0 then average = []
      else ∃ line number, average = [line] ∧ Text.words line = ["bytes/point:".toList, number] ∧
        (inspection.byteLength ≤ 2 ^ 53 → IsAverage inspection.byteLength points number)) ∧
    List.Forall₂ SampleEntry.IsLine inspection.samples samples ∧
    fault.map Text.words = (inspection.error.map fun error => "error:".toList :: error.words).toList

/-- What reports rely on: coordinates that are numbers, and samples that stand within the buffer. -/
structure IsSound (inspection : Inspection) : Prop where
  finite : ∀ entry ∈ inspection.samples, entry.coordinate.isFinite = true
  inside : ∀ entry ∈ inspection.samples, entry.offset + entry.length ≤ inspection.byteLength
  few : inspection.samples.length ≤ inspection.byteLength

end Inspection

/-! ## Failures -/

theorem MalformedStream.toList_message (error : MalformedStream) :
    error.message.toList = [' '].intercalate error.words := by
  have spelled : error.message = "malformed stream: sample at byte " ++ toString error.position ++
    " ended after " ++ toString error.consumed ++ " bytes " ++ "without a terminating byte" := rfl
  rw [spelled, words]
  simp only [String.toList_append, Text.toList_toString, List.intercalate_cons_cons,
    List.intercalate_singleton]
  simp

theorem MalformedStream.isWord_of_mem_words {error : MalformedStream} {word : List Char}
    (member : word ∈ error.words) : Text.IsWord word := by
  revert word
  simp only [words, List.forall_mem_cons, Text.isWord_natural, true_and]
  decide

theorem MalformedStream.words_message (error : MalformedStream) :
    Text.words error.message.toList = error.words := by
  rw [toList_message, Text.words_intercalate fun _ member => isWord_of_mem_words member]

/-! ## Numbers -/

theorem isWord_of_isLiteral {text : List Char} (nonempty : text ≠ [])
    (literal : ∀ char ∈ text, isLiteral char = true) : Text.IsWord text := by
  refine ⟨nonempty, ?_⟩
  intro char member
  have inside := literal char member
  constructor
  · rintro rfl
    cases inside
  · rintro rfl
    cases inside

theorem isWord_integer (number : Int) : Text.IsWord (Text.integer number) :=
  isWord_of_isLiteral (integer_ne_nil number) (isLiteral_integer number)

theorem isWord_plainText {number : Binary64} (finite : number.isFinite = true) :
    Text.IsWord number.plainText := by
  refine isWord_of_isLiteral ?_ (isLiteral_plainText number)
  intro empty
  obtain ⟨read, spelled, -⟩ := isNumber_plainText finite
  rw [empty] at spelled
  cases spelled

theorem isLiteral_fixedText (places : Nat) (number : Binary64) :
    ∀ char ∈ number.fixedText places, isLiteral char = true := by
  cases number with
  | nan => exact List.all_eq_true.1 rfl
  | infinite negative => cases negative <;> exact List.all_eq_true.1 rfl
  | finite number =>
    have fraction (digits : Nat) : ∀ char ∈ pointed places (lastDigits places digits),
        isLiteral char = true := by
      unfold pointed
      split
      · exact List.forall_mem_nil _
      · exact List.forall_mem_cons.2 ⟨rfl, fun char member =>
          isLiteral_of_isDigit (isDigit_lastDigits places digits char member)⟩
    change ∀ char ∈ number.fixedText places, isLiteral char = true
    rw [Binary64.Finite.fixedText_eq, List.forall_mem_append, List.forall_mem_append]
    exact ⟨⟨isLiteral_signText _, isLiteral_toDigits _⟩, fraction _⟩

theorem fixedText_ne_nil (places : Nat) (number : Binary64) : number.fixedText places ≠ [] := by
  cases number with
  | nan => exact List.cons_ne_nil _ _
  | infinite negative => cases negative <;> exact List.cons_ne_nil _ _
  | finite number =>
    change number.fixedText places ≠ []
    have whole : Text.natural (number.steps places / 10 ^ places) ≠ [] := Nat.toDigits_ne_nil
    rw [Binary64.Finite.fixedText_eq]
    simp [whole]

theorem isWord_fixedText (places : Nat) (number : Binary64) :
    Text.IsWord (number.fixedText places) :=
  isWord_of_isLiteral (fixedText_ne_nil places number) (isLiteral_fixedText places number)

/-- A quotient of doubles, shown to two decimal places, is an average. -/
theorem isAverage_fixedText {bytes points : Nat} (bounded : bytes ≤ 2 ^ 53)
    (some : points ≠ 0) (few : points ≤ bytes) :
    IsAverage bytes points
      ((Binary64.ofInt bytes / Binary64.ofInt points : Binary64).fixedText 2) := by
  obtain ⟨left, leftEqual, leftExact, leftSign⟩ := @Binary64.ofInt_eq bytes (by omega)
  obtain ⟨right, rightEqual, rightExact, rightSign⟩ := @Binary64.ofInt_eq points (by omega)
  have positive : (0 : ℚ) < points := by exact_mod_cast Nat.pos_of_ne_zero some
  have exact : left.toRat / right.toRat = (bytes : ℚ) / points := by
    rw [leftExact, rightExact, Int.cast_natCast, Int.cast_natCast]
  have nonneg : (0 : ℚ) ≤ (bytes : ℚ) / points := by positivity
  have inRange : |left.toRat / right.toRat| ≤ 2 ^ 100 := by
    have one : (1 : ℚ) ≤ points := by exact_mod_cast Nat.pos_of_ne_zero some
    have cast : (bytes : ℚ) ≤ 2 ^ 53 := by exact_mod_cast bounded
    have below : (bytes : ℚ) / points ≤ bytes := div_le_self (by positivity) one
    rw [exact, abs_of_nonneg nonneg]
    linarith
  have nonzero : right.toRat ≠ 0 := by
    rw [rightExact]
    exact positive.ne'
  obtain ⟨double, equal, sign, near⟩ := Binary64.div_near nonzero inRange
  have unsigned : double.negative = false := by
    have above (number : Nat) : decide ((number : Int) < 0) = false :=
      decide_eq_false (Int.not_lt.2 (Int.natCast_nonneg number))
    rw [sign, leftSign, rightSign, above, above]
    rfl
  obtain ⟨expanded, rounded⟩ := Binary64.Finite.isExpansion_steps unsigned 2
  rw [leftEqual, rightEqual, equal]
  refine ⟨double.steps 2, expanded, ?_⟩
  have error := near.trans (Binary64.roundingError_le _)
  rw [exact, abs_of_nonneg nonneg] at error
  have scaled : |double.toRat * 10 ^ 2 - (bytes : ℚ) / points * 10 ^ 2| =
      |double.toRat - (bytes : ℚ) / points| * 10 ^ 2 := by
    rw [← sub_mul, abs_mul, abs_of_pos (by norm_num : (0 : ℚ) < 10 ^ 2)]
  have apart := abs_sub_le (double.steps 2 : ℚ) (double.toRat * 10 ^ 2)
    ((bytes : ℚ) / points * 10 ^ 2)
  rw [scaled] at apart
  norm_num at error rounded apart ⊢
  linarith

/-! ## Samples -/

namespace SampleEntry

variable {entry : SampleEntry}

/-- A line without its end. -/
def row (entry : SampleEntry) : List Char :=
  "  @".toList ++ Text.alignLeft 6 (Text.natural entry.offset) ++ [' '] ++
    Text.alignRight 2 (Text.natural entry.length) ++ "B ".toList ++ entry.axis.label.toList ++
    " delta ".toList ++ Text.alignRight 11 (Text.integer entry.delta.toInt) ++
    " value ".toList ++ Text.alignRight 11 (Text.integer entry.value.toInt) ++
    " (".toList ++ entry.coordinate.plainText ++ [')']

theorem line_eq (entry : SampleEntry) : entry.line = entry.row ++ ['\n'] :=
  (List.append_assoc _ [')'] ['\n']).symm

/-- The words of a line. -/
def words (entry : SampleEntry) : List (List Char) :=
  [['@'] ++ Text.natural entry.offset, Text.natural entry.length ++ ['B'],
    entry.axis.label.toList, "delta".toList, Text.integer entry.delta.toInt,
    "value".toList, Text.integer entry.value.toInt, ['('] ++ entry.coordinate.plainText ++ [')']]

theorem isWord_of_mem_words (finite : entry.coordinate.isFinite = true) :
    ∀ word ∈ entry.words, Text.IsWord word := by
  have offset : Text.IsWord (['@'] ++ Text.natural entry.offset) :=
    .append (by decide) (Text.isWord_natural entry.offset)
  have length : Text.IsWord (Text.natural entry.length ++ ['B']) :=
    (Text.isWord_natural entry.length).append (by decide)
  have label : Text.IsWord entry.axis.label.toList := by
    cases entry.axis <;> decide
  have number : Text.IsWord (['('] ++ entry.coordinate.plainText ++ [')']) :=
    .append (.append (by decide) (isWord_plainText finite)) (by decide)
  simp only [words, List.forall_mem_cons, offset, length, label, isWord_integer, number, true_and]
  decide

theorem words_columns {offset length label delta value number : List Char}
    (isWord : ∀ word ∈ [['@'] ++ offset, length ++ ['B'], label, "delta".toList, delta,
      "value".toList, value, ['('] ++ number ++ [')']], Text.IsWord word) :
    Text.words ("  @".toList ++ Text.alignLeft 6 offset ++ [' '] ++ Text.alignRight 2 length ++
        "B ".toList ++ label ++ " delta ".toList ++ Text.alignRight 11 delta ++
        " value ".toList ++ Text.alignRight 11 value ++ " (".toList ++ number ++ [')']) =
      [['@'] ++ offset, length ++ ['B'], label, "delta".toList, delta, "value".toList, value,
        ['('] ++ number ++ [')']] := by
  simp only [List.forall_mem_cons] at isWord
  obtain ⟨offsetWord, lengthWord, labelWord, deltaName, deltaWord, valueName, valueWord, numberWord,
    -⟩ := isWord
  have spelled : "  @".toList ++ Text.alignLeft 6 offset ++ [' '] ++ Text.alignRight 2 length ++
      "B ".toList ++ label ++ " delta ".toList ++ Text.alignRight 11 delta ++
      " value ".toList ++ Text.alignRight 11 value ++ " (".toList ++ number ++ [')'] =
    ' ' :: ' ' :: (['@'] ++ Text.alignLeft 6 offset ++ ' ' :: (Text.alignRight 2 length ++
      ('B' :: ' ' :: (label ++ ' ' :: ("delta".toList ++ ' ' :: (Text.alignRight 11 delta ++
        ' ' :: ("value".toList ++ ' ' :: (Text.alignRight 11 value ++
          ' ' :: (['('] ++ number ++ [')']))))))))) := by
    simp
  have joined (rest : List Char) :
      length ++ 'B' :: ' ' :: rest = length ++ ['B'] ++ ' ' :: rest := by
    simp
  rw [spelled, Text.words_blank, Text.words_blank, Text.words_append_alignLeft offsetWord,
    Text.words_alignRight, joined, Text.words_append lengthWord, Text.words_append labelWord,
    Text.words_append deltaName, Text.words_alignRight, Text.words_append deltaWord,
    Text.words_append valueName, Text.words_alignRight, Text.words_append valueWord,
    Text.words_eq_singleton numberWord]

theorem words_row (finite : entry.coordinate.isFinite = true) :
    Text.words entry.row = entry.words := by
  unfold row
  exact words_columns (isWord_of_mem_words finite)

theorem isLine_row (finite : entry.coordinate.isFinite = true) : entry.IsLine entry.row := by
  have label : entry.axis.label.toList =
      if entry.axis = .lat then "Lat".toList else "Lon".toList := by
    cases entry.axis <;> rfl
  refine ⟨entry.coordinate.plainText, ?_, isNumber_plainText finite⟩
  rw [words_row finite, words, label]
  rfl

end SampleEntry

/-! ## Inspections -/

namespace Inspection

variable {inspection : Inspection}

def totalsWords (inspection : Inspection) : List (List Char) :=
  ["format:".toList, inspection.format.name.toList,
    "digits:".toList, Text.natural inspection.precision.digits,
    "bytes:".toList, Text.natural inspection.byteLength,
    "points:".toList, Text.natural inspection.pointCount]

def averageWords (average : Binary64) : List (List Char) :=
  ["bytes/point:".toList, average.fixedText 2]

def faultWords (error : MalformedStream) : List (List Char) := "error:".toList :: error.words

/-- The lines of a text without their ends. -/
def rows (inspection : Inspection) : List (List Char) :=
  [' '].intercalate inspection.totalsWords ::
    ((inspection.bytesPerPoint?.map ([' '].intercalate <| averageWords ·)).toList ++
      "samples:".toList :: (inspection.samples.map SampleEntry.row ++
        (inspection.error.map ([' '].intercalate <| faultWords ·)).toList))

theorem toList_totals (inspection : Inspection) :
    (s!"format: {inspection.format.name} digits: {inspection.precision.digits} " ++
      s!"bytes: {inspection.byteLength} points: {inspection.pointCount}\n").toList =
      [' '].intercalate inspection.totalsWords ++ ['\n'] := by
  have spelled : s!"format: {inspection.format.name} digits: {inspection.precision.digits} " ++
      s!"bytes: {inspection.byteLength} points: {inspection.pointCount}\n" =
    "format: " ++ inspection.format.name ++ " digits: " ++ toString inspection.precision.digits ++
      " " ++ ("bytes: " ++ toString inspection.byteLength ++ " points: " ++
        toString inspection.pointCount ++ "\n") := rfl
  rw [spelled, totalsWords]
  simp only [String.toList_append, Text.toList_toString, List.intercalate_cons_cons,
    List.intercalate_singleton]
  simp

theorem toList_average (average? : Option Binary64) :
    (match average? with
      | some average => "bytes/point: " ++ String.ofList (average.fixedText 2) ++ "\n"
      | none => "").toList =
      (average?.map ([' '].intercalate <| averageWords ·)).toList.flatMap (· ++ ['\n']) := by
  cases average? with
  | none => rfl
  | some average =>
    simp only [String.toList_append, String.toList_ofList, averageWords, Option.map_some,
      Option.toList_some, List.flatMap_singleton, List.intercalate_cons_cons,
      List.intercalate_singleton]
    rfl

theorem toList_samples (samples : List SampleEntry) :
    ("samples:\n" ++ String.ofList (samples.flatMap SampleEntry.line)).toList =
      "samples:".toList ++ ['\n'] ++ (samples.map SampleEntry.row).flatMap (· ++ ['\n']) := by
  have lines : SampleEntry.line = fun entry => entry.row ++ ['\n'] := funext SampleEntry.line_eq
  simp only [String.toList_append, String.toList_ofList, List.flatMap_map, lines]
  rfl

theorem toList_fault (error? : Option MalformedStream) :
    (match error? with
      | some error => s!"error: {error.message}\n"
      | none => "").toList =
      (error?.map ([' '].intercalate <| faultWords ·)).toList.flatMap (· ++ ['\n']) := by
  cases error? with
  | none => rfl
  | some error =>
    have spelled : s!"error: {error.message}\n" = "error: " ++ error.message ++ "\n" := rfl
    dsimp only
    rw [spelled, String.toList_append, String.toList_append, error.toList_message, Option.map_some,
      Option.toList_some, List.flatMap_singleton]
    rfl

/-- A text is made of lines that are all ended. -/
theorem toList_text (inspection : Inspection) :
    inspection.text.toList = inspection.rows.flatMap (· ++ ['\n']) := by
  have ended : inspection.rows.flatMap (· ++ ['\n']) =
      [' '].intercalate inspection.totalsWords ++ ['\n'] ++
        (inspection.bytesPerPoint?.map ([' '].intercalate <| averageWords ·)).toList.flatMap
          (· ++ ['\n']) ++
        ("samples:".toList ++ ['\n'] ++
          (inspection.samples.map SampleEntry.row).flatMap (· ++ ['\n'])) ++
        (inspection.error.map ([' '].intercalate <| faultWords ·)).toList.flatMap
          (· ++ ['\n']) := by
    simp [rows]
  rw [ended, ← toList_totals, ← toList_average, ← toList_samples, ← toList_fault,
    ← String.toList_append, ← String.toList_append, ← String.toList_append]
  rfl

theorem isWord_of_mem_totalsWords (inspection : Inspection) :
    ∀ word ∈ inspection.totalsWords, Text.IsWord word := by
  have name : Text.IsWord inspection.format.name.toList := by
    cases inspection.format <;> decide
  simp only [totalsWords, List.forall_mem_cons, Text.isWord_natural, name, true_and]
  decide

theorem isWord_of_mem_averageWords (average : Binary64) :
    ∀ word ∈ averageWords average, Text.IsWord word := by
  simp only [averageWords, List.forall_mem_cons, isWord_fixedText, true_and]
  decide

theorem isWord_of_mem_faultWords (error : MalformedStream) :
    ∀ word ∈ faultWords error, Text.IsWord word :=
  List.forall_mem_cons.2 ⟨by decide, fun _ member => error.isWord_of_mem_words member⟩

/-- The lines come apart again. -/
theorem splitOn_text (sound : inspection.IsSound) :
    inspection.text.toList.splitOn '\n' = inspection.rows ++ [[]] := by
  have intercalated {row : List (List Char)} (isWord : ∀ word ∈ row, Text.IsWord word) :
      '\n' ∉ [' '].intercalate row := by
    apply Text.not_mem_of_words
    rwa [Text.words_intercalate isWord]
  have sample : ∀ entry ∈ inspection.samples, '\n' ∉ entry.row := by
    intro entry member
    apply Text.not_mem_of_words
    rw [SampleEntry.words_row (sound.finite entry member)]
    exact SampleEntry.isWord_of_mem_words (sound.finite entry member)
  rw [toList_text]
  apply Text.splitOn_lines
  simp only [rows, List.forall_mem_cons, List.forall_mem_append, List.forall_mem_map]
  refine ⟨intercalated inspection.isWord_of_mem_totalsWords, ?_, by decide, sample, ?_⟩
  · intro row member
    obtain ⟨average, _, rfl⟩ := Option.map_eq_some_iff.1 (Option.mem_toList.1 member)
    exact intercalated (isWord_of_mem_averageWords average)
  · intro row member
    obtain ⟨error, _, rfl⟩ := Option.map_eq_some_iff.1 (Option.mem_toList.1 member)
    exact intercalated (isWord_of_mem_faultWords error)

/-- The text of an inspection tells it. -/
theorem isText_text (sound : inspection.IsSound) : inspection.IsText inspection.text := by
  refine ⟨_, _, _, _, splitOn_text sound, ?_, ?_, ?_, ?_⟩
  · have name : inspection.format.name.toList =
        if inspection.format = .varint5 then "varint5".toList else "varint7".toList := by
      cases inspection.format <;> rfl
    rw [Text.words_intercalate inspection.isWord_of_mem_totalsWords, totalsWords, name]
    rfl
  · unfold bytesPerPoint? pointCount
    split
    next => rfl
    next some =>
      have few : inspection.samples.length / 2 ≤ inspection.byteLength :=
        (Nat.div_le_self _ 2).trans sound.few
      exact ⟨_, _, rfl, Text.words_intercalate (isWord_of_mem_averageWords _),
        fun bounded => isAverage_fixedText bounded some few⟩
  · rw [List.forall₂_map_right_iff, List.forall₂_same]
    exact fun entry member => SampleEntry.isLine_row (sound.finite entry member)
  · cases inspection.error with
    | none => rfl
    | some error =>
      exact congrArg ([·]) (Text.words_intercalate (isWord_of_mem_faultWords error))

end Inspection

end Polyline
