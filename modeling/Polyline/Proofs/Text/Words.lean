import Polyline.Proofs.Decimal.Text
import Polyline.Text.Column
import Polyline.Text.Integer

/-! Words and lines. Columns differ from each other in blanks only, so that a line is known by its
words. -/

set_option autoImplicit false

namespace Polyline.Text

open Decimal

/-- What stands between the blanks of a line. -/
def words (line : List Char) : List (List Char) := (line.splitOn ' ').filter (· ≠ [])

/-- Some characters without a blank and without an end of a line among them. -/
structure IsWord (word : List Char) : Prop where
  nonempty : word ≠ []
  clean : ∀ char ∈ word, char ≠ ' ' ∧ char ≠ '\n'

instance (word : List Char) : Decidable (IsWord word) :=
  decidable_of_iff (word ≠ [] ∧ word.all (fun char => char ≠ ' ' ∧ char ≠ '\n') = true)
    ⟨fun ⟨nonempty, clean⟩ => ⟨nonempty, by simpa using clean⟩,
      fun ⟨nonempty, clean⟩ => ⟨nonempty, by simpa using clean⟩⟩

variable {word : List Char}

theorem IsWord.not_mem (isWord : IsWord word) : ' ' ∉ word :=
  fun member => (isWord.clean ' ' member).1 rfl

theorem IsWord.append {left right : List Char} (first : IsWord left) (second : IsWord right) :
    IsWord (left ++ right) :=
  ⟨List.append_ne_nil_of_left_ne_nil first.nonempty right,
    List.forall_mem_append.2 ⟨first.clean, second.clean⟩⟩

theorem isWord_natural (number : Nat) : IsWord (natural number) := by
  refine ⟨Nat.toDigits_ne_nil, ?_⟩
  intro char member
  have digit := isDigit_toDigits number char member
  constructor
  · rintro rfl
    cases digit
  · rintro rfl
    cases digit

/-! ## Words of lines -/

theorem words_blank (rest : List Char) : words (' ' :: rest) = words rest := by
  have divided := List.splitOn_append_cons_self_of_not_mem (List.not_mem_nil (a := ' ')) rest
  rw [words, words, ← List.nil_append (' ' :: rest), divided]
  exact List.filter_cons_of_neg (by simp)

theorem words_blanks (count : Nat) (rest : List Char) :
    words (List.replicate count ' ' ++ rest) = words rest := by
  induction count with
  | zero => rfl
  | succ count ih => rw [List.replicate_succ, List.cons_append, words_blank, ih]

theorem words_alignRight (width : Nat) (text rest : List Char) :
    words (alignRight width text ++ rest) = words (text ++ rest) := by
  rw [alignRight, List.append_assoc, words_blanks]

theorem words_append (isWord : IsWord word) (rest : List Char) :
    words (word ++ ' ' :: rest) = word :: words rest := by
  rw [words, List.splitOn_append_cons_self_of_not_mem isWord.not_mem]
  exact List.filter_cons_of_pos (by simpa using isWord.nonempty)

/-- A column may begin with the end of a word. -/
theorem words_append_alignLeft {front text : List Char} (isWord : IsWord (front ++ text))
    (width : Nat) (rest : List Char) :
    words (front ++ alignLeft width text ++ ' ' :: rest) = (front ++ text) :: words rest := by
  have blanks : List.replicate (width - text.length) ' ' ++ ' ' :: rest =
      ' ' :: (List.replicate (width - text.length) ' ' ++ rest) := by
    rw [← List.singleton_append, ← List.append_assoc, ← List.replicate_succ', List.replicate_succ,
      List.cons_append]
  rw [alignLeft, ← List.append_assoc, List.append_assoc, blanks, words_append isWord, words_blanks]

theorem words_eq_singleton (isWord : IsWord word) : words word = [word] := by
  rw [words, List.splitOn_eq_singleton isWord.not_mem]
  exact List.filter_eq_self.2 (by simpa using isWord.nonempty)

/-- Words with one blank between each two of them. -/
theorem words_intercalate {row : List (List Char)} (isWord : ∀ word ∈ row, IsWord word) :
    words ([' '].intercalate row) = row := by
  induction row with
  | nil => rfl
  | cons first others ih =>
    obtain ⟨firstWord, othersWords⟩ := List.forall_mem_cons.1 isWord
    cases others with
    | nil => rw [List.intercalate_singleton, words_eq_singleton firstWord]
    | cons second others =>
      rw [List.intercalate_cons_cons, List.append_assoc, List.singleton_append,
        words_append firstWord, ih othersWords]

/-! ## Lines of texts -/

theorem mem_of_mem_intercalate {char separator : Char} {rows : List (List Char)}
    (member : char ∈ [separator].intercalate rows) :
    char = separator ∨ ∃ row ∈ rows, char ∈ row := by
  induction rows with
  | nil => cases member
  | cons row rows ih =>
    cases rows with
    | nil =>
      rw [List.intercalate_singleton] at member
      exact .inr ⟨row, List.mem_cons_self, member⟩
    | cons next rows =>
      rw [List.intercalate_cons_cons, List.mem_append, List.mem_append, List.mem_singleton]
        at member
      rcases member with (inside | same) | behind
      · exact .inr ⟨row, List.mem_cons_self, inside⟩
      · exact .inl same
      · exact (ih behind).imp_right fun ⟨row, later, inside⟩ =>
          ⟨row, List.mem_cons_of_mem _ later, inside⟩

/-- A line of words does not end between them. -/
theorem not_mem_of_words {line : List Char} (isWord : ∀ word ∈ words line, IsWord word) :
    '\n' ∉ line := by
  intro member
  have joined : [' '].intercalate (line.splitOn ' ') = line := List.intercalate_splitOn ' '
  rw [← joined] at member
  obtain same | ⟨word, found, inside⟩ := mem_of_mem_intercalate member
  · cases same
  · have some : word ≠ [] := List.ne_nil_of_mem inside
    have told := isWord word (List.mem_filter.2 ⟨found, decide_eq_true some⟩)
    exact (told.clean '\n' inside).2 rfl

/-- A text whose lines are all ended is split into them, with nothing behind the last. -/
theorem splitOn_lines {rows : List (List Char)} (clean : ∀ row ∈ rows, '\n' ∉ row) :
    (rows.flatMap (· ++ ['\n'])).splitOn '\n' = rows ++ [[]] := by
  induction rows with
  | nil => rfl
  | cons row rows ih =>
    obtain ⟨first, others⟩ := List.forall_mem_cons.1 clean
    rw [List.flatMap_cons, List.append_assoc, List.singleton_append,
      List.splitOn_append_cons_self_of_not_mem first, ih others, List.cons_append]

/-! ## Numbers -/

theorem toList_toString (number : Nat) : (toString number).toList = natural number := by
  simp [natural]

theorem natural_injective {left right : Nat} (same : natural left = natural right) :
    left = right := by
  have value := congrArg (Nat.ofDigitChars 10 · 0) same
  simpa [natural, Nat.ofDigitChars_ten_toDigits] using value

end Polyline.Text
