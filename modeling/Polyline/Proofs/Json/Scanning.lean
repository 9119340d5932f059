import Polyline.Json.Token

/-! The scanner on blanks, numbers and words. What is scanned behind a token does not depend on how
the token was spelled, only a number or word needs something behind it that cannot be part of it. -/

set_option autoImplicit false

namespace Polyline.Json.Scanner

/-- The tokens of a text behind those that were found in front of it, which are held in reverse. -/
def scan (found : List Token) (text : List Char) : Option (List Token) :=
  (text.foldlM State.step? ⟨found, .nothing⟩).bind State.finish?

@[simp] theorem scan_nil (found : List Token) : scan found [] = some found.reverse := rfl

theorem scan_cons {found after : List Token} {char : Char}
    (taken : start? found char = some ⟨after, .nothing⟩) (rest : List Char) :
    scan found (char :: rest) = scan after rest := by
  simp [scan, State.step?, taken]

theorem scan_blanks {blanks : List Char} (blank : ∀ char ∈ blanks, isBlank char = true)
    (found : List Token) (rest : List Char) : scan found (blanks ++ rest) = scan found rest := by
  induction blanks with
  | nil => rfl
  | cons char blanks ih =>
    obtain ⟨first, others⟩ := List.forall_mem_cons.1 blank
    have skipped : start? found char = some ⟨found, .nothing⟩ := by
      simp [start?, first]
    rw [List.cons_append, scan_cons skipped, ih others]

/-! ## Numbers and words -/

theorem isBlank_eq_false_of_isLiteral {char : Char} (literal : isLiteral char = true) :
    isBlank char = false := by
  apply Bool.eq_false_iff.2
  intro blank
  have blanks : char = ' ' ∨ char = '\t' ∨ char = '\n' ∨ char = '\r' := by
    simpa [isBlank, or_assoc] using blank
  rcases blanks with rfl | rfl | rfl | rfl <;> cases literal

theorem start?_of_isLiteral {char : Char} (literal : isLiteral char = true) (found : List Token) :
    start? found char = some ⟨found, .literal [char]⟩ := by
  have unquoted : char ≠ '"' := by
    rintro rfl
    cases literal
  simp [start?, isBlank_eq_false_of_isLiteral literal, unquoted, literal]

theorem foldlM_step?_literal {text : List Char} (literal : ∀ char ∈ text, isLiteral char = true)
    (found : List Token) (read : List Char) :
    text.foldlM State.step? ⟨found, .literal read⟩ =
      some ⟨found, .literal (text.reverse ++ read)⟩ := by
  induction text generalizing read with
  | nil => rfl
  | cons char text ih =>
    obtain ⟨first, others⟩ := List.forall_mem_cons.1 literal
    simp [State.step?, first, ih others]

theorem scan_literal {text : List Char} (literal : ∀ char ∈ text, isLiteral char = true)
    (nonempty : text ≠ []) {value : Json} (read : literal? text = some value)
    (found : List Token) {rest : List Char} (ends : ∀ char ∈ rest.head?, isLiteral char = false) :
    scan found (text ++ rest) = scan (.scalar value :: found) rest := by
  cases text with
  | nil => exact absurd rfl nonempty
  | cons char text =>
    obtain ⟨first, others⟩ := List.forall_mem_cons.1 literal
    have gathered : (char :: text).foldlM State.step? ⟨found, .nothing⟩ =
        some ⟨found, .literal (char :: text).reverse⟩ := by
      simp [State.step?, start?_of_isLiteral first, foldlM_step?_literal others]
    unfold scan
    rw [List.foldlM_append, gathered]
    cases rest with
    | nil => simp [State.finish?, read]
    | cons next rest =>
      have ended := ends next rfl
      simp [State.step?, ended, read]

end Polyline.Json.Scanner
