import Mathlib.Data.List.Forall2
import Mathlib.Data.List.MinMax
import Polyline.Proofs.Json.Spelling
import Polyline.Proofs.Json.Whole

/-! Printed values read again. In whatever layout a value is printed, a reader finds it, except that
doubles that are no number come back as null. -/

set_option autoImplicit false

namespace Polyline.Json

open Scanner

/-- A layout adds nothing but blanks. -/
structure Layout.IsBlank (layout : Layout) : Prop where
  gap : ∀ depth, ∀ char ∈ layout.gap depth, isBlank char = true
  afterColon : ∀ char ∈ layout.afterColon, isBlank char = true

theorem isBlank_compact : compact.IsBlank := ⟨nofun, nofun⟩

theorem isBlank_pretty : pretty.IsBlank := by
  refine ⟨?_, List.all_eq_true.1 rfl⟩
  intro depth char member
  rcases List.mem_cons.1 member with rfl | inside
  · rfl
  · rw [List.eq_of_mem_replicate inside]
    rfl

/-! ## What a reader makes of a value -/

/-- A printed value for a reader. -/
def reread : Json → Json
  | .real value => realRead value
  | .array items => .array (items.map reread)
  | .object members => .object (members.map fun member => (member.1, reread member.2))
  | value => value
  termination_by value => sizeOf value
  decreasing_by
    · exact sizeOf_item_lt ‹_›
    · exact sizeOf_member_lt ‹_›

/-- No whole number of a value is beyond the doubles, to which a reader holds all numbers. -/
inductive IsInRange : Json → Prop where
  | null : IsInRange .null
  | bool {value : Bool} : IsInRange (.bool value)
  | integer {value : Int} (finite : (Binary64.ofInt value).isFinite = true) :
      IsInRange (.integer value)
  | real {value : Binary64} : IsInRange (.real value)
  | string {value : String} : IsInRange (.string value)
  | array {items : List Json} (inside : ∀ item ∈ items, IsInRange item) : IsInRange (.array items)
  | object {members : List (String × Json)} (inside : ∀ member ∈ members, IsInRange member.2) :
      IsInRange (.object members)

theorem isScalar_realRead (number : Binary64) : (realRead number).IsScalar :=
  isScalar_of_literal? (literal?_realText number)

theorem depth_reread (value : Json) : value.reread.depth = value.depth := by
  induction value using nested_induction with
  | scalar value scalar =>
    cases value with
    | real number =>
      rw [reread, depth_of_isScalar (isScalar_realRead number), depth_of_isScalar scalar]
    | array items => cases scalar
    | object members => cases scalar
    | _ => rw [reread] <;> nofun
  | array items ih =>
    rw [reread, depth, depth, List.map_map]
    congr 2
    exact List.map_congr_left ih
  | object members ih =>
    rw [reread, depth, depth, List.map_map]
    congr 2
    exact List.map_congr_left ih

theorem depth_array_le {items : List Json} {bound : Nat}
    (inside : ∀ item ∈ items, item.depth ≤ bound) : (Json.array items).depth ≤ bound + 1 := by
  rw [depth]
  exact Nat.succ_le_succ (List.max_le_of_forall_le _ _ (List.forall_mem_map.2 inside))

theorem depth_object_le {members : List (String × Json)} {bound : Nat}
    (inside : ∀ member ∈ members, member.2.depth ≤ bound) :
    (Json.object members).depth ≤ bound + 1 := by
  rw [depth]
  exact Nat.succ_le_succ (List.max_le_of_forall_le _ _ (List.forall_mem_map.2 inside))

/-! ## Spellings in front of spellings -/

/-- A text that spells tokens in front of whatever spells others, unless that is the rest of a
number or word. -/
def SpellsBefore (tokens : List Token) (text : List Char) : Prop :=
  ∀ further rest, (∀ char ∈ rest.head?, isLiteral char = false) → Spells further rest →
    Spells (tokens ++ further) (text ++ rest)

variable {tokens further : List Token} {text : List Char}

theorem Spells.blanks {blanks : List Char} (blank : ∀ char ∈ blanks, isBlank char = true)
    (spelled : Spells tokens text) : Spells tokens (blanks ++ text) := by
  induction blanks with
  | nil => exact spelled
  | cons char blanks ih =>
    obtain ⟨first, others⟩ := List.forall_mem_cons.1 blank
    exact .blank first (ih others)

theorem Spells.stringText (value : String) (spelled : Spells tokens text) :
    Spells (.scalar (.string value) :: tokens) (stringText value ++ text) := by
  have quoted := Spells.string (isBody_flatMap_escape value.toList) spelled
  rw [String.ofList_toList] at quoted
  simpa [Json.stringText] using quoted

theorem isLiteral_eq_false_of_isBlank {char : Char} (blank : isBlank char = true) :
    isLiteral char = false := by
  apply Bool.eq_false_iff.2
  intro literal
  rw [isBlank_eq_false_of_isLiteral literal] at blank
  cases blank

/-- Behind blanks and a bracket, or without blanks, a number or word has ended. -/
theorem isLiteral_head?_append {blanks : List Char} (blank : ∀ char ∈ blanks, isBlank char = true)
    {next : Char} (ended : isLiteral next = false) (rest : List Char) :
    ∀ char ∈ (blanks ++ next :: rest).head?, isLiteral char = false := by
  cases blanks with
  | nil =>
    intro char same
    cases same
    exact ended
  | cons first others =>
    intro char same
    cases same
    exact isLiteral_eq_false_of_isBlank (blank _ List.mem_cons_self)

theorem isLiteral_eq_false_of_punctuation? {char : Char} {token : Token}
    (mark : punctuation? char = some token) : isLiteral char = false := by
  unfold punctuation? at mark
  split at mark <;> first | rfl | cases mark

theorem spellsBefore_literal {value : Json} (nonempty : text ≠ [])
    (literal : ∀ char ∈ text, isLiteral char = true) (read : literal? text = some value) :
    SpellsBefore value.tokens text := by
  rw [tokens_of_isScalar (isScalar_of_literal? read)]
  exact fun _ _ ends spelled => .literal nonempty literal read ends spelled

theorem spellsBefore_member {layout : Layout} (blank : layout.IsBlank) (name : String)
    (value : SpellsBefore tokens text) :
    SpellsBefore (memberTokens name tokens)
      (stringText name ++ ':' :: layout.afterColon ++ text) := by
  intro further rest ends spelled
  have colon : punctuation? ':' = some .colon := rfl
  have behind := (value further rest ends spelled).blanks blank.afterColon
  simpa [memberTokens] using (Spells.punctuation colon behind).stringText name

/-! ## Brackets -/

/-- Parts between brackets, as they are laid out. -/
def bracketed (layout : Layout) (depth : Nat) (opening closing : Char) :
    List (List Char) → List Char
  | [] => [opening, closing]
  | first :: rest =>
    opening :: layout.gap (depth + 1) ++ first ++
      (rest.flatMap fun part => ',' :: layout.gap (depth + 1) ++ part) ++
      layout.gap depth ++ [closing]

theorem restItems_eq_flatMap (layout : Layout) (depth : Nat) (items : List Json) :
    restItems layout depth items =
      (items.map (chars layout depth)).flatMap fun part => ',' :: layout.gap depth ++ part := by
  induction items with
  | nil => rfl
  | cons item items ih => simp [restItems, ih]

def memberChars (layout : Layout) (depth : Nat) (member : String × Json) : List Char :=
  stringText member.1 ++ ':' :: layout.afterColon ++ chars layout depth member.2

theorem restMembers_eq_flatMap (layout : Layout) (depth : Nat) (members : List (String × Json)) :
    restMembers layout depth members =
      (members.map (memberChars layout depth)).flatMap fun part =>
        ',' :: layout.gap depth ++ part := by
  induction members with
  | nil => rfl
  | cons member members ih => simp [restMembers, memberChars, ih]

theorem chars_array (layout : Layout) (depth : Nat) (items : List Json) :
    chars layout depth (.array items) =
      bracketed layout depth '[' ']' (items.map (chars layout (depth + 1))) := by
  cases items with
  | nil => rfl
  | cons first rest => simp [chars, bracketed, restItems_eq_flatMap]

theorem chars_object (layout : Layout) (depth : Nat) (members : List (String × Json)) :
    chars layout depth (.object members) =
      bracketed layout depth '{' '}' (members.map (memberChars layout (depth + 1))) := by
  cases members with
  | nil => rfl
  | cons first rest => simp [chars, bracketed, restMembers_eq_flatMap, memberChars]

/-- Parts behind commas, in front of a bracket. -/
theorem spells_others {gap : List Char} (blank : ∀ char ∈ gap, isBlank char = true)
    {spellings : List (List Token)} {parts : List (List Char)}
    (inside : List.Forall₂ SpellsBefore spellings parts)
    (ends : ∀ char ∈ text.head?, isLiteral char = false) (behind : Spells further text) :
    Spells (spellings.flatMap (.comma :: ·) ++ further)
        ((parts.flatMap fun part => ',' :: gap ++ part) ++ text) ∧
      ∀ char ∈ ((parts.flatMap fun part => ',' :: gap ++ part) ++ text).head?,
        isLiteral char = false := by
  induction inside with
  | nil => exact ⟨behind, ends⟩
  | @cons tokens part spellings parts first _ ih =>
    obtain ⟨spelled, ended⟩ := ih
    constructor
    · have comma : punctuation? ',' = some .comma := rfl
      have next := (first _ _ ended spelled).blanks blank
      simpa using Spells.punctuation comma next
    · intro char same
      cases same
      rfl

theorem spellsBefore_bracketed {layout : Layout} (blank : layout.IsBlank) (depth : Nat)
    {opening closing : Char} {opened closed : Token} (opens : punctuation? opening = some opened)
    (closes : punctuation? closing = some closed) {spellings : List (List Token)}
    {parts : List (List Char)} (inside : List.Forall₂ SpellsBefore spellings parts) :
    SpellsBefore (opened :: (separated spellings ++ [closed]))
      (bracketed layout depth opening closing parts) := by
  intro further rest ends spelled
  have behind := Spells.punctuation closes spelled
  cases inside with
  | nil => exact .punctuation opens behind
  | @cons tokens part spellings parts first others =>
    have last := isLiteral_head?_append (blank.gap depth)
      (isLiteral_eq_false_of_punctuation? closes) rest
    obtain ⟨spelled, ended⟩ :=
      spells_others (blank.gap (depth + 1)) others last (behind.blanks (blank.gap depth))
    have inner := (first _ _ ended spelled).blanks (blank.gap (depth + 1))
    simpa [bracketed, separated] using Spells.punctuation opens inner

/-! ## Values -/

variable {layout : Layout} {value : Json}

theorem spellsBefore_chars (blank : layout.IsBlank) (inRange : value.IsInRange) (depth : Nat) :
    SpellsBefore value.reread.tokens (chars layout depth value) := by
  induction inRange generalizing depth with
  | null =>
    simp only [reread]
    exact spellsBefore_literal (List.cons_ne_nil _ _) (List.all_eq_true.1 rfl) rfl
  | @bool value =>
    simp only [reread]
    cases value <;>
      exact spellsBefore_literal (List.cons_ne_nil _ _) (List.all_eq_true.1 rfl) rfl
  | @integer value finite =>
    simp only [reread]
    exact spellsBefore_literal (integer_ne_nil value) (isLiteral_integer value)
      (literal?_of_number? (number?_integer finite))
  | @real value =>
    simp only [reread]
    exact spellsBefore_literal (realText_ne_nil value) (isLiteral_realText value)
      (literal?_realText value)
  | @string value =>
    have scalar : (Json.string value).IsScalar := trivial
    simp only [reread]
    rw [tokens_of_isScalar scalar]
    exact fun _ _ _ spelled => spelled.stringText value
  | array _ ih =>
    rw [reread, Json.tokens, chars_array, List.map_map]
    refine spellsBefore_bracketed blank depth rfl rfl ?_
    rw [List.forall₂_map_left_iff, List.forall₂_map_right_iff, List.forall₂_same]
    intro item member
    exact ih item member (depth + 1)
  | object _ ih =>
    rw [reread, Json.tokens, chars_object, List.map_map]
    refine spellsBefore_bracketed blank depth rfl rfl ?_
    rw [List.forall₂_map_left_iff, List.forall₂_map_right_iff, List.forall₂_same]
    intro member inside
    exact spellsBefore_member blank member.1 (ih member inside (depth + 1))

/-- A value in any layout, with blanks behind it, is a spelling of what a reader makes of it. -/
theorem isWrittenAs_chars (blank : layout.IsBlank) (inRange : value.IsInRange)
    (shallow : value.depth ≤ maxDepth) {trailing : List Char}
    (blanks : ∀ char ∈ trailing, isBlank char = true) :
    value.reread.IsWrittenAs (String.ofList (chars layout 0 value ++ trailing)) := by
  refine ⟨?_, by rwa [depth_reread]⟩
  have ends : ∀ char ∈ trailing.head?, isLiteral char = false := fun char first =>
    isLiteral_eq_false_of_isBlank (blanks char (List.mem_of_mem_head? first))
  have behind : Spells [] trailing := by
    simpa using Spells.nil.blanks blanks
  have spelled := spellsBefore_chars blank inRange 0 [] trailing ends behind
  rwa [List.append_nil, ← String.toList_ofList (l := chars layout 0 value ++ trailing)] at spelled

theorem read?_chars (blank : layout.IsBlank) (inRange : value.IsInRange)
    (shallow : value.depth ≤ maxDepth) {trailing : List Char}
    (blanks : ∀ char ∈ trailing, isBlank char = true) :
    read? (String.ofList (chars layout 0 value ++ trailing)) = some value.reread :=
  read?_eq_some_iff.2 (isWrittenAs_chars blank inRange shallow blanks)

end Polyline.Json
