import Mathlib.Data.List.Basic
import Polyline.Json.Reading

/-! The tokens of a value, and the reader on them. A value has one sequence of tokens, and the reader
comes out with that value from this sequence and from no other one, unless too many arrays and
objects are open at a time. -/

set_option autoImplicit false

namespace Polyline.Json

/-! ## Values and their tokens -/

/-- A value that is written as one token. -/
def IsScalar : Json → Prop
  | .array _ | .object _ => False
  | .null | .bool _ | .integer _ | .real _ | .string _ => True

theorem sizeOf_item_lt {item : Json} {items : List Json} (member : item ∈ items) :
    sizeOf item < sizeOf (Json.array items) := by
  have smaller := List.sizeOf_lt_of_mem member
  simp only [array.sizeOf_spec]
  omega

theorem sizeOf_member_lt {member : String × Json} {members : List (String × Json)}
    (inside : member ∈ members) : sizeOf member.2 < sizeOf (Json.object members) := by
  have smaller := List.sizeOf_lt_of_mem inside
  obtain ⟨name, value⟩ := member
  simp only [object.sizeOf_spec, Prod.mk.sizeOf_spec] at smaller ⊢
  omega

/-- Every value is reached from the values inside it. -/
theorem nested_induction {motive : Json → Prop}
    (scalar : ∀ value : Json, value.IsScalar → motive value)
    (array : ∀ items, (∀ item ∈ items, motive item) → motive (.array items))
    (object : ∀ members : List (String × Json), (∀ member ∈ members, motive member.2) →
      motive (.object members))
    (value : Json) : motive value :=
  match value with
  | .array items => array items fun item _ => nested_induction scalar array object item
  | .object members =>
    object members fun member _ => nested_induction scalar array object member.2
  | .null => scalar .null trivial
  | .bool value => scalar (.bool value) trivial
  | .integer value => scalar (.integer value) trivial
  | .real value => scalar (.real value) trivial
  | .string value => scalar (.string value) trivial
  termination_by sizeOf value
  decreasing_by
    · exact sizeOf_item_lt ‹_›
    · exact sizeOf_member_lt ‹_›

/-- The most arrays and objects of a value that are open at a time. -/
def depth : Json → Nat
  | .array items => (items.map depth).foldr max 0 + 1
  | .object members => (members.map fun member => depth member.2).foldr max 0 + 1
  | _ => 0
  termination_by value => sizeOf value
  decreasing_by
    · exact sizeOf_item_lt ‹_›
    · exact sizeOf_member_lt ‹_›

/-- Parts with a comma between each two of them. -/
def separated : List (List Token) → List Token
  | [] => []
  | first :: rest => first ++ rest.flatMap (.comma :: ·)

def memberTokens (name : String) (tokens : List Token) : List Token :=
  .scalar (.string name) :: .colon :: tokens

def tokens : Json → List Token
  | .array items => .openArray :: (separated (items.map tokens) ++ [.closeArray])
  | .object members =>
    .openObject ::
      (separated (members.map fun member => memberTokens member.1 (tokens member.2)) ++
        [.closeObject])
  | value => [.scalar value]
  termination_by value => sizeOf value
  decreasing_by
    · exact sizeOf_item_lt ‹_›
    · exact sizeOf_member_lt ‹_›

theorem tokens_of_isScalar {value : Json} (scalar : value.IsScalar) :
    value.tokens = [.scalar value] := by
  cases value with
  | array | object => cases scalar
  | _ => rw [tokens] <;> nofun

theorem depth_of_isScalar {value : Json} (scalar : value.IsScalar) : value.depth = 0 := by
  cases value with
  | array | object => cases scalar
  | _ => rw [depth] <;> nofun

/-- What is open inside a bracket, counted with what is open around it. -/
theorem foldr_max_add_le_iff {depths : List Nat} {levels : Nat} :
    depths.foldr max 0 + 1 + levels ≤ maxDepth ↔
      levels < maxDepth ∧ ∀ depth ∈ depths, depth + (levels + 1) ≤ maxDepth := by
  induction depths with
  | nil =>
    simp only [List.foldr_nil, List.not_mem_nil, false_implies, implies_true, and_true]
    omega
  | cons first depths ih =>
    rw [List.foldr_cons, List.forall_mem_cons, ← and_left_comm, ← ih]
    omega

/-! ## The reader on the tokens of a value -/

namespace Expectation

theorem foldlM_append_eq_some {state final : Expectation} {first rest : List Token} :
    (first ++ rest).foldlM step? state = some final ↔
      ∃ middle, first.foldlM step? state = some middle ∧
        rest.foldlM step? middle = some final := by
  rw [List.foldlM_append, Option.bind_eq_bind, Option.bind_eq_some_iff]

/-- Parts behind commas, each of which the reader takes up into what it has. -/
theorem foldlM_flatMap_comma {α : Type} {parts : α → List Token} {fits : α → Prop}
    {state : List α → Expectation} {items : List α}
    (taken : ∀ item ∈ items, ∀ done final,
      (.comma :: parts item).foldlM step? (state done) = some final ↔
        fits item ∧ state (item :: done) = final)
    (done : List α) (final : Expectation) :
    (items.flatMap fun item => .comma :: parts item).foldlM step? (state done) = some final ↔
      (∀ item ∈ items, fits item) ∧ state (items.reverse ++ done) = final := by
  induction items generalizing done with
  | nil => simp
  | cons item items ih =>
    obtain ⟨first, others⟩ := List.forall_mem_cons.1 taken
    have further (done : List α) := ih others done
    rw [List.flatMap_cons, foldlM_append_eq_some, List.forall_mem_cons, List.reverse_cons,
      List.append_assoc, and_assoc]
    constructor
    · rintro ⟨middle, ran, rest⟩
      obtain ⟨fitting, rfl⟩ := (first done middle).1 ran
      exact ⟨fitting, (further _).1 rest⟩
    · rintro ⟨fitting, rest⟩
      exact ⟨_, (first done _).2 ⟨fitting, rfl⟩, (further _).2 rest⟩

/-- Parts between brackets, with a comma between each two of them. -/
theorem foldlM_separated {α : Type} {parts : α → List Token} {fits : α → Prop}
    {start : Expectation} {closing : Token} {items : List α}
    (state closed : List α → Expectation)
    (continues : ∀ item ∈ items, ∀ done final,
      (.comma :: parts item).foldlM step? (state done) = some final ↔
        fits item ∧ state (item :: done) = final)
    (begins : ∀ item ∈ items, ∀ final, (parts item).foldlM step? start = some final ↔
      fits item ∧ state [item] = final)
    (closes : ∀ done, step? (state done) closing = some (closed done.reverse))
    (closesEmpty : step? start closing = some (closed [])) (final : Expectation) :
    (separated (items.map parts) ++ [closing]).foldlM step? start = some final ↔
      (∀ item ∈ items, fits item) ∧ closed items = final := by
  cases items with
  | nil => simp [separated, closesEmpty]
  | cons first rest =>
    have begun := begins first List.mem_cons_self
    have continued := foldlM_flatMap_comma (List.forall_mem_cons.1 continues).2 [first]
    have spelled : separated ((first :: rest).map parts) ++ [closing] =
        parts first ++ ((rest.flatMap fun item => .comma :: parts item) ++ [closing]) := by
      simp [separated, List.flatMap_map]
    have ended : [closing].foldlM step? (state (rest.reverse ++ [first])) =
        some (closed (first :: rest)) := by
      simp [closes]
    rw [spelled, foldlM_append_eq_some, List.forall_mem_cons, and_assoc]
    constructor
    · rintro ⟨middle, ran, others⟩
      obtain ⟨fitting, rfl⟩ := (begun middle).1 ran
      obtain ⟨last, ran, closing⟩ := foldlM_append_eq_some.1 others
      obtain ⟨allFitting, rfl⟩ := (continued last).1 ran
      exact ⟨fitting, allFitting, Option.some.inj (ended.symm.trans closing)⟩
    · rintro ⟨fitting, allFitting, rfl⟩
      refine ⟨_, (begun _).2 ⟨fitting, rfl⟩, ?_⟩
      exact foldlM_append_eq_some.2 ⟨_, (continued _).2 ⟨allFitting, rfl⟩, ended⟩

/-- Behind an opening bracket a value is read as it is anywhere else. -/
theorem foldlM_tokens_firstItem (value : Json) (stack : List Frame) :
    value.tokens.foldlM step? (.firstItem stack) =
      value.tokens.foldlM step? (.value (.array [] :: stack)) := by
  induction value using nested_induction with
  | scalar value scalar =>
    rw [tokens_of_isScalar scalar]
    rfl
  | array items _ =>
    rw [tokens]
    rfl
  | object members _ =>
    rw [tokens]
    rfl

/-- The reader takes up a value from its tokens if there is room for what is open in it. -/
theorem foldlM_tokens_eq_some_iff (value : Json) (stack : List Frame)
    (within : stack.length ≤ maxDepth) (final : Expectation) :
    value.tokens.foldlM step? (.value stack) = some final ↔
      value.depth + stack.length ≤ maxDepth ∧ after value stack = final := by
  induction value using nested_induction generalizing stack final with
  | scalar value scalar =>
    rw [tokens_of_isScalar scalar, depth_of_isScalar scalar, Nat.zero_add]
    change some (after value stack) = some final ↔ _
    simp [within]
  | array items ih =>
    rw [tokens, depth, foldr_max_add_le_iff, List.foldlM_cons, List.forall_mem_map]
    by_cases room : stack.length < maxDepth
    · have opened : step? (.value stack) .openArray = some (.firstItem stack) := if_pos room
      have begins : ∀ item ∈ items, ∀ final,
          item.tokens.foldlM step? (.firstItem stack) = some final ↔
            item.depth + (stack.length + 1) ≤ maxDepth ∧ .afterItem [item] stack = final := by
        intro item member final
        rw [foldlM_tokens_firstItem]
        exact ih item member (.array [] :: stack) room final
      have continues : ∀ item ∈ items, ∀ done final,
          (.comma :: item.tokens).foldlM step? (.afterItem done stack) = some final ↔
            item.depth + (stack.length + 1) ≤ maxDepth ∧ .afterItem (item :: done) stack = final :=
        fun item member done final => ih item member (.array done :: stack) room final
      rw [opened, Option.bind_eq_bind, Option.bind_some, and_iff_right room]
      exact foldlM_separated (fun done => .afterItem done stack)
        (fun items => after (.array items) stack) continues begins (fun _ => rfl) rfl final
    · have refused : step? (.value stack) .openArray = none := if_neg room
      rw [refused]
      simp [room]
  | object members ih =>
    rw [tokens, depth, foldr_max_add_le_iff, List.foldlM_cons, List.forall_mem_map]
    by_cases room : stack.length < maxDepth
    · have opened : step? (.value stack) .openObject = some (.firstMember stack) := if_pos room
      have begins : ∀ member ∈ members, ∀ final,
          (memberTokens member.1 member.2.tokens).foldlM step? (.firstMember stack) = some final ↔
            member.2.depth + (stack.length + 1) ≤ maxDepth ∧ .afterMember [member] stack = final :=
        fun member inside final => ih member inside (.object [] member.1 :: stack) room final
      have continues : ∀ member ∈ members, ∀ done final,
          (.comma :: memberTokens member.1 member.2.tokens).foldlM step? (.afterMember done stack) =
              some final ↔
            member.2.depth + (stack.length + 1) ≤ maxDepth ∧
              .afterMember (member :: done) stack = final :=
        fun member inside done final =>
          ih member inside (.object done member.1 :: stack) room final
      rw [opened, Option.bind_eq_bind, Option.bind_some, and_iff_right room]
      exact foldlM_separated (fun done => .afterMember done stack)
        (fun members => after (.object members) stack) continues begins (fun _ => rfl) rfl final
    · have refused : step? (.value stack) .openObject = none := if_neg room
      rw [refused]
      simp [room]

end Expectation

/-! ## The tokens behind a state of the reader -/

/-- Parts with a comma behind each of them. -/
def ended (parts : List (List Token)) : List Token := parts.flatMap (· ++ [.comma])

theorem separated_concat (parts : List (List Token)) (last : List Token) :
    separated (parts ++ [last]) = ended parts ++ last := by
  cases parts with
  | nil => simp [separated, ended]
  | cons first parts =>
    induction parts generalizing first with
    | nil => simp [separated, ended]
    | cons second parts ih => simpa [separated, ended] using ih second

theorem ended_of_ne_nil {parts : List (List Token)} (nonempty : parts ≠ []) :
    ended parts = separated parts ++ [.comma] := by
  rw [← List.dropLast_append_getLast nonempty, separated_concat]
  simp [ended]

def itemParts (items : List Json) : List (List Token) := items.reverse.map tokens

def memberParts (members : List (String × Json)) : List (List Token) :=
  members.reverse.map fun member => memberTokens member.1 member.2.tokens

def Frame.tokens : Frame → List Token
  | .array items => .openArray :: ended (itemParts items)
  | .object members key =>
    .openObject :: (ended (memberParts members) ++ [.scalar (.string key), .colon])

/-- Frames are held with the innermost one first. -/
def stackTokens (stack : List Frame) : List Token := stack.reverse.flatMap Frame.tokens

theorem stackTokens_cons (frame : Frame) (stack : List Frame) :
    stackTokens (frame :: stack) = stackTokens stack ++ frame.tokens := by
  simp [stackTokens]

namespace Expectation

/-- The tokens that lead to a state. There is one list of them for each. -/
def tokens : Expectation → List Token
  | .value stack => stackTokens stack
  | .firstItem stack => stackTokens stack ++ [.openArray]
  | .afterItem items stack => stackTokens stack ++ .openArray :: separated (itemParts items)
  | .firstMember stack => stackTokens stack ++ [.openObject]
  | .name members stack => stackTokens stack ++ .openObject :: ended (memberParts members)
  | .colon members key stack =>
    stackTokens stack ++ .openObject :: (ended (memberParts members) ++ [.scalar (.string key)])
  | .afterMember members stack =>
    stackTokens stack ++ .openObject :: separated (memberParts members)
  | .nothing read => read.tokens

/-- Behind an item or a member there is one. -/
def IsBegun : Expectation → Prop
  | .afterItem items _ => items ≠ []
  | .afterMember members _ => members ≠ []
  | _ => True

theorem isBegun_after (value : Json) (stack : List Frame) : (after value stack).IsBegun := by
  cases stack with
  | nil => trivial
  | cons frame stack => cases frame <;> exact List.cons_ne_nil _ _

theorem tokens_after (value : Json) (stack : List Frame) :
    (after value stack).tokens = stackTokens stack ++ value.tokens := by
  cases stack with
  | nil => simp [after, tokens, stackTokens]
  | cons frame stack =>
    cases frame with
    | array items =>
      simp [after, tokens, stackTokens_cons, Frame.tokens, itemParts, separated_concat]
    | object members key =>
      simp [after, tokens, stackTokens_cons, Frame.tokens, memberParts, separated_concat,
        memberTokens]

end Expectation

/-- A token holds a value only if the value is written as one token. -/
def Token.IsProper : Token → Prop
  | .scalar value => value.IsScalar
  | _ => True

namespace Expectation

theorem tokens_begin? {stack : List Frame} {token : Token} {next : Expectation}
    (proper : token.IsProper) (taken : begin? stack token = some next) :
    next.tokens = stackTokens stack ++ [token] ∧ next.IsBegun := by
  cases token with
  | scalar value =>
    cases taken
    exact ⟨by rw [tokens_after, tokens_of_isScalar proper], isBegun_after value stack⟩
  | openArray =>
    obtain ⟨_, equal⟩ := Option.ite_none_right_eq_some.1 taken
    cases equal
    exact ⟨rfl, trivial⟩
  | openObject =>
    obtain ⟨_, equal⟩ := Option.ite_none_right_eq_some.1 taken
    cases equal
    exact ⟨rfl, trivial⟩
  | _ => cases taken

theorem tokens_step? {state next : Expectation} {token : Token} (begun : state.IsBegun)
    (proper : token.IsProper) (taken : state.step? token = some next) :
    next.tokens = state.tokens ++ [token] ∧ next.IsBegun := by
  unfold step? at taken
  split at taken
  next => exact tokens_begin? proper taken
  next stack =>
    cases taken
    refine ⟨?_, isBegun_after _ _⟩
    rw [tokens_after, Json.tokens]
    simp [tokens, separated]
  next stack _ =>
    obtain ⟨spelled, begun⟩ := tokens_begin? proper taken
    refine ⟨?_, begun⟩
    rw [spelled, stackTokens_cons]
    rfl
  next items stack =>
    -- A comma ends the last item, so there has to be one.
    cases taken
    have nonempty : itemParts items ≠ [] := by simpa [itemParts, IsBegun] using begun
    refine ⟨?_, trivial⟩
    simp [tokens, stackTokens_cons, Frame.tokens, ended_of_ne_nil nonempty]
  next items stack =>
    cases taken
    refine ⟨?_, isBegun_after _ _⟩
    rw [tokens_after, Json.tokens]
    simp [tokens, itemParts]
  next stack =>
    cases taken
    refine ⟨?_, isBegun_after _ _⟩
    rw [tokens_after, Json.tokens]
    simp [tokens, separated]
  next key stack =>
    cases taken
    exact ⟨by simp [tokens, ended, memberParts], trivial⟩
  next members stack key =>
    cases taken
    exact ⟨by simp [tokens], trivial⟩
  next members key stack =>
    cases taken
    exact ⟨by simp [tokens, stackTokens_cons, Frame.tokens], trivial⟩
  next members stack =>
    cases taken
    have nonempty : memberParts members ≠ [] := by simpa [memberParts, IsBegun] using begun
    refine ⟨?_, trivial⟩
    simp [tokens, ended_of_ne_nil nonempty]
  next members stack =>
    cases taken
    refine ⟨?_, isBegun_after _ _⟩
    rw [tokens_after, Json.tokens]
    simp [tokens, memberParts]
  next => cases taken

/-- What was read is all there was to read, whatever the reader makes of it. -/
theorem tokens_foldlM {tokens : List Token} (proper : ∀ token ∈ tokens, token.IsProper)
    {state final : Expectation} (begun : state.IsBegun)
    (ran : tokens.foldlM step? state = some final) :
    final.tokens = state.tokens ++ tokens := by
  induction tokens generalizing state with
  | nil =>
    cases ran
    exact (List.append_nil _).symm
  | cons token tokens ih =>
    obtain ⟨first, others⟩ := List.forall_mem_cons.1 proper
    rw [List.foldlM_cons, Option.bind_eq_bind, Option.bind_eq_some_iff] at ran
    obtain ⟨middle, taken, ran⟩ := ran
    obtain ⟨spelled, begun⟩ := tokens_step? begun first taken
    rw [ih others begun ran, spelled, List.append_assoc, List.singleton_append]

/-- The reader comes out with a value behind its tokens and behind no others. -/
theorem foldlM_eq_nothing_iff {tokens : List Token} (proper : ∀ token ∈ tokens, token.IsProper)
    (value : Json) :
    tokens.foldlM step? (.value []) = some (.nothing value) ↔
      tokens = value.tokens ∧ value.depth ≤ maxDepth := by
  have reads := foldlM_tokens_eq_some_iff value [] (Nat.zero_le _) (.nothing value)
  constructor
  · intro ran
    have begun : IsBegun (.value []) := trivial
    obtain rfl : value.tokens = tokens := tokens_foldlM proper begun ran
    exact ⟨rfl, (reads.1 ran).1⟩
  · rintro ⟨rfl, shallow⟩
    exact reads.2 ⟨shallow, rfl⟩

end Expectation

end Polyline.Json
