import Polyline.Json.Printing
import Polyline.Proofs.Json.Grammar
import Polyline.Proofs.Json.Scanning

/-! Texts and the values they are spellings of. The scanner finds tokens in a text exactly if the
text spells them, and a text is read as a value exactly if it spells the tokens of the value. -/

set_option autoImplicit false

namespace Polyline.Json

open Scanner

/-! ## Spellings of tokens -/

/-- Four hexadecimal digits and their value. -/
structure IsCode (unit : Nat) (digits : List Char) : Prop where
  length : digits.length = 4
  value : codeUnit? digits.reverse = some unit

/-- What a character of a string may look like. -/
inductive IsPart : Char → List Char → Prop where
  | plain {char : Char} (unquoted : char ≠ '"') (unescaped : char ≠ '\\') (printed : ¬ char < ' ') :
      IsPart char [char]
  | short {char mark : Char} (meant : shortEscape? mark = some char) : IsPart char ['\\', mark]
  | code {unit : Nat} {digits : List Char} (code : IsCode unit digits)
      (whole : unit < 0xd800 ∨ 0xe000 ≤ unit) : IsPart (Char.ofNat unit) ('\\' :: 'u' :: digits)
  | pair {first second : Nat} {firstDigits secondDigits : List Char}
      (firstCode : IsCode first firstDigits) (firstHalf : 0xd800 ≤ first ∧ first < 0xdc00)
      (secondCode : IsCode second secondDigits) (secondHalf : 0xdc00 ≤ second ∧ second < 0xe000) :
      IsPart (Char.ofNat (0x10000 + (first - 0xd800) * 0x400 + (second - 0xdc00)))
        ('\\' :: 'u' :: firstDigits ++ '\\' :: 'u' :: secondDigits)

/-- What the characters of a string may look like, one part for each. -/
inductive IsBody : List Char → List Char → Prop where
  | nil : IsBody [] []
  | cons {char : Char} {part meant body : List Char} (first : IsPart char part)
      (rest : IsBody meant body) : IsBody (char :: meant) (part ++ body)

/-- Texts that spell tokens. Numbers and words do not stand directly behind each other. -/
inductive Spells : List Token → List Char → Prop where
  | nil : Spells [] []
  | blank {char : Char} {tokens : List Token} {text : List Char} (blank : isBlank char = true)
      (rest : Spells tokens text) : Spells tokens (char :: text)
  | punctuation {char : Char} {token : Token} {tokens : List Token} {text : List Char}
      (mark : punctuation? char = some token) (rest : Spells tokens text) :
      Spells (token :: tokens) (char :: text)
  | string {meant body : List Char} {tokens : List Token} {text : List Char}
      (spelled : IsBody meant body) (rest : Spells tokens text) :
      Spells (.scalar (.string (String.ofList meant)) :: tokens) ('"' :: body ++ '"' :: text)
  | literal {word : List Char} {value : Json} {tokens : List Token} {text : List Char}
      (nonempty : word ≠ []) (literal : ∀ char ∈ word, isLiteral char = true)
      (read : literal? word = some value) (ends : ∀ char ∈ text.head?, isLiteral char = false)
      (rest : Spells tokens text) : Spells (.scalar value :: tokens) (word ++ text)

theorem isScalar_of_number? {text : List Char} {value : Json} (read : number? text = some value) :
    value.IsScalar := by
  have scalar : ∀ negative rest, magnitude? negative rest = some value → value.IsScalar := by
    intro negative rest read
    simp only [magnitude?, Option.bind_eq_bind, Option.bind_eq_some_iff] at read
    obtain ⟨_, _, _, _, _, _, read⟩ := read
    split at read
    · cases read
    · split at read
      · cases read
        trivial
      · cases read
        trivial
  unfold number? at read
  split at read
  · exact scalar _ _ read
  · exact scalar _ _ read

theorem isScalar_of_literal? {text : List Char} {value : Json}
    (read : literal? text = some value) : value.IsScalar := by
  unfold literal? at read
  split at read
  · cases read
    trivial
  · split at read
    · cases read
      trivial
    · split at read
      · cases read
        trivial
      · exact isScalar_of_number? read

theorem isProper_of_punctuation? {char : Char} {token : Token}
    (mark : punctuation? char = some token) : token.IsProper := by
  unfold punctuation? at mark
  split at mark <;> cases mark <;> trivial

theorem Spells.isProper {tokens : List Token} {text : List Char} (spelled : Spells tokens text) :
    ∀ token ∈ tokens, token.IsProper := by
  induction spelled with
  | nil => exact List.forall_mem_nil _
  | blank _ _ ih => exact ih
  | punctuation mark _ ih => exact List.forall_mem_cons.2 ⟨isProper_of_punctuation? mark, ih⟩
  | string _ _ ih => exact List.forall_mem_cons.2 ⟨trivial, ih⟩
  | literal _ _ read _ _ ih => exact List.forall_mem_cons.2 ⟨isScalar_of_literal? read, ih⟩

/-! ## The scanner on a spelling -/

namespace Scanner

theorem start?_of_punctuation? {char : Char} {token : Token}
    (mark : punctuation? char = some token) (found : List Token) :
    start? found char = some ⟨token :: found, .nothing⟩ := by
  unfold punctuation? at mark
  split at mark <;> cases mark <;> rfl

theorem foldlM_step?_code {unit : Nat} {digits : List Char} (code : IsCode unit digits)
    (found : List Token) (read : List Char) (half : Option Nat) :
    digits.foldlM State.step? ⟨found, .code read half []⟩ =
      (codeEscape? read half unit).map fun pending => ⟨found, pending⟩ := by
  obtain ⟨length, value⟩ := code
  match digits, length with
  | [first, second, third, fourth], _ =>
    change codeUnit? [fourth, third, second, first] = some unit at value
    cases meant : codeEscape? read half unit <;> simp [State.step?, value, meant]

theorem foldlM_step?_part {char : Char} {part : List Char} (spelled : IsPart char part)
    (found : List Token) (read : List Char) :
    part.foldlM State.step? ⟨found, .string read⟩ = some ⟨found, .string (char :: read)⟩ := by
  cases spelled with
  | plain unquoted unescaped printed => simp [State.step?, unquoted, unescaped, printed]
  | @short _ mark meant =>
    have other : mark ≠ 'u' := by
      rintro rfl
      cases meant
    simp [State.step?, other, meant]
  | code code whole =>
    have opened (rest : List Char) :
        ('\\' :: 'u' :: rest).foldlM State.step? ⟨found, .string read⟩ =
          rest.foldlM State.step? ⟨found, .code read none []⟩ := rfl
    rw [opened, foldlM_step?_code code, codeEscape?, if_pos whole]
    rfl
  | @pair first second firstDigits _ firstCode firstHalf secondCode secondHalf =>
    have opened : ('\\' :: 'u' :: firstDigits).foldlM State.step? ⟨found, .string read⟩ =
        firstDigits.foldlM State.step? ⟨found, .code read none []⟩ := rfl
    have halfway : codeEscape? read none first = some (.secondHalf read first) := by
      have half : ¬ (first < 0xd800 ∨ 0xe000 ≤ first) := by omega
      rw [codeEscape?, if_neg half, if_pos firstHalf.2]
    have continued (rest : List Char) :
        ('\\' :: 'u' :: rest).foldlM State.step? ⟨found, .secondHalf read first⟩ =
          rest.foldlM State.step? ⟨found, .code read (some first) []⟩ := rfl
    rw [List.foldlM_append, opened, foldlM_step?_code firstCode, halfway, Option.map_some,
      Option.bind_eq_bind, Option.bind_some, continued, foldlM_step?_code secondCode, codeEscape?,
      if_pos secondHalf]
    rfl

theorem foldlM_step?_body {meant body : List Char} (spelled : IsBody meant body)
    (found : List Token) (read : List Char) :
    body.foldlM State.step? ⟨found, .string read⟩ =
      some ⟨found, .string (meant.reverse ++ read)⟩ := by
  induction spelled generalizing read with
  | nil => rfl
  | cons first _ ih => simp [List.foldlM_append, foldlM_step?_part first, ih]

theorem scan_body {meant body : List Char} (spelled : IsBody meant body) (found : List Token)
    (rest : List Char) :
    scan found ('"' :: body ++ '"' :: rest) =
      scan (.scalar (.string (String.ofList meant)) :: found) rest := by
  have opened : State.step? ⟨found, .nothing⟩ '"' = some ⟨found, .string []⟩ := rfl
  have closed (read : List Char) : State.step? ⟨found, .string read⟩ '"' =
      some ⟨.scalar (.string (String.ofList read.reverse)) :: found, .nothing⟩ := rfl
  simp [scan, List.foldlM_append, opened, closed, foldlM_step?_body spelled]

theorem hexValue?_digitChar : ∀ digit < 16, hexValue? (Nat.digitChar digit) = some digit := by
  decide

theorem isPart_code_of_lt {char : Char} (control : char < ' ') :
    IsPart char ['\\', 'u', '0', '0', Nat.digitChar (char.toNat / 16),
      Nat.digitChar (char.toNat % 16)] := by
  have small : char.toNat < 32 := control
  have high := hexValue?_digitChar (char.toNat / 16) (by omega)
  have low := hexValue?_digitChar (char.toNat % 16) (by omega)
  have zero : hexValue? '0' = some 0 := rfl
  have sum : 16 * (char.toNat / 16) + char.toNat % 16 = char.toNat := Nat.div_add_mod _ _
  have value : codeUnit? ['0', '0', Nat.digitChar (char.toNat / 16),
      Nat.digitChar (char.toNat % 16)].reverse = some char.toNat := by
    simp [codeUnit?, high, low, zero, sum]
  have part := IsPart.code ⟨rfl, value⟩ (.inl (by omega))
  rwa [Char.ofNat_toNat] at part

theorem isPart_escape (char : Char) : IsPart char (escape char) := by
  unfold escape
  iterate 7
    split
    next equal =>
      subst equal
      exact .short rfl
  split
  next control => exact isPart_code_of_lt control
  next unquoted unescaped _ _ _ _ _ printed => exact .plain unquoted unescaped printed

theorem isBody_flatMap_escape (text : List Char) : IsBody text (text.flatMap escape) := by
  induction text with
  | nil => exact .nil
  | cons char text ih => exact .cons (isPart_escape char) ih

theorem scan_of_spells {tokens : List Token} {text : List Char} (spelled : Spells tokens text)
    (found : List Token) : scan found text = some (found.reverse ++ tokens) := by
  induction spelled generalizing found with
  | nil => simp
  | blank blank _ ih =>
    have skipped := scan_blanks (List.forall_mem_singleton.2 blank) found
    exact (skipped _).trans (ih found)
  | punctuation mark _ ih =>
    rw [scan_cons (start?_of_punctuation? mark found), ih]
    simp
  | string spelled _ ih =>
    rw [scan_body spelled, ih]
    simp
  | literal nonempty literal read ends _ ih =>
    rw [scan_literal literal nonempty read found ends, ih]
    simp

/-! ## The spelling behind a scan -/

/-- The rest of a text, behind the tokens that were found in front of it. -/
def Behind (found : List Token) (text : List Char) (tokens : List Token) : Prop :=
  ∃ rest, Spells rest text ∧ tokens = found.reverse ++ rest

/-- The rest of a text from within a string on. -/
def BehindString (found : List Token) (read text : List Char) (tokens : List Token) : Prop :=
  ∃ meant body rest, IsBody meant body ∧ text = body ++ '"' :: rest ∧
    Behind (.scalar (.string (String.ofList (read.reverse ++ meant))) :: found) rest tokens

/-- The rest of a text from within a character of a string on. -/
def BehindPart (found : List Token) (read front text : List Char) (tokens : List Token) : Prop :=
  ∃ char back rest, IsPart char (front ++ back) ∧ text = back ++ rest ∧
    BehindString found (char :: read) rest tokens

/-- The rest of a text from within a number or word on. -/
def BehindLiteral (found : List Token) (read text : List Char) (tokens : List Token) : Prop :=
  ∃ word rest value, (∀ char ∈ word, isLiteral char = true) ∧ text = word ++ rest ∧
    (∀ char ∈ rest.head?, isLiteral char = false) ∧
    literal? (read.reverse ++ word) = some value ∧ Behind (.scalar value :: found) rest tokens

/-- What stands in front of a code: nothing, or the first half of a surrogate pair. -/
inductive IsFirstHalf : Option Nat → List Char → Prop where
  | none : IsFirstHalf none []
  | code {unit : Nat} {digits : List Char} (code : IsCode unit digits)
      (half : 0xd800 ≤ unit ∧ unit < 0xdc00) : IsFirstHalf (some unit) ('\\' :: 'u' :: digits)

/-- The rest of a text, from a state of the scanner on. A state holds the value of a first half and
not its digits, which may be any that have this value. -/
def State.Completes : State → List Char → List Token → Prop
  | ⟨found, .nothing⟩, text, tokens => Behind found text tokens
  | ⟨found, .literal read⟩, text, tokens => BehindLiteral found read text tokens
  | ⟨found, .string read⟩, text, tokens => BehindString found read text tokens
  | ⟨found, .escape read⟩, text, tokens => BehindPart found read ['\\'] text tokens
  | ⟨found, .code read half digits⟩, text, tokens =>
    digits.length < 4 → ∀ front, IsFirstHalf half front →
      BehindPart found read (front ++ '\\' :: 'u' :: digits.reverse) text tokens
  | ⟨found, .secondHalf read half⟩, text, tokens =>
    ∀ front, IsFirstHalf (some half) front → BehindPart found read front text tokens
  | ⟨found, .secondHalfMark read half⟩, text, tokens =>
    ∀ front, IsFirstHalf (some half) front → BehindPart found read (front ++ ['\\']) text tokens

theorem BehindPart.cons {found : List Token} {read front text : List Char} {char : Char}
    {tokens : List Token} (behind : BehindPart found read (front ++ [char]) text tokens) :
    BehindPart found read front (char :: text) tokens := by
  obtain ⟨meant, back, rest, spelled, rfl, behind⟩ := behind
  refine ⟨meant, char :: back, rest, ?_, rfl, behind⟩
  rwa [List.append_assoc] at spelled

theorem BehindPart.behindString {found : List Token} {read front text : List Char}
    {tokens : List Token} (behind : BehindPart found read front text tokens) :
    BehindString found read (front ++ text) tokens := by
  obtain ⟨char, back, rest, first, rfl, meant, body, rest, spelled, rfl, behind⟩ := behind
  refine ⟨char :: meant, front ++ back ++ body, rest, .cons first spelled, by simp, ?_⟩
  simpa using behind

theorem BehindString.behindPart {found : List Token} {read front text : List Char} {char : Char}
    {tokens : List Token} (spelled : IsPart char front)
    (behind : BehindString found (char :: read) text tokens) :
    BehindPart found read front text tokens := by
  refine ⟨char, [], text, ?_, rfl, behind⟩
  rwa [List.append_nil]

theorem completes_start? {found : List Token} {state : State} {char : Char} {text : List Char}
    {tokens : List Token} (taken : start? found char = some state)
    (rest : state.Completes text tokens) : Behind found (char :: text) tokens := by
  unfold start? at taken
  split at taken
  next blank =>
    cases taken
    obtain ⟨rest, spelled, rfl⟩ := rest
    exact ⟨rest, .blank blank spelled, rfl⟩
  next =>
  split at taken
  next quote =>
    cases taken
    subst quote
    obtain ⟨meant, body, rest, string, rfl, rest, spelled, rfl⟩ := rest
    exact ⟨_, .string string spelled, by simp⟩
  next =>
  split at taken
  next literal =>
    cases taken
    obtain ⟨word, rest, value, literals, rfl, ends, read, rest, spelled, rfl⟩ := rest
    refine ⟨_, .literal (List.cons_ne_nil char word) ?_ read ends spelled, by simp⟩
    exact List.forall_mem_cons.2 ⟨literal, literals⟩
  next =>
    obtain ⟨token, mark, rfl⟩ := Option.map_eq_some_iff.1 taken
    obtain ⟨rest, spelled, rfl⟩ := rest
    exact ⟨_, .punctuation mark spelled, by simp⟩

/-- The fourth digit of a code makes a character of it, or the first half of one. -/
theorem behindPart_codeEscape? {found : List Token} {read text digits : List Char}
    {half : Option Nat} {unit : Nat} {pending : Pending} {tokens : List Token}
    (code : IsCode unit digits) (meant : codeEscape? read half unit = some pending)
    (rest : State.Completes ⟨found, pending⟩ text tokens) {front : List Char}
    (first : IsFirstHalf half front) :
    BehindPart found read (front ++ '\\' :: 'u' :: digits) text tokens := by
  cases first with
  | none =>
    simp only [codeEscape?] at meant
    split at meant
    next whole =>
      cases meant
      exact BehindString.behindPart (.code code whole) rest
    next halved =>
      obtain ⟨below, equal⟩ := Option.ite_none_right_eq_some.1 meant
      cases equal
      exact rest _ (.code code ⟨Nat.le_of_not_lt fun under => halved (.inl under), below⟩)
  | code firstCode firstHalf =>
    obtain ⟨secondHalf, equal⟩ := Option.ite_none_right_eq_some.1 meant
    cases equal
    exact BehindString.behindPart (.pair firstCode firstHalf code secondHalf) rest

theorem completes_step? {state next : State} {char : Char} {text : List Char}
    {tokens : List Token} (taken : state.step? char = some next)
    (rest : next.Completes text tokens) : state.Completes (char :: text) tokens := by
  obtain ⟨found, pending⟩ := state
  cases pending with
  | nothing => exact completes_start? taken rest
  | literal read =>
    simp only [State.step?] at taken
    split at taken
    next literal =>
      cases taken
      obtain ⟨word, rest, value, literals, rfl, ends, whole, behind⟩ := rest
      refine ⟨char :: word, rest, value, List.forall_mem_cons.2 ⟨literal, literals⟩, rfl, ends, ?_,
        behind⟩
      simpa using whole
    next other =>
      obtain ⟨value, whole, taken⟩ := Option.bind_eq_some_iff.1 taken
      have ends : ∀ first ∈ (char :: text).head?, isLiteral first = false := by
        intro first same
        cases same
        exact Bool.eq_false_iff.2 other
      exact ⟨[], char :: text, value, List.forall_mem_nil _, rfl, ends, by simpa using whole,
        completes_start? taken rest⟩
  | string read =>
    simp only [State.step?] at taken
    split at taken
    next quote =>
      cases taken
      subst quote
      refine ⟨[], [], text, .nil, rfl, ?_⟩
      rwa [List.append_nil]
    next unquoted =>
    split at taken
    next backslash =>
      cases taken
      subst backslash
      exact BehindPart.behindString rest
    next unescaped =>
    split at taken
    next => cases taken
    next printed =>
      cases taken
      exact (BehindString.behindPart (.plain unquoted unescaped printed) rest).behindString
  | escape read =>
    simp only [State.step?] at taken
    split at taken
    next code =>
      cases taken
      subst code
      exact (rest (by decide) [] .none).cons
    next =>
      obtain ⟨meant, short, rfl⟩ := Option.map_eq_some_iff.1 taken
      exact (BehindString.behindPart (.short short) rest).cons
  | code read half digits =>
    intro short front first
    apply BehindPart.cons
    rw [List.append_assoc, List.cons_append, List.cons_append, ← List.reverse_cons]
    simp only [State.step?] at taken
    split at taken
    next few =>
      cases taken
      exact rest (Nat.succ_lt_succ few) front first
    next enough =>
      obtain ⟨unit, value, taken⟩ := Option.bind_eq_some_iff.1 taken
      obtain ⟨pending, meant, same⟩ := Option.bind_eq_some_iff.1 taken
      cases same
      have complete : (char :: digits).length = 4 := by
        simp only [List.length_cons]
        omega
      have code : IsCode unit (char :: digits).reverse :=
        ⟨by rwa [List.length_reverse], by rwa [List.reverse_reverse]⟩
      exact behindPart_codeEscape? code meant rest first
  | secondHalf read half =>
    obtain ⟨backslash, equal⟩ := Option.ite_none_right_eq_some.1 taken
    cases equal
    subst backslash
    intro front first
    exact (rest front first).cons
  | secondHalfMark read half =>
    obtain ⟨mark, equal⟩ := Option.ite_none_right_eq_some.1 taken
    cases equal
    subst mark
    intro front first
    apply BehindPart.cons
    rw [List.append_assoc]
    exact rest (by decide) front first

theorem completes_of_foldlM {text : List Char} {state final : State} {tokens : List Token}
    (ran : text.foldlM State.step? state = some final) (finished : final.finish? = some tokens) :
    state.Completes text tokens := by
  induction text generalizing state with
  | nil =>
    cases ran
    obtain ⟨found, pending⟩ := final
    cases pending with
    | nothing =>
      cases finished
      exact ⟨[], .nil, by simp⟩
    | literal read =>
      obtain ⟨value, whole, same⟩ := Option.bind_eq_some_iff.1 finished
      cases same
      exact ⟨[], [], value, List.forall_mem_nil _, rfl, by simp, by simpa using whole, [], .nil,
        by simp⟩
    | _ => cases finished
  | cons char text ih =>
    rw [List.foldlM_cons, Option.bind_eq_bind, Option.bind_eq_some_iff] at ran
    obtain ⟨next, taken, ran⟩ := ran
    exact completes_step? taken (ih ran)

end Scanner

/-! ## Reading -/

theorem tokens?_eq_some_iff {text : List Char} {tokens : List Token} :
    tokens? text = some tokens ↔ Spells tokens text := by
  constructor
  · intro scanned
    obtain ⟨final, ran, finished⟩ := Option.bind_eq_some_iff.1 scanned
    obtain ⟨rest, spelled, same⟩ := completes_of_foldlM ran finished
    cases same
    exact spelled
  · intro spelled
    exact scan_of_spells spelled []

/-- A text is a spelling of a value: it spells the tokens of the value, and no more arrays and
objects are open at a time than there may be. -/
def IsWrittenAs (value : Json) (text : String) : Prop :=
  Spells value.tokens text.toList ∧ value.depth ≤ maxDepth

theorem read?_eq_some_iff {text : String} {value : Json} :
    read? text = some value ↔ value.IsWrittenAs text := by
  have finished (final : Expectation) : final.result? = some value ↔ final = .nothing value := by
    cases final <;> simp [Expectation.result?]
  simp only [read?, Option.bind_eq_bind, Option.bind_eq_some_iff, tokens?_eq_some_iff, finished,
    exists_eq_right]
  constructor
  · rintro ⟨tokens, spelled, ran⟩
    obtain ⟨rfl, shallow⟩ := (Expectation.foldlM_eq_nothing_iff spelled.isProper value).1 ran
    exact ⟨spelled, shallow⟩
  · rintro ⟨spelled, shallow⟩
    exact ⟨value.tokens, spelled,
      (Expectation.foldlM_eq_nothing_iff spelled.isProper value).2 ⟨rfl, shallow⟩⟩

end Polyline.Json
