import Polyline.CommandLine
import Polyline.Proofs.Text.Words

/-! Every encoding and decoding can be asked for. On a plain line the path stands behind the name
of the command, and the options behind it with their values. Options with their values attached, the
end of the options and the path behind it spell a command even if the path or a value looks like an
option. -/

set_option autoImplicit false

namespace Polyline

theorem Precision.digits_lt (precision : Precision) : precision.digits < 256 :=
  Nat.lt_of_le_of_lt precision.digits_le (by decide)

namespace CommandLine

/-! ## Plain lines -/

/-- An option that is given with a value, or not at all. -/
def chosen {α : Type} (name : String) (spell : α → String) (value : Option α) :
    List (String × Option String) :=
  value.toList.map fun value => (name, some (spell value))

/-- The words of options with their values behind them. -/
def spaced (options : List (String × Option String)) : List String :=
  options.flatMap fun option => ("--" ++ option.1) :: option.2.toList

def formatWord : SampleFormat → String
  | .varint5 => "varint5"
  | .varint7 => "varint7"

def outputWord : PointOutput → String
  | .json => "json"
  | .table => "pretty"

def codecOptions (format : Option SampleFormat) (digits : Option Nat) :
    List (String × Option String) :=
  chosen "format" formatWord format ++ chosen "digits" toString digits

def encodeOptions (format : Option SampleFormat) (digits : Option Nat) (target : Option String) :
    List (String × Option String) :=
  codecOptions format digits ++ chosen "out" id target

def decodeOptions (format : Option SampleFormat) (digits : Option Nat)
    (output : Option PointOutput) : List (String × Option String) :=
  codecOptions format digits ++ chosen "output" outputWord output

/-- A text that does not look like an option. -/
def IsUnhyphened (text : String) : Prop := text.toList.head? ≠ some '-'

instance (text : String) : Decidable (IsUnhyphened text) := inferInstanceAs (Decidable (_ ≠ _))

structure IsPlainPath (path : String) : Prop where
  nonempty : path ≠ ""
  unhyphened : IsUnhyphened path

/-- The plain lines that ask for points to be encoded or decoded. Points are encoded as text with
six digits, and decoded to JSON, where the line does not say otherwise. -/
inductive IsPlainLine : List String → Command → Prop where
  | encode {path : String} {format : Option SampleFormat} {digits : Option Nat}
      {target : Option String} (plain : IsPlainPath path)
      (small : ∀ count ∈ digits, count < 256) (targeted : ∀ out ∈ target, IsPlainPath out) :
      IsPlainLine ("encode" :: path :: spaced (encodeOptions format digits target))
        (.encode path ⟨format.getD .varint5, digits.getD 6⟩ target)
  | decode {path : String} {format : Option SampleFormat} {digits : Option Nat}
      {output : Option PointOutput} (plain : IsPlainPath path)
      (small : ∀ count ∈ digits, count < 256) :
      IsPlainLine ("decode" :: path :: spaced (decodeOptions format digits output))
        (.decode path ⟨format.getD .varint5, digits.getD 6⟩ (output.getD .json))

/-! ## Splitting arguments -/

def attached (option : String × Option String) : String :=
  "--" ++ option.1 ++ option.2.elim "" ("=" ++ ·)

variable {kind? : String → Option OptionKind} {path name value : String}
  {option : String × Option String} {options : List (String × Option String)}

/-- An option that is known, with a value if it takes one. -/
structure IsKnown (kind? : String → Option OptionKind) (option : String × Option String) :
    Prop where
  kind : kind? option.1 = some (if option.2.isSome then .valued else .flag)
  nonempty : option.1 ≠ ""
  undivided : '=' ∉ option.1.toList

theorem span_eq_of_not_mem {name rest : List Char} (undivided : '=' ∉ name)
    (divided : rest.head?.all (· = '=') = true) : (name ++ rest).span (· ≠ '=') = (name, rest) := by
  have before : ∀ char ∈ name, decide (char ≠ '=') = true := by
    intro char member
    exact decide_eq_true (ne_of_mem_of_not_mem member undivided)
  rw [List.span_eq_takeWhile_dropWhile, List.takeWhile_append_of_pos before,
    List.dropWhile_append_of_pos before]
  cases rest with
  | nil => simp
  | cons first rest =>
    have same : first = '=' := by simpa using divided
    simp [same]

theorem longOption?_attached (undivided : '=' ∉ option.1.toList) :
    longOption? (attached option) = some option := by
  obtain ⟨name, value⟩ := option
  cases value with
  | none =>
    have spelled : (attached (name, none)).toList = '-' :: '-' :: (name.toList ++ []) := by
      simp [attached]
    have divided : (name.toList ++ []).span (· ≠ '=') = (name.toList, []) :=
      span_eq_of_not_mem undivided rfl
    simp only [longOption?, spelled, divided, String.ofList_toList]
  | some value =>
    have spelled : (attached (name, some value)).toList =
        '-' :: '-' :: (name.toList ++ '=' :: value.toList) := by
      simp [attached]
    have divided : (name.toList ++ '=' :: value.toList).span (· ≠ '=') =
        (name.toList, '=' :: value.toList) := span_eq_of_not_mem undivided rfl
    simp only [longOption?, spelled, divided, String.ofList_toList]

theorem attached_ne_end (nonempty : option.1 ≠ "") : attached option ≠ "--" := by
  intro same
  have spelled := congrArg String.toList same
  simp [attached, nonempty] at spelled

theorem isPlain_of_isUnhyphened (unhyphened : IsUnhyphened value) : isPlain value = true := by
  unfold isPlain
  split
  next spelled => exact absurd (congrArg List.head? spelled) unhyphened
  next => rfl

theorem split_path (unhyphened : IsUnhyphened path) (found : Arguments) (rest : List String) :
    split kind? found (path :: rest) =
      split kind? { found with paths := found.paths ++ [path] } rest := by
  have longer : path ≠ "--" := by
    rintro rfl
    exact unhyphened rfl
  have unlike : longOption? path = none := by
    unfold longOption?
    split
    next spelled => exact absurd (congrArg List.head? spelled) unhyphened
    next => rfl
  rw [split]
  simp only [longer, if_false, unlike, isPlain_of_isUnhyphened unhyphened, if_true]

theorem split_attached (known : IsKnown kind? option) (found : Arguments) (rest : List String) :
    split kind? found (attached option :: rest) =
      split kind? { found with options := found.options ++ [option] } rest := by
  obtain ⟨name, value⟩ := option
  have kind := known.kind
  rw [split]
  simp only [attached_ne_end known.nonempty, if_false, longOption?_attached known.undivided]
  cases value with
  | none =>
    rw [kind]
    rfl
  | some value =>
    rw [kind]
    rfl

/-- A value may also stand behind its option. -/
theorem split_spaced_cons (known : IsKnown kind? option)
    (unhyphened : ∀ value ∈ option.2, IsUnhyphened value) (found : Arguments)
    (rest : List String) :
    split kind? found (("--" ++ option.1) :: (option.2.toList ++ rest)) =
      split kind? { found with options := found.options ++ [option] } rest := by
  obtain ⟨name, value⟩ := option
  have alone : "--" ++ name = attached (name, none) := by
    simp [attached]
  cases value with
  | none =>
    rw [alone, ← split_attached known]
    rfl
  | some value =>
    have kind := known.kind
    have longer : attached (name, none) ≠ "--" := attached_ne_end known.nonempty
    have long : longOption? (attached (name, none)) = some (name, none) :=
      longOption?_attached known.undivided
    rw [alone, split]
    simp only [longer, if_false, long]
    rw [kind]
    simp [isPlain_of_isUnhyphened (unhyphened value rfl)]

theorem split_append_end (known : ∀ option ∈ options, IsKnown kind? option) (found : Arguments) :
    split kind? found (options.map attached ++ ["--", path]) =
      .ok ⟨found.paths ++ [path], found.options ++ options⟩ := by
  induction options generalizing found with
  | nil => simp [split]
  | cons option options ih =>
    obtain ⟨first, others⟩ := List.forall_mem_cons.1 known
    rw [List.map_cons, List.cons_append, split_attached first, ih others]
    simp

theorem split_spaced (known : ∀ option ∈ options, IsKnown kind? option)
    (unhyphened : ∀ option ∈ options, ∀ value ∈ option.2, IsUnhyphened value)
    (found : Arguments) :
    split kind? found (spaced options) =
      .ok { found with options := found.options ++ options } := by
  induction options generalizing found with
  | nil => simp [split, spaced]
  | cons option options ih =>
    obtain ⟨first, others⟩ := List.forall_mem_cons.1 known
    obtain ⟨firstValue, otherValues⟩ := List.forall_mem_cons.1 unhyphened
    rw [spaced, List.flatMap_cons, List.cons_append, split_spaced_cons first firstValue]
    have rest := ih others otherValues { found with options := found.options ++ [option] }
    rw [spaced] at rest
    rw [rest]
    simp

/-! ## Reading values -/

theorem format?_formatWord (format : SampleFormat) : format? (formatWord format) = some format := by
  cases format <;> rfl

theorem output?_outputWord (output : PointOutput) : output? (outputWord output) = some output := by
  cases output <;> rfl

theorem path?_of_ne_empty (named : path ≠ "") : path? path = some path := if_neg named

theorem natural?_natural (number : Nat) : natural? (Text.natural number) = some number := by
  have digit := List.all_eq_true.2 (Decimal.isDigit_toDigits number)
  simp [natural?, Text.natural, Nat.toDigits_ne_nil, digit, Nat.ofDigitChars_ten_toDigits]

theorem toList_toString_ne {sign : Char} (unlike : sign.isDigit = false) (number : Nat)
    (rest : List Char) : (toString number).toList ≠ sign :: rest := by
  intro spelled
  rw [Text.toList_toString] at spelled
  have member : sign ∈ Text.natural number := spelled ▸ List.mem_cons_self
  have digit : sign.isDigit = true := Decimal.isDigit_toDigits number sign member
  cases unlike.symm.trans digit

theorem digits?_toString {digits : Nat} (small : digits < 256) :
    digits? (toString digits) = some digits := by
  unfold digits?
  split
  next spelled => exact absurd spelled (toList_toString_ne rfl digits _)
  next spelled => exact absurd spelled (toList_toString_ne rfl digits _)
  next =>
    rw [Text.toList_toString, natural?_natural]
    simpa using small

theorem isUnhyphened_toString (number : Nat) : IsUnhyphened (toString number) := by
  intro hyphened
  obtain ⟨rest, spelled⟩ := List.head?_eq_some_iff.1 hyphened
  exact toList_toString_ne rfl number rest spelled

/-! ## Options of a command -/

section Chosen

variable {α : Type} {spell : α → String} {choice : Option α}

theorem forall_mem_chosen {property : String × Option String → Prop}
    (holds : ∀ value ∈ choice, property (name, some (spell value))) :
    ∀ option ∈ chosen name spell choice, property option := by
  cases choice with
  | none => simp [chosen]
  | some value => simpa [chosen] using holds

theorem forall_text_chosen {property : String → Prop}
    (holds : ∀ value ∈ choice, property (spell value)) :
    ∀ option ∈ chosen name spell choice, ∀ text ∈ option.2, property text := by
  refine forall_mem_chosen fun value member text given => ?_
  cases given
  exact holds value member

theorem lookup_chosen (other : String) :
    (chosen name spell choice).lookup other =
      if other = name then choice.map (some ∘ spell) else none := by
  cases choice with
  | none => simp [chosen]
  | some value =>
    by_cases same : other = name
    · simp [chosen, same]
    · have unlike : (other == name) = false := beq_false_of_ne same
      simp [chosen, List.lookup_cons, unlike, same]

theorem map_fst_chosen_sublist :
    List.Sublist ((chosen name spell choice).map (·.1)) [name] := by
  cases choice <;> simp [chosen]

end Chosen

namespace Arguments

variable {α : Type} {read : String → Option α} {spell : α → String} {choice : Option α}
  {arguments : Arguments} {format : Option SampleFormat} {digits : Option Nat}

theorem value?_of_lookup (found : arguments.options.lookup name = choice.map (some ∘ spell))
    (taken : ∀ value ∈ choice, read (spell value) = some value) :
    arguments.value? name read = .ok choice := by
  rw [value?, found]
  cases choice with
  | none => rfl
  | some value =>
    dsimp only [Option.map_some, Function.comp]
    rw [taken value rfl]

theorem path_singleton (named : path ≠ "") (options : List (String × Option String)) :
    Arguments.path ⟨[path], options⟩ = .ok path := by
  simp only [Arguments.path, path?_of_ne_empty named]

theorem codec_codecOptions (small : ∀ count ∈ digits, count < 256) (paths : List String)
    (options : List (String × Option String)) (apart : options.lookup "format" = none ∧
      options.lookup "digits" = none) :
    Arguments.codec ⟨paths, codecOptions format digits ++ options⟩ =
      .ok ⟨format.getD .varint5, digits.getD 6⟩ := by
  obtain ⟨unlikeFormat, unlikeDigits⟩ := apart
  have formatted : Arguments.value? ⟨paths, codecOptions format digits ++ options⟩ "format"
      format? = .ok format := by
    refine value?_of_lookup ?_ fun format _ => format?_formatWord format
    simp [codecOptions, List.lookup_append, lookup_chosen, unlikeFormat]
  have counted : Arguments.value? ⟨paths, codecOptions format digits ++ options⟩ "digits"
      digits? = .ok digits := by
    refine value?_of_lookup ?_ fun count member => digits?_toString (small count member)
    simp [codecOptions, List.lookup_append, lookup_chosen, unlikeDigits, -Nat.toString_eq_repr]
  rw [Arguments.codec, formatted, counted]
  rfl

end Arguments

theorem repeated?_of_nodup {names : List String} (distinct : names.Nodup) :
    repeated? names = none := by
  induction names with
  | nil => rfl
  | cons first others ih =>
    obtain ⟨apart, others⟩ := List.nodup_cons.1 distinct
    rw [repeated?, ih others]
    simpa using apart

theorem arguments_of_split {valued flags texts : List String} {found : Arguments}
    (told : split (optionKind? valued flags) ⟨[], []⟩ texts = .ok found)
    (distinct : (found.options.map (·.1)).Nodup) : arguments valued flags texts = .ok found := by
  unfold arguments
  rw [told]
  simp only [bind, Except.bind, repeated?_of_nodup distinct]
  rfl

/-! ## Spelling commands -/

section Commands

variable {format : Option SampleFormat} {digits : Option Nat} {target : Option String}
  {output : Option PointOutput} {texts : List String}

section FurtherOption

variable {α : Type} {read : String → Option α} {spell : α → String} {choice : Option α}

theorem isKnown_codecOptions_append (nonempty : name ≠ "") (undivided : '=' ∉ name.toList) :
    ∀ option ∈ codecOptions format digits ++ chosen name spell choice,
      IsKnown (optionKind? [name] []) option := by
  have formatted : ∀ value, IsKnown (optionKind? [name] []) ("format", some value) :=
    fun _ => ⟨by simp [optionKind?, codecKind?], by simp, by simp⟩
  have counted : ∀ value, IsKnown (optionKind? [name] []) ("digits", some value) :=
    fun _ => ⟨by simp [optionKind?, codecKind?], by simp, by simp⟩
  have further : ∀ value, IsKnown (optionKind? [name] []) (name, some value) :=
    fun _ => ⟨by simp [optionKind?], nonempty, undivided⟩
  refine List.forall_mem_append.2 ⟨List.forall_mem_append.2 ⟨?_, ?_⟩, ?_⟩
  · exact forall_mem_chosen fun _ _ => formatted _
  · exact forall_mem_chosen fun _ _ => counted _
  · exact forall_mem_chosen fun _ _ => further _

theorem isUnhyphened_codecOptions_append
    (unhyphened : ∀ value ∈ choice, IsUnhyphened (spell value)) :
    ∀ option ∈ codecOptions format digits ++ chosen name spell choice,
      ∀ value ∈ option.2, IsUnhyphened value := by
  refine List.forall_mem_append.2 ⟨List.forall_mem_append.2 ⟨?_, ?_⟩, ?_⟩
  · refine forall_text_chosen fun format _ => ?_
    cases format <;> decide
  · exact forall_text_chosen fun digits _ => isUnhyphened_toString digits
  · exact forall_text_chosen unhyphened

theorem nodup_codecOptions_append (apart : ["format", "digits", name].Nodup) :
    ((codecOptions format digits ++ chosen name spell choice).map (·.1)).Nodup := by
  have found : List.Sublist ((codecOptions format digits ++ chosen name spell choice).map (·.1))
      (["format"] ++ ["digits"] ++ [name]) := by
    rw [codecOptions, List.map_append, List.map_append]
    exact (map_fst_chosen_sublist.append map_fst_chosen_sublist).append map_fst_chosen_sublist
  exact apart.sublist found

/-- What is read from a path, a codec and at most one more option. -/
theorem exists_arguments_eq_ok (apart : ["format", "digits", name].Nodup) (named : path ≠ "")
    (small : ∀ count ∈ digits, count < 256)
    (taken : ∀ value ∈ choice, read (spell value) = some value)
    (told : split (optionKind? [name] []) ⟨[], []⟩ texts =
      .ok ⟨[path], codecOptions format digits ++ chosen name spell choice⟩) :
    ∃ found, arguments [name] [] texts = .ok found ∧ found.path = .ok path ∧
      found.codec = .ok ⟨format.getD .varint5, digits.getD 6⟩ ∧
      found.value? name read = .ok choice := by
  have unlikeFormat : "format" ≠ name := by
    rintro rfl
    simp at apart
  have unlikeDigits : "digits" ≠ name := by
    rintro rfl
    simp at apart
  refine ⟨_, arguments_of_split told (nodup_codecOptions_append apart),
    Arguments.path_singleton named _, Arguments.codec_codecOptions small _ _ ?_,
    Arguments.value?_of_lookup ?_ taken⟩
  · simp [lookup_chosen, unlikeFormat, unlikeDigits]
  · simp [codecOptions, List.lookup_append, lookup_chosen, unlikeFormat.symm, unlikeDigits.symm]

end FurtherOption

theorem encode_of_split (named : path ≠ "") (small : ∀ count ∈ digits, count < 256)
    (targeted : ∀ out ∈ target, out ≠ "")
    (told : split (optionKind? ["out"] []) ⟨[], []⟩ texts =
      .ok ⟨[path], encodeOptions format digits target⟩) :
    encode texts = .ok (.encode path ⟨format.getD .varint5, digits.getD 6⟩ target) := by
  have taken : ∀ out ∈ target, path? (id out) = some out :=
    fun out member => path?_of_ne_empty (targeted out member)
  obtain ⟨found, read, pathed, coded, out⟩ :=
    exists_arguments_eq_ok (by decide) named small taken told
  rw [encode, read]
  simp only [bind, Except.bind, pathed, coded, out]
  rfl

theorem decode_of_split (named : path ≠ "") (small : ∀ count ∈ digits, count < 256)
    (told : split (optionKind? ["output"] []) ⟨[], []⟩ texts =
      .ok ⟨[path], decodeOptions format digits output⟩) :
    decode texts =
      .ok (.decode path ⟨format.getD .varint5, digits.getD 6⟩ (output.getD .json)) := by
  have taken : ∀ kind ∈ output, output? (outputWord kind) = some kind :=
    fun kind _ => output?_outputWord kind
  obtain ⟨found, read, pathed, coded, shown⟩ :=
    exists_arguments_eq_ok (by decide) named small taken told
  rw [decode, read]
  simp only [bind, Except.bind, pathed, coded, shown]
  rfl

theorem parse_encode {command : Command} (asked : encode texts = .ok command) :
    parse ("encode" :: texts) = .ok (.command command) := by
  change Request.command <$> encode texts = _
  rw [asked]
  rfl

theorem parse_decode {command : Command} (asked : decode texts = .ok command) :
    parse ("decode" :: texts) = .ok (.command command) := by
  change Request.command <$> decode texts = _
  rw [asked]
  rfl

theorem split_plain (plain : IsPlainPath path) (known : ∀ option ∈ options, IsKnown kind? option)
    (unhyphened : ∀ option ∈ options, ∀ value ∈ option.2, IsUnhyphened value) :
    split kind? ⟨[], []⟩ (path :: spaced options) = .ok ⟨[path], options⟩ := by
  rw [split_path plain.unhyphened, split_spaced known unhyphened]
  rfl

theorem parse_of_isPlainLine {line : List String} {command : Command}
    (plain : IsPlainLine line command) : parse line = .ok (.command command) := by
  cases plain with
  | encode plain small targeted =>
    refine parse_encode (encode_of_split plain.nonempty small (fun out member =>
      (targeted out member).nonempty) (split_plain plain ?_ ?_))
    · exact isKnown_codecOptions_append (by decide) (by decide)
    · exact isUnhyphened_codecOptions_append fun out member => (targeted out member).unhyphened
  | decode plain small =>
    refine parse_decode (decode_of_split plain.nonempty small (split_plain plain ?_ ?_))
    · exact isKnown_codecOptions_append (by decide) (by decide)
    · refine isUnhyphened_codecOptions_append fun output _ => ?_
      cases output <;> decide

example : parse ["encode", "points", "--format", "varint7", "--digits", "5", "--out", "shape"] =
    .ok (.command (.encode "points" ⟨.varint7, 5⟩ (some "shape"))) := by
  decide +kernel

variable {codec : CodecOptions}

theorem exists_parse_eq_encode (named : path ≠ "") (small : codec.digits < 256)
    {target : Option String} (targeted : target ≠ some "") :
    ∃ arguments, parse arguments = .ok (.command (.encode path codec target)) := by
  let options := encodeOptions (some codec.format) (some codec.digits) target
  have told : split (optionKind? ["out"] []) ⟨[], []⟩ (options.map attached ++ ["--", path]) =
      .ok ⟨[path], options⟩ :=
    split_append_end (isKnown_codecOptions_append (by decide) (by decide)) _
  have spelled : ∀ out ∈ target, out ≠ "" := by
    rintro out member rfl
    exact targeted member
  exact ⟨_, parse_encode (encode_of_split named (by simpa using small) spelled told)⟩

theorem exists_parse_eq_decode (named : path ≠ "") (small : codec.digits < 256)
    (output : PointOutput) :
    ∃ arguments, parse arguments = .ok (.command (.decode path codec output)) := by
  let options := decodeOptions (some codec.format) (some codec.digits) (some output)
  have told : split (optionKind? ["output"] []) ⟨[], []⟩ (options.map attached ++ ["--", path]) =
      .ok ⟨[path], options⟩ :=
    split_append_end (isKnown_codecOptions_append (by decide) (by decide)) _
  exact ⟨_, parse_decode (decode_of_split named (by simpa using small) told)⟩

end Commands

end CommandLine

end Polyline
