/-!
# File name patterns

`?` stands for any character, `*` for any text, `[abc]` and `[a-z]` for a character of a class, and
`[!abc]` for one outside of it. None of them treats slashes or leading dots specially. `**` stands
for any number of whole path components; it has to be a component itself, and a last one matches
everything. There is no way to escape a special character other than a class.

`fitsPattern` says what fits by trying every place where a star can end. `isMatch` finds the same
answer in rows, one answer for each suffix of the text.
-/

set_option autoImplicit false

namespace Polyline.Glob

inductive Token where
  | char (char : Char)
  | anyChar
  | anyText
  | anyComponents
  | oneOf (negated : Bool) (ranges : List (Char × Char))
  deriving DecidableEq

abbrev Pattern : Type := List Token

/-- The ranges of a class. A hyphen makes a range only between two characters. -/
def ranges : List Char → List (Char × Char)
  | first :: '-' :: last :: rest => (first, last) :: ranges rest
  | single :: rest => (single, single) :: ranges rest
  | [] => []

mutual

/-- The pattern of a text, if it is one. `atComponent` tells whether a path component starts
here. -/
def parse? (atComponent : Bool) : List Char → Option Pattern
  | [] => some []
  | '?' :: rest => (parse? false rest).map (.anyChar :: ·)
  | '*' :: '*' :: '*' :: _ => none
  | ['*', '*'] => if atComponent then some [.anyComponents] else none
  | '*' :: '*' :: '/' :: rest =>
    if atComponent then (parse? true rest).map (.anyComponents :: ·) else none
  | '*' :: '*' :: _ :: _ => none
  | '*' :: rest => (parse? false rest).map (.anyText :: ·)
  | '[' :: '!' :: first :: rest => parseClass? true [first] rest
  | '[' :: '!' :: [] => none
  | '[' :: first :: rest => parseClass? false [first] rest
  | ['['] => none
  | char :: rest => (parse? (char == '/') rest).map (.char char :: ·)

/-- A class with at least one character, up to its closing bracket. The characters so far are in
reverse. -/
def parseClass? (negated : Bool) (read : List Char) : List Char → Option Pattern
  | [] => none
  | ']' :: rest => (parse? false rest).map (.oneOf negated (ranges read.reverse) :: ·)
  | char :: rest => parseClass? negated (char :: read) rest

end

/-- The text and all that is left of it after leaving out characters at its start. -/
def suffixes : List Char → List (List Char)
  | [] => [[]]
  | char :: rest => (char :: rest) :: suffixes rest

def afterSlashes : List Char → List (List Char)
  | [] => []
  | char :: rest => if char = '/' then rest :: afterSlashes rest else afterSlashes rest

def fits (char : Char) : Token → Bool
  | .char expected => char == expected
  | .anyChar => true
  | .oneOf negated ranges =>
    (ranges.any fun (first, last) => first ≤ char && char ≤ last) != negated
  | .anyText | .anyComponents => false

def fitsPattern : Pattern → List Char → Bool
  | [], text => text.isEmpty
  | .anyText :: rest, text => (suffixes text).any (fitsPattern rest)
  | .anyComponents :: rest, text =>
    rest.isEmpty || (text :: afterSlashes text).any (fitsPattern rest)
  | _ :: _, [] => false
  | token :: rest, char :: text => fits char token && fitsPattern rest text

def anyFrom (row : List Bool) : List Bool :=
  row.foldr (fun here later => (here || later.headD false) :: later) []

def anyBehindSlash : List Char → List Bool → List Bool
  | char :: text, _ :: later =>
    let below := anyBehindSlash text later
    (char == '/' && later.headD false || below.headD false) :: below
  | _, _ => [false]

def behindFitting (token : Token) : List Char → List Bool → List Bool
  | char :: text, _ :: later =>
    (fits char token && later.headD false) :: behindFitting token text later
  | _, _ => [false]

/-- For each suffix of the text, the longest first, whether the whole of it fits the pattern. Each
row is built from the one of the rest of the pattern, so a pattern with many stars costs no more
than its length times that of the text. -/
def fitRow : Pattern → List Char → List Bool
  | [], text => (suffixes text).map List.isEmpty
  | .anyText :: rest, text => anyFrom (fitRow rest text)
  | .anyComponents :: rest, text =>
    let row := fitRow rest text
    (row.zip (anyBehindSlash text row)).map fun (here, behind) => rest.isEmpty || here || behind
  | token :: rest, text => behindFitting token text (fitRow rest text)

theorem headD_map_suffixes (answer : List Char → Bool) (text : List Char) :
    ((suffixes text).map answer).headD false = answer text := by
  cases text <;> rfl

theorem anyFrom_map_suffixes (answer : List Char → Bool) (text : List Char) :
    anyFrom ((suffixes text).map answer) =
      (suffixes text).map fun suffix => (suffixes suffix).any answer := by
  induction text with
  | nil => simp [anyFrom, suffixes]
  | cons char text ih =>
    have step : anyFrom ((suffixes (char :: text)).map answer) =
        (answer (char :: text) || (anyFrom ((suffixes text).map answer)).headD false) ::
          anyFrom ((suffixes text).map answer) := rfl
    rw [step, ih, headD_map_suffixes]
    simp [suffixes]

theorem anyBehindSlash_map_suffixes (answer : List Char → Bool) (text : List Char) :
    anyBehindSlash text ((suffixes text).map answer) =
      (suffixes text).map fun suffix => (afterSlashes suffix).any answer := by
  induction text with
  | nil => rfl
  | cons char text ih =>
    simp only [suffixes, List.map_cons, anyBehindSlash, ih, headD_map_suffixes, afterSlashes]
    by_cases slash : char = '/' <;> simp [slash]

theorem behindFitting_map_suffixes (token : Token) (answer : List Char → Bool)
    (text : List Char) :
    behindFitting token text ((suffixes text).map answer) =
      (suffixes text).map fun
        | [] => false
        | char :: rest => fits char token && answer rest := by
  induction text with
  | nil => rfl
  | cons char text ih =>
    simp only [suffixes, List.map_cons, behindFitting, ih, headD_map_suffixes]

/-- A row holds what the pattern means at every suffix. -/
theorem fitRow_eq_map (pattern : Pattern) (text : List Char) :
    fitRow pattern text = (suffixes text).map (fitsPattern pattern) := by
  fun_induction fitRow pattern text with
  | case1 text => exact List.map_congr_left fun suffix _ => by simp [fitsPattern]
  | case2 text rest ih =>
    rw [ih, anyFrom_map_suffixes]
    exact List.map_congr_left fun suffix _ => by simp [fitsPattern]
  | case3 text rest row ih =>
    rw [show row = _ from ih, anyBehindSlash_map_suffixes, List.zip_map', List.map_map]
    exact List.map_congr_left fun suffix _ => by simp [fitsPattern, Bool.or_assoc]
  | case4 text token rest notText notComponents ih =>
    rw [ih, behindFitting_map_suffixes]
    refine List.map_congr_left fun suffix _ => ?_
    cases token <;> cases suffix <;> simp_all [fitsPattern]

def compile? (text : String) : Option Pattern := parse? true text.toList

def isMatch (pattern : Pattern) (text : String) : Bool :=
  (fitRow pattern text.toList).headD false

theorem isMatch_eq_fitsPattern (pattern : Pattern) (text : String) :
    isMatch pattern text = fitsPattern pattern text.toList := by
  rw [isMatch, fitRow_eq_map, headD_map_suffixes]

end Polyline.Glob
