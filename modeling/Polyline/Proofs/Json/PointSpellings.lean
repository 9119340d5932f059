import Mathlib.Data.List.Forall2
import Polyline.PointList
import Polyline.Proofs.Json.Spelling

/-! The texts that are lists of points. Each point is spelled as a pair or as an object, in any mixture
of the two, and one item that spells no point makes the text none. -/

set_option autoImplicit false

namespace Polyline

/-- All results or none, in order. -/
theorem mapM_eq_some_iff {α β : Type} {result? : α → Option β} {items : List α}
    {results : List β} :
    items.mapM result? = some results ↔
      List.Forall₂ (fun result item => result? item = some result) results items := by
  induction items generalizing results with
  | nil =>
    rw [List.mapM_nil, List.forall₂_nil_right_iff]
    exact ⟨fun equal => (Option.some.inj equal).symm, congrArg some ∘ Eq.symm⟩
  | cons item items ih =>
    rw [List.mapM_cons, List.forall₂_cons_right_iff]
    constructor
    · intro all
      obtain ⟨result, first, all⟩ := Option.bind_eq_some_iff.1 all
      obtain ⟨others, rest, same⟩ := Option.bind_eq_some_iff.1 all
      cases same
      exact ⟨result, others, first, ih.1 rest, rfl⟩
    · rintro ⟨result, others, first, rest, rfl⟩
      simp [first, ih.2 rest]

theorem mapM_eq_none_iff {α β : Type} {result? : α → Option β} {items : List α} :
    items.mapM result? = none ↔ ∃ item ∈ items, result? item = none := by
  induction items with
  | nil => simp
  | cons item items ih =>
    rw [List.mapM_cons, List.exists_mem_cons_iff, ← ih]
    cases first : result? item with
    | none => simp
    | some result =>
      cases rest : items.mapM result? with
      | none => simp
      | some results => simp

namespace Point

/-- A point is spelled as a pair of numbers, or as an object with two numbers under the names `lon`
and `lat`, neither of which occurs again, among any others and in any order. -/
inductive IsSpelledAs (point : Point) : Json → Prop where
  | pair {lon lat : Json} (lonNumber : lon.toBinary64? = some point.lon)
      (latNumber : lat.toBinary64? = some point.lat) : IsSpelledAs point (.array [lon, lat])
  | object {members others : List (String × Json)} {lon lat : Json}
      (order : members.Perm (("lon", lon) :: ("lat", lat) :: others))
      (further : ∀ member ∈ others, member.1 ≠ "lon" ∧ member.1 ≠ "lat")
      (lonNumber : lon.toBinary64? = some point.lon)
      (latNumber : lat.toBinary64? = some point.lat) : IsSpelledAs point (.object members)

theorem member?_eq_some_iff {members : List (String × Json)} {name : String} {value : Json} :
    member? members name = some value ↔ members.filter (·.1 = name) = [(name, value)] := by
  unfold member?
  split
  next key found only =>
    have inside : (key, found) ∈ members.filter (·.1 = name) := by simp [only]
    have named : key = name := by simpa using List.of_mem_filter inside
    simp [only, named]
  next other =>
    constructor
    · nofun
    · intro only
      exact absurd only (other name value)

/-- Two names that occur once each, and what is left without them. -/
theorem exists_perm_of_filter {members : List (String × Json)} {lon lat : Json}
    (lonOnly : members.filter (·.1 = "lon") = [("lon", lon)])
    (latOnly : members.filter (·.1 = "lat") = [("lat", lat)]) :
    ∃ others : List (String × Json), members.Perm (("lon", lon) :: ("lat", lat) :: others) ∧
      ∀ member ∈ others, member.1 ≠ "lon" ∧ member.1 ≠ "lat" := by
  have lonFirst := List.filter_append_perm (fun member => decide (member.1 = "lon")) members
  rw [lonOnly] at lonFirst
  have latFirst := List.filter_append_perm (fun member => decide (member.1 = "lat"))
    (members.filter fun member => !decide (member.1 = "lon"))
  have latLeft : (members.filter fun member => !decide (member.1 = "lon")).filter
      (fun member => decide (member.1 = "lat")) = [("lat", lat)] := by
    rw [List.filter_filter, ← latOnly]
    apply List.filter_congr
    intro member _
    by_cases named : member.1 = "lat"
    · simp [named]
    · simp [named]
  rw [latLeft] at latFirst
  refine ⟨_, (lonFirst.symm.trans (latFirst.symm.cons _)), ?_⟩
  intro member left
  obtain ⟨inside, unlat⟩ := List.mem_filter.1 left
  have unlon := List.of_mem_filter inside
  exact ⟨by simpa using unlon, by simpa using unlat⟩

theorem ofJson?_eq_some_iff {point : Point} {item : Json} :
    ofJson? item = some point ↔ point.IsSpelledAs item := by
  constructor
  · intro made
    unfold ofJson? at made
    split at made
    next lon lat =>
      obtain ⟨_, lonNumber, made⟩ := Option.bind_eq_some_iff.1 made
      obtain ⟨_, latNumber, same⟩ := Option.bind_eq_some_iff.1 made
      cases same
      exact .pair lonNumber latNumber
    next members =>
      obtain ⟨lon, lonOnly, made⟩ := Option.bind_eq_some_iff.1 made
      obtain ⟨lat, latOnly, made⟩ := Option.bind_eq_some_iff.1 made
      obtain ⟨_, lonNumber, made⟩ := Option.bind_eq_some_iff.1 made
      obtain ⟨_, latNumber, same⟩ := Option.bind_eq_some_iff.1 made
      cases same
      obtain ⟨others, order, further⟩ := exists_perm_of_filter
        (member?_eq_some_iff.1 lonOnly) (member?_eq_some_iff.1 latOnly)
      exact .object order further lonNumber latNumber
    next => cases made
  · intro spelled
    cases spelled with
    | pair lonNumber latNumber => simp [ofJson?, lonNumber, latNumber]
    | @object members others lon lat order further lonNumber latNumber =>
      have lonOnly : member? members "lon" = some lon := by
        apply member?_eq_some_iff.2
        apply List.perm_singleton.1
        refine (order.filter _).trans (.of_eq ?_)
        have none : others.filter (·.1 = "lon") = [] := by
          simpa using fun _ _ member => (further _ member).1
        simp [none]
      have latOnly : member? members "lat" = some lat := by
        apply member?_eq_some_iff.2
        apply List.perm_singleton.1
        refine (order.filter _).trans (.of_eq ?_)
        have none : others.filter (·.1 = "lat") = [] := by
          simpa using fun _ _ member => (further _ member).2
        simp [none]
      simp [ofJson?, lonOnly, latOnly, lonNumber, latNumber]

theorem ofJson?_eq_none_iff {item : Json} :
    ofJson? item = none ↔ ∀ point : Point, ¬ point.IsSpelledAs item := by
  simp only [Option.eq_none_iff_forall_ne_some, ne_eq, ofJson?_eq_some_iff]

end Point

namespace PointList

theorem ofJson?_eq_some_iff {value : Json} {points : List Point} :
    ofJson? value = some points ↔
      ∃ items, value = .array items ∧ List.Forall₂ Point.IsSpelledAs points items := by
  cases value with
  | array items =>
    change items.mapM Point.ofJson? = some points ↔ _
    simp [mapM_eq_some_iff, Point.ofJson?_eq_some_iff]
  | _ => simp [ofJson?]

theorem ofJson?_eq_none_iff {value : Json} :
    ofJson? value = none ↔
      ∀ items, value = .array items → ∃ item ∈ items, ∀ point : Point, ¬ point.IsSpelledAs item := by
  cases value with
  | array items =>
    change items.mapM Point.ofJson? = none ↔ _
    simp [mapM_eq_none_iff, Point.ofJson?_eq_none_iff]
  | _ => simp [ofJson?]

theorem ofJson?_congr {front back : List Json} {item other : Json} {point : Point}
    (spelled : point.IsSpelledAs item) (respelled : point.IsSpelledAs other) :
    ofJson? (.array (front ++ item :: back)) = ofJson? (.array (front ++ other :: back)) := by
  change (front ++ item :: back).mapM Point.ofJson? = (front ++ other :: back).mapM Point.ofJson?
  rw [List.mapM_append, List.mapM_append, List.mapM_cons, List.mapM_cons,
    Point.ofJson?_eq_some_iff.2 spelled, Point.ofJson?_eq_some_iff.2 respelled]

/-- A text that is written as a value is a list of points if the value is an array of spellings of
points, and of those points in order. One other item, or a value that is no array, and it is none.
The points do not depend on which spellings were taken. -/
theorem accepts_point_spellings {text : String} {value : Json} (written : value.IsWrittenAs text) :
    (∀ points, read? text = some points ↔
      ∃ items, value = .array items ∧ List.Forall₂ Point.IsSpelledAs points items) ∧
    (read? text = none ↔
      ∀ items, value = .array items → ∃ item ∈ items, ∀ point : Point, ¬ point.IsSpelledAs item) ∧
    ∀ front item other back (point : Point) otherText, value = .array (front ++ item :: back) →
      point.IsSpelledAs item → point.IsSpelledAs other →
      (Json.array (front ++ other :: back)).IsWrittenAs otherText →
      read? otherText = read? text := by
  have reads {text : String} {value : Json} (written : value.IsWrittenAs text) :
      read? text = ofJson? value := by
    rw [read?, Json.read?_eq_some_iff.2 written, Option.bind_some]
  rw [reads written]
  refine ⟨fun _ => ofJson?_eq_some_iff, ofJson?_eq_none_iff, ?_⟩
  rintro front item other back point otherText rfl spelled respelled rewritten
  rw [reads rewritten, ofJson?_congr spelled respelled]

theorem accepts_point_spellings_mixed :
    ∃ value, Json.IsWrittenAs value "[[1,2], \x7b\"lat\":4,\"x\":[],\"l\\u006fn\":3\x7d]" ∧
      ∃ items, value = .array items ∧
        List.Forall₂ Point.IsSpelledAs [⟨.ofInt 1, .ofInt 2⟩, ⟨.ofInt 3, .ofInt 4⟩] items := by
  have some : (Json.read? "[[1,2], \x7b\"lat\":4,\"x\":[],\"l\\u006fn\":3\x7d]").isSome = true := by
    decide +kernel
  obtain ⟨value, read⟩ := Option.isSome_iff_exists.1 some
  have written := Json.read?_eq_some_iff.1 read
  exact ⟨value, written, ((accepts_point_spellings written).1 _).1 (by decide +kernel)⟩

end PointList

end Polyline
