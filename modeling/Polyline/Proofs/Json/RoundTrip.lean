import Polyline.Proofs.Command.Printing
import Polyline.Proofs.Json.PointSpellings

/-! Points printed as JSON and read again. All of them come back as they were, unless a coordinate of
one of them is no number. -/

set_option autoImplicit false

namespace Polyline

namespace Point

instance (point : Point) : Decidable point.IsFinite :=
  inferInstanceAs (Decidable (point.lon.isFinite = true ∧ point.lat.isFinite = true))

theorem ofJson?_readJson_of_not_isFinite {point : Point} (infinite : ¬ point.IsFinite) :
    ofJson? point.readJson = none := by
  obtain ⟨lon, lat⟩ := point
  cases lon with
  | infinite | nan => rfl
  | finite lon =>
    cases lat with
    | infinite | nan => rfl
    | finite lat => exact absurd ⟨rfl, rfl⟩ infinite

end Point

namespace PointList

/-- One coordinate that was printed as null is enough for the whole list. -/
theorem ofJson?_map_readJson (points : List Point) :
    ofJson? (.array (points.map Point.readJson)) =
      if ∀ point ∈ points, point.IsFinite then some points else none := by
  split
  next finite => rw [map_readJson_of_isFinite finite, ofJson?_toJson]
  next infinite =>
    obtain ⟨point, member, infinite⟩ : ∃ point ∈ points, ¬ point.IsFinite := by
      simpa using infinite
    apply mapM_eq_none_iff.2
    exact ⟨point.readJson, List.mem_map_of_mem member,
      Point.ofJson?_readJson_of_not_isFinite infinite⟩

theorem read?_chars_toJson_append {layout : Json.Layout} (blank : layout.IsBlank)
    (points : List Point) {trailing : List Char}
    (blanks : ∀ char ∈ trailing, Json.Scanner.isBlank char = true) :
    read? (String.ofList (Json.chars layout 0 (toJson points) ++ trailing)) =
      if ∀ point ∈ points, point.IsFinite then some points else none := by
  rw [read?, read?_chars_toJson blank points blanks, Option.bind_some, ofJson?_map_readJson]

/-- Whether points are printed on one line, over several lines, or as a decoded shape is, they are
read as the same points if each coordinate is finite. Otherwise they are not read at all. -/
theorem json_round_trip (precision : Precision) (points : List Point) :
    let outcome := if ∀ point ∈ points, point.IsFinite then some points else none
    read? (Json.print Json.compact (toJson points)) = outcome ∧
      read? (Json.print Json.pretty (toJson points)) = outcome ∧
      read? (Command.pointsText precision .json points) = outcome := by
  have printed {layout : Json.Layout} (blank : layout.IsBlank) :
      read? (Json.print layout (toJson points)) =
        if ∀ point ∈ points, point.IsFinite then some points else none := by
    have read := read?_chars_toJson_append blank points (List.forall_mem_nil _)
    rwa [List.append_nil] at read
  refine ⟨printed Json.isBlank_compact, printed Json.isBlank_pretty, ?_⟩
  rw [pointsText_json]
  exact read?_chars_toJson_append Json.isBlank_pretty points (List.all_eq_true.1 rfl)

end PointList

end Polyline
