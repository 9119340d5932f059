import Mathlib.Data.List.Forall2
import Polyline.Proofs.Decimal.Fixed
import Polyline.Proofs.PointList
import Polyline.Proofs.Text.Words

/-! The table of a decoded list. Although a coordinate is a double that is only near to its sample,
the table writes every sample out exactly, so that it shows one list of grid points and no other. -/

set_option autoImplicit false

namespace Polyline

open Decimal

theorem Decimal.IsExpansion.isWord {places : Nat} {number : ℚ} {text : List Char}
    (expanded : IsExpansion places number text) : Text.IsWord text := by
  refine ⟨expanded.ne_nil, ?_⟩
  intro char member
  constructor
  · rintro rfl
    exact expanded.not_mem rfl (by decide) (by decide) member
  · rintro rfl
    exact expanded.not_mem rfl (by decide) (by decide) member

namespace PointList

/-- A line numbers its point and writes both samples out, the longitude first. -/
def IsRow (precision : Precision) (index : Nat) (source : GridPoint) (row : List Char) : Prop :=
  ∃ lon lat,
    Text.words row =
      [Text.natural index ++ [':'], "lon".toList, lon, "lat".toList, lat] ∧
    IsExpansion precision.digits (source.lon.toInt / 10 ^ precision.digits) lon ∧
    IsExpansion precision.digits (source.lat.toInt / 10 ^ precision.digits) lat

/-- A text has one line for each grid point, in order and numbered from zero, and nothing else. -/
def Shows (precision : Precision) (text : String) (grid : List GridPoint) : Prop :=
  ∃ rows, text.toList.splitOn '\n' = rows ++ [[]] ∧
    List.Forall₂ (fun entry row => IsRow precision entry.2 entry.1 row) grid.zipIdx rows

variable {precision : Precision}

/-! ## Reading tables -/

theorem sample_eq_of_isExpansion {places : Nat} {left right : Int32} {text : List Char}
    (expanded : IsExpansion places (left.toInt / 10 ^ places) text)
    (same : IsExpansion places (right.toInt / 10 ^ places) text) : left = right := by
  have scale : (10 : ℚ) ^ places ≠ 0 := by positivity
  have value := (div_left_inj' scale).1 (expanded.unique same)
  exact Int32.toInt_inj.1 (Int.cast_inj.1 value)

theorem IsRow.unique {index other : Nat} {source target : GridPoint} {row : List Char}
    (first : IsRow precision index source row) (second : IsRow precision other target row) :
    (source, index) = (target, other) := by
  obtain ⟨lon, lat, words, lonExpanded, latExpanded⟩ := first
  obtain ⟨lon', lat', same, lonExpanded', latExpanded'⟩ := second
  obtain ⟨number, rfl, rfl⟩ :
      Text.natural index = Text.natural other ∧ lon = lon' ∧ lat = lat' := by
    simpa using words.symm.trans same
  have lonEqual := sample_eq_of_isExpansion lonExpanded lonExpanded'
  have latEqual := sample_eq_of_isExpansion latExpanded latExpanded'
  exact Prod.ext (congrArg₂ GridPoint.mk latEqual lonEqual) (Text.natural_injective number)

/-- No text shows two lists. -/
theorem Shows.unique {text : String} {grid other : List GridPoint}
    (shown : Shows precision text grid) (same : Shows precision text other) : grid = other := by
  obtain ⟨rows, divided, shownRows⟩ := shown
  obtain ⟨rows', divided', sameRows⟩ := same
  obtain rfl := List.append_cancel_right (divided.symm.trans divided')
  have entries : grid.zipIdx = other.zipIdx :=
    List.left_unique_forall₂' (fun _ _ _ first second => first.unique second) shownRows sameRows
  rw [← List.zipIdx_map_fst 0 grid, entries, List.zipIdx_map_fst]

/-! ## Writing tables -/

/-- A line without its end. -/
def row (precision : Precision) (index : Nat) (point : Point) : List Char :=
  Text.alignRight 6 (Text.natural index) ++ ": lon ".toList ++
    coordinateText precision point.lon ++ " lat ".toList ++ coordinateText precision point.lat

/-- The coordinate of a sample is shown as the sample. -/
theorem isExpansion_restore (precision : Precision) (sample : Int32) :
    IsExpansion precision.digits (sample.toInt / 10 ^ precision.digits)
      ((restore precision.decodeFactor sample).fixedText precision.digits) := by
  obtain ⟨coordinate, restored, sign, near⟩ := restore_near precision sample
  rw [restored]
  exact Binary64.Finite.isExpansion_fixedText sign (near.trans_lt (by norm_num))

theorem words_row (index width : Nat) {lon lat : List Char} (lonWord : Text.IsWord lon)
    (latWord : Text.IsWord lat) :
    Text.words (Text.alignRight 6 (Text.natural index) ++ ": lon ".toList ++
        Text.alignRight width lon ++ " lat ".toList ++ Text.alignRight width lat) =
      [Text.natural index ++ [':'], "lon".toList, lon, "lat".toList, lat] := by
  have number : Text.IsWord (Text.natural index ++ [':']) :=
    (Text.isWord_natural index).append (by decide)
  have lonName : Text.IsWord "lon".toList := by decide
  have latName : Text.IsWord "lat".toList := by decide
  calc Text.words (Text.alignRight 6 (Text.natural index) ++ ": lon ".toList ++
        Text.alignRight width lon ++ " lat ".toList ++ Text.alignRight width lat)
      = Text.words (Text.natural index ++ [':'] ++ ' ' :: ("lon".toList ++
          ' ' :: (Text.alignRight width lon ++ ' ' :: ("lat".toList ++
            ' ' :: (Text.alignRight width lat ++ []))))) := by
        simp [Text.words_alignRight]
    _ = (Text.natural index ++ [':']) :: "lon".toList :: lon :: "lat".toList ::
          Text.words (Text.alignRight width lat ++ []) := by
        rw [Text.words_append number, Text.words_append lonName, Text.words_alignRight,
          Text.words_append lonWord, Text.words_append latName]
    _ = [Text.natural index ++ [':'], "lon".toList, lon, "lat".toList, lat] := by
        rw [Text.words_alignRight, List.append_nil, Text.words_eq_singleton latWord]

theorem isRow_row (precision : Precision) (index : Nat) (source : GridPoint) :
    IsRow precision index source
      (row precision index (GridPoint.toPoint precision.decodeFactor source)) := by
  have lon := isExpansion_restore precision source.lon
  have lat := isExpansion_restore precision source.lat
  exact ⟨_, _, words_row index _ lon.isWord lat.isWord, lon, lat⟩

theorem IsRow.not_mem {index : Nat} {source : GridPoint} {line : List Char}
    (isRow : IsRow precision index source line) : '\n' ∉ line := by
  obtain ⟨lon, lat, told, lonExpanded, latExpanded⟩ := isRow
  have number : Text.IsWord (Text.natural index ++ [':']) :=
    (Text.isWord_natural index).append (by decide)
  apply Text.not_mem_of_words
  rw [told]
  simp only [List.forall_mem_cons, number, lonExpanded.isWord, latExpanded.isWord, true_and]
  decide

theorem toList_table (precision : Precision) (points : List Point) :
    (table precision points).toList =
      (points.zipIdx.map fun entry => row precision entry.2 entry.1).flatMap (· ++ ['\n']) := by
  rw [table, String.toList_ofList, List.flatMap_map]
  rfl

theorem shows_table (precision : Precision) (grid : List GridPoint) :
    Shows precision (table precision (grid.map (GridPoint.toPoint precision.decodeFactor)))
      grid := by
  refine ⟨grid.zipIdx.map fun entry =>
    row precision entry.2 (GridPoint.toPoint precision.decodeFactor entry.1), ?_, ?_⟩
  · rw [toList_table, List.zipIdx_map, List.map_map]
    apply Text.splitOn_lines
    intro line member
    obtain ⟨entry, _, rfl⟩ := List.mem_map.1 member
    exact (isRow_row precision entry.2 entry.1).not_mem
  · rw [List.forall₂_map_right_iff, List.forall₂_same]
    intro entry _
    exact isRow_row precision entry.2 entry.1

/-- The table of a decoded list has one line for each of its grid points, which writes both samples
out as decimal numbers, and it is the table of no other grid points. -/
theorem table_shows_samples {format : SampleFormat} {precision : Precision} {bytes : Bytes}
    {points : List Point} (decoded : decode format precision bytes = .ok points) :
    let grid := Shape.grid format (format.trim bytes)
    points = grid.map (GridPoint.toPoint precision.decodeFactor) ∧
      Shows precision (table precision points) grid ∧
      ∀ other, Shows precision (table precision points) other → other = grid := by
  intro grid
  obtain ⟨_, rfl⟩ := decode_eq_ok_iff.1 decoded
  have shown := shows_table precision grid
  exact ⟨rfl, shown, fun other same => same.unique shown⟩

/-- The least sample and the greatest one, which a difference of minus one makes of it. -/
theorem table_shows_samples_limits :
    let precision : Precision := ⟨9, by decide⟩
    let bytes : Bytes := [0xff, 0xff, 0xff, 0xff, 0x0f, 0x00, 0x01, 0x01]
    let grid : List GridPoint := [⟨Int32.minValue, 0⟩, ⟨Int32.maxValue, -1⟩]
    let points : List Point := grid.map (GridPoint.toPoint precision.decodeFactor)
    decode .varint7 precision bytes = .ok points ∧ Shows precision (table precision points) grid ∧
      table precision points =
        "     0: lon    0.000000000 lat   -2.147483648\n" ++
          "     1: lon   -0.000000001 lat    2.147483647\n" := by
  intro precision bytes grid points
  have decodedGrid : Shape.grid .varint7 (SampleFormat.trim .varint7 bytes) = grid := by decide
  have decoded : decode .varint7 precision bytes = .ok points := by
    refine decode_eq_ok_iff.2 ⟨by decide, ?_⟩
    exact congrArg (List.map (GridPoint.toPoint precision.decodeFactor)) decodedGrid.symm
  obtain ⟨_, shown, _⟩ := table_shows_samples decoded
  rw [decodedGrid] at shown
  exact ⟨decoded, shown, by decide +kernel⟩

end PointList

end Polyline
