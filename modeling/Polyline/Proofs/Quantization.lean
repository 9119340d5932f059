import Polyline.Proofs.PointList

/-! What encoding and decoding does to coordinates that fit the grid. Rounding to the nearest sample
moves them by half a grid step; all that doubles round on the way is small against that. -/

set_option autoImplicit false

namespace Polyline

/-- A coordinate that is a number, at most as many grid steps from zero as the largest sample. -/
def Precision.Fits (precision : Precision) (coordinate : Binary64) : Prop :=
  ∃ exact, coordinate.toRat? = some exact ∧ |exact| * 10 ^ precision.digits ≤ 2147483647

/-- Two numbers that are apart by hardly more than half a grid step, which is less than a whole
one. -/
def Precision.IsNear (precision : Precision) (before after : Binary64) : Prop :=
  ∃ exact moved, before.toRat? = some exact ∧ after.toRat? = some moved ∧
    |moved - exact| ≤ (1 / 2 + 1 / 2 ^ 18) / 10 ^ precision.digits ∧
    |moved - exact| < 1 / 10 ^ precision.digits

theorem Precision.Fits.isNear {precision : Precision} {coordinate : Binary64}
    (fits : precision.Fits coordinate) :
    precision.IsNear coordinate
      (restore precision.decodeFactor (quantize precision.encodeFactor coordinate)) := by
  have positive := precision.scale_pos
  obtain ⟨exact, equal, inside⟩ := fits
  cases coordinate with
  | nan => cases equal
  | infinite negative => cases equal
  | finite number =>
    cases equal
    have steps : |number.toRat * precision.scale| ≤ 2 ^ 31 - 1 := by
      rw [abs_mul, abs_of_pos positive]
      exact inside.trans (by norm_num)
    have rounded := quantize_near precision steps
    obtain ⟨moved, restored, _, near⟩ :=
      restore_near precision (quantize precision.encodeFactor (.finite number))
    have scaled : |moved.toRat - number.toRat| * precision.scale ≤ 1 / 2 + 1 / 2 ^ 18 := by
      have triangle := abs_sub_le (moved.toRat * precision.scale)
        ((quantize precision.encodeFactor (.finite number)).toInt : ℚ)
        (number.toRat * precision.scale)
      rw [← abs_of_pos positive, ← abs_mul, sub_mul]
      linarith
    refine ⟨number.toRat, moved.toRat, rfl, by rw [restored]; rfl, ?_, ?_⟩
    · exact (le_div_iff₀ positive).2 scaled
    · exact (lt_div_iff₀ positive).2 (scaled.trans_lt (by norm_num))

theorem Precision.fits_ofInt32 {precision : Precision} {number : Int32}
    (small : number.toInt.natAbs * 10 ^ precision.digits ≤ 2147483647) :
    precision.Fits (.ofInt32 number) := by
  obtain ⟨double, equal, exact, _⟩ := Binary64.ofInt32_eq number
  refine ⟨double.toRat, by rw [equal]; rfl, ?_⟩
  rw [exact, ← Int.cast_abs, Int.abs_eq_natAbs]
  exact_mod_cast small

/-- Coordinates that fit the grid come back in order, each hardly more than half a grid step from
where it was. -/
theorem PointList.exists_decode_encode_near (format : SampleFormat) (precision : Precision)
    {points : List Point}
    (fit : ∀ point ∈ points, precision.Fits point.lon ∧ precision.Fits point.lat) :
    ∃ decoded, decode format precision (encode format precision points) = .ok decoded ∧
      List.Forall₂ (fun before after =>
        precision.IsNear before.lon after.lon ∧ precision.IsNear before.lat after.lat)
        points decoded := by
  refine ⟨_, decode_encode format precision points, ?_⟩
  rw [List.forall₂_map_right_iff]
  apply List.forall₂_same.2
  intro point member
  obtain ⟨lonFits, latFits⟩ := fit point member
  exact ⟨lonFits.isNear, latFits.isNear⟩

/-- The farthest coordinates that fit the grid of whole degrees. -/
theorem PointList.exists_decode_encode_near_limit :
    let whole : Precision := ⟨0, by decide⟩
    let limit : Point := ⟨.ofInt32 2147483647, .ofInt32 (-2147483647)⟩
    (∀ point ∈ [limit], whole.Fits point.lon ∧ whole.Fits point.lat) ∧
      ∃ decoded, decode .varint7 whole (encode .varint7 whole [limit]) = .ok decoded ∧
        List.Forall₂ (fun before after =>
          whole.IsNear before.lon after.lon ∧ whole.IsNear before.lat after.lat)
          [limit] decoded := by
  intro whole limit
  have fit : ∀ point ∈ [limit], whole.Fits point.lon ∧ whole.Fits point.lat := by
    intro point member
    cases List.mem_singleton.1 member
    exact ⟨Precision.fits_ofInt32 (by decide), Precision.fits_ofInt32 (by decide)⟩
  exact ⟨fit, exists_decode_encode_near .varint7 whole fit⟩

end Polyline
