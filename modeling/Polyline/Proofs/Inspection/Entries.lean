import Polyline.Inspection.Basic
import Polyline.Proofs.Shape.Decoding

/-! An inspection lists the samples of a buffer one after another and stops at its remnant. -/

set_option autoImplicit false

namespace Polyline

open SampleFormat

namespace Inspection

variable {format : SampleFormat}

/-- The entries of samples that stand one behind another. -/
def listing (format : SampleFormat) (scale : Binary64) (axis : Axis) (last : GridPoint)
    (position : Nat) : List Bytes → List SampleEntry
  | [] => []
  | part :: parts =>
    let value := last.get axis + format.delta part
    { offset := position
      length := part.length
      axis := axis
      delta := format.delta part
      value := value
      coordinate := restore scale value } ::
      listing format scale axis.other (last.set value axis) (position + part.length) parts

@[simp] theorem length_listing (scale : Binary64) (axis : Axis) (last : GridPoint)
    (position : Nat) (parts : List Bytes) :
    (listing format scale axis last position parts).length = parts.length := by
  induction parts generalizing axis last position with
  | nil => rfl
  | cons part parts ih => rw [listing, List.length_cons, List.length_cons, ih]

/-- The entries of two samples are those of a grid point, latitude first. -/
theorem take_listing (format : SampleFormat) (scale : Binary64) (last : GridPoint)
    (position : Nat) (parts : List Bytes) :
    ((listing format scale .lat last position parts).take (2 * (parts.length / 2))).map
        (fun entry => (entry.axis, entry.value, entry.coordinate)) =
      (GridPoint.trace last (parts.map format.delta)).flatMap fun source =>
        [(Axis.lat, source.lat, restore scale source.lat),
          (Axis.lon, source.lon, restore scale source.lon)] := by
  induction parts using List.twoStepInduction generalizing last position with
  | nil => rfl
  | singleton => simp [GridPoint.trace]
  | cons_cons lat lon parts ih _ =>
    have pairs : 2 * ((lat :: lon :: parts).length / 2) = 2 * (parts.length / 2) + 1 + 1 := by
      rw [List.length_cons, List.length_cons]
      omega
    have further := ih ⟨last.lat + format.delta lat, last.lon + format.delta lon⟩
      (position + lat.length + lon.length)
    rw [pairs, listing, listing, List.take_succ_cons, List.take_succ_cons, List.map_cons,
      List.map_cons]
    change _ :: _ :: List.map _ (List.take _ (listing _ _ .lat ⟨_, _⟩ _ _)) = _
    rw [List.map_cons, List.map_cons, GridPoint.trace, List.flatMap_cons, ← further]
    rfl

theorem entries_of_isOpen {tail : Bytes} (opened : format.IsOpen tail) (scale : Binary64)
    (axis : Axis) (last : GridPoint) (position : Nat) :
    entries format scale axis last ⟨position, tail⟩ =
      ([], if tail = [] then none else some ⟨position, tail.length⟩) := by
  rw [entries, Cursor.readSample_of_isOpen opened]
  cases tail <;> rfl

theorem entries_append {sample : Bytes} (complete : format.IsSample sample) (scale : Binary64)
    (axis : Axis) (last : GridPoint) (position : Nat) (rest : Bytes) :
    let value := last.get axis + format.delta sample
    let further := entries format scale axis.other (last.set value axis)
      ⟨position + sample.length, rest⟩
    entries format scale axis last ⟨position, sample ++ rest⟩ =
      ({ offset := position
         length := sample.length
         axis := axis
         delta := format.delta sample
         value := value
         coordinate := restore scale value } :: further.1, further.2) := by
  intro value further
  have unread : (⟨position, sample ++ rest⟩ : Cursor).isEmpty = false := by
    simp [Cursor.isEmpty, complete.ne_nil]
  have difference : value - last.get axis = format.delta sample := by
    change last.get axis + format.delta sample - last.get axis = _
    rw [Int32.add_comm, Int32.add_sub_cancel]
  have length : position + sample.length - position = sample.length := Nat.add_sub_cancel_left _ _
  rw [entries, dif_neg (Bool.eq_false_iff.1 unread), Cursor.readSample_append complete]
  change (SampleEntry.mk position (position + sample.length - position) axis
    (value - last.get axis) value (restore scale value) :: further.1, further.2) = _
  rw [difference, length]

theorem entries_flatten_append {parts : List Bytes} {tail : Bytes}
    (complete : ∀ part ∈ parts, format.IsSample part) (opened : format.IsOpen tail)
    (scale : Binary64) (axis : Axis) (last : GridPoint) (position : Nat) :
    entries format scale axis last ⟨position, parts.flatten ++ tail⟩ =
      (listing format scale axis last position parts,
        if tail = [] then none else some ⟨position + parts.flatten.length, tail.length⟩) := by
  induction parts generalizing axis last position with
  | nil => exact entries_of_isOpen opened scale axis last position
  | cons part parts ih =>
    obtain ⟨first, others⟩ := List.forall_mem_cons.1 complete
    rw [List.flatten_cons, List.append_assoc, entries_append first, ih others, listing,
      List.length_append, Nat.add_assoc]

theorem entries_start (format : SampleFormat) (scale : Binary64) (bytes : Bytes) :
    entries format scale .lat .origin (.start bytes) =
      (listing format scale .lat .origin 0 (format.samples bytes),
        if format.remnant bytes = [] then none
        else some ⟨(format.samples bytes).flatten.length, (format.remnant bytes).length⟩) := by
  have divided := entries_flatten_append (isSample_of_mem_samples format bytes)
    (isOpen_remnant format bytes) scale .lat .origin 0
  rwa [flatten_samples_append_remnant, Nat.zero_add] at divided

theorem samples_ofBytes (format : SampleFormat) (precision : Precision) (bytes : Bytes) :
    (ofBytes format precision bytes).samples =
      listing format precision.decodeFactor .lat .origin 0
        (format.samples (format.trim bytes)) := by
  rw [ofBytes, entries_start]

/-- The failure of an inspection is what decoding fails with, also where the inspection supplies it
because the number of samples is odd. -/
theorem error_ofBytes (format : SampleFormat) (precision : Precision) (bytes : Bytes) :
    (ofBytes format precision bytes).error = Shape.failure? format (format.trim bytes) := by
  have whole := congrArg List.length (flatten_samples_append_remnant format (format.trim bytes))
  rw [List.length_append] at whole
  rw [ofBytes, entries_start, length_listing, Shape.failure?]
  by_cases closed : format.remnant (format.trim bytes) = []
  · rw [closed, List.length_nil, Nat.add_zero] at whole
    rcases Nat.mod_two_eq_zero_or_one (format.samples (format.trim bytes)).length with even | odd
    · simp [closed, even]
    · simp [closed, odd, whole]
  · simp [closed]

end Inspection

end Polyline
