import Polyline.Grid
import Polyline.Proofs.Sample.Writing
import Polyline.Series
import Polyline.Shape.Encoding

/-! Sequences of samples and the differences between neighbours. Differences wrap around, so taking
them and adding them up again undo each other without any condition on the samples. -/

set_option autoImplicit false

namespace Polyline

namespace Series

/-- The differences of samples, each from the one before it. -/
def steps (last : Int32) : List Int32 → List Int32
  | [] => []
  | next :: rest => (next - last) :: steps next rest

/-- The samples that differences lead to. -/
def trace (last : Int32) : List Int32 → List Int32
  | [] => []
  | step :: rest => (last + step) :: trace (last + step) rest

@[simp] theorem trace_steps (last : Int32) (samples : List Int32) :
    trace last (steps last samples) = samples := by
  induction samples generalizing last with
  | nil => rfl
  | cons next rest ih =>
    have reached : last + (next - last) = next := by rw [Int32.add_comm, Int32.sub_add_cancel]
    rw [steps, trace, reached, ih]

@[simp] theorem length_trace (last : Int32) (differences : List Int32) :
    (trace last differences).length = differences.length := by
  induction differences generalizing last with
  | nil => rfl
  | cons step rest ih => rw [trace, List.length_cons, List.length_cons, ih]

@[simp] theorem length_steps (last : Int32) (samples : List Int32) :
    (steps last samples).length = samples.length := by
  rw [← length_trace last, trace_steps]

theorem encodeSamples_eq_flatMap (format : SampleFormat) (last : Int32) (samples : List Int32) :
    encodeSamples format last samples = (steps last samples).flatMap format.encode := by
  induction samples generalizing last with
  | nil => rfl
  | cons next rest ih => rw [encodeSamples, steps, List.flatMap_cons, ih]

end Series

namespace GridPoint

/-- The differences of grid points, each from the one before it, latitude first. -/
def steps (last : GridPoint) : List GridPoint → List Int32
  | [] => []
  | next :: rest => (next.lat - last.lat) :: (next.lon - last.lon) :: steps next rest

/-- The grid points that differences lead to. A latitude without longitude leads nowhere. -/
def trace (last : GridPoint) : List Int32 → List GridPoint
  | [] => []
  | [_] => []
  | lat :: lon :: rest =>
    ⟨last.lat + lat, last.lon + lon⟩ :: trace ⟨last.lat + lat, last.lon + lon⟩ rest

@[simp] theorem trace_steps (last : GridPoint) (grid : List GridPoint) :
    trace last (steps last grid) = grid := by
  induction grid generalizing last with
  | nil => rfl
  | cons next rest ih =>
    have latitude : last.lat + (next.lat - last.lat) = next.lat := by
      rw [Int32.add_comm, Int32.sub_add_cancel]
    have longitude : last.lon + (next.lon - last.lon) = next.lon := by
      rw [Int32.add_comm, Int32.sub_add_cancel]
    rw [steps, trace, latitude, longitude, ih]

theorem steps_trace (last : GridPoint) {differences : List Int32}
    (even : differences.length % 2 = 0) : steps last (trace last differences) = differences := by
  induction last, differences using trace.induct with
  | case1 => rfl
  | case2 => cases even
  | case3 last lat lon rest ih =>
    have latitude : last.lat + lat - last.lat = lat := by rw [Int32.add_comm, Int32.add_sub_cancel]
    have longitude : last.lon + lon - last.lon = lon := by rw [Int32.add_comm, Int32.add_sub_cancel]
    have evenRest : rest.length % 2 = 0 := by
      rw [List.length_cons, List.length_cons] at even
      omega
    rw [trace, steps, latitude, longitude, ih evenRest]

@[simp] theorem length_trace (last : GridPoint) (differences : List Int32) :
    (trace last differences).length = differences.length / 2 := by
  induction last, differences using trace.induct with
  | case1 => rfl
  | case2 => simp [trace]
  | case3 last lat lon rest ih =>
    rw [trace, List.length_cons, List.length_cons, List.length_cons, ih]
    omega

@[simp] theorem length_steps (last : GridPoint) (grid : List GridPoint) :
    (steps last grid).length = 2 * grid.length := by
  induction grid generalizing last with
  | nil => rfl
  | cons next rest ih =>
    rw [steps, List.length_cons, List.length_cons, List.length_cons, ih]
    omega

/-- Differences in pairs lead on from the last grid point that those before them led to. -/
theorem trace_append (last : GridPoint) {done : List Int32} (even : done.length % 2 = 0)
    (differences : List Int32) :
    trace last (done ++ differences) =
      trace last done ++ trace ((trace last done).getLastD last) differences := by
  induction last, done using trace.induct with
  | case1 => rfl
  | case2 => cases even
  | case3 last lat lon done ih =>
    have evenRest : done.length % 2 = 0 := by
      rw [List.length_cons, List.length_cons] at even
      omega
    rw [List.cons_append, List.cons_append, trace, trace, ih evenRest, List.cons_append,
      List.getLastD_cons]

theorem encodeGrid_eq_flatMap (format : SampleFormat) (last : GridPoint) (grid : List GridPoint) :
    Shape.encodeGrid format last grid = (steps last grid).flatMap format.encode := by
  induction grid generalizing last with
  | nil => rfl
  | cons next rest ih =>
    rw [Shape.encodeGrid, steps, List.flatMap_cons, List.flatMap_cons, ih, List.append_assoc]

end GridPoint

/-! ## Written differences -/

namespace SampleFormat

theorem isSample_of_mem_map_encode (format : SampleFormat) (differences : List Int32) :
    ∀ part ∈ differences.map format.encode, format.IsSample part := by
  intro part member
  obtain ⟨difference, _, rfl⟩ := List.mem_map.1 member
  exact isSample_encode format difference

theorem samples_flatMap_encode (format : SampleFormat) (differences : List Int32) :
    format.samples (differences.flatMap format.encode) = differences.map format.encode := by
  rw [List.flatMap_def]
  exact samples_flatten (isSample_of_mem_map_encode format differences)

theorem remnant_flatMap_encode (format : SampleFormat) (differences : List Int32) :
    format.remnant (differences.flatMap format.encode) = [] := by
  rw [List.flatMap_def]
  exact remnant_flatten (isSample_of_mem_map_encode format differences)

theorem map_delta_map_encode (format : SampleFormat) (differences : List Int32) :
    (differences.map format.encode).map format.delta = differences := by
  rw [List.map_map]
  exact List.map_id'' (delta_encode format) differences

/-- Writing the differences of samples again takes no more bytes than the samples. -/
theorem length_flatMap_encode_delta_le {format : SampleFormat} {parts : List Bytes}
    (complete : ∀ part ∈ parts, format.IsSample part) :
    ((parts.map format.delta).flatMap format.encode).length ≤ parts.flatten.length := by
  induction parts with
  | nil => exact Nat.le_refl _
  | cons part parts ih =>
    obtain ⟨first, others⟩ := List.forall_mem_cons.1 complete
    have front := length_encode_delta_le first
    have back := ih others
    rw [List.map_cons, List.flatMap_cons, List.flatten_cons, List.length_append, List.length_append]
    omega

/-- Samples are restored from their differences if each is the written form of its own. -/
theorem flatMap_encode_delta_eq_iff {format : SampleFormat} {parts : List Bytes}
    (complete : ∀ part ∈ parts, format.IsSample part) :
    (parts.map format.delta).flatMap format.encode = parts.flatten ↔
      ∀ part ∈ parts, format.encode (format.delta part) = part := by
  have divided : (parts.map format.delta).flatMap format.encode =
      (parts.map fun part => format.encode (format.delta part)).flatten := by
    rw [List.flatMap_def, List.map_map]
    rfl
  constructor
  · intro equal
    have pieces := congrArg format.samples equal
    rw [samples_flatMap_encode, samples_flatten complete, List.map_map] at pieces
    have same : parts.map (format.encode ∘ format.delta) = parts.map id := by
      rw [pieces, List.map_id]
    exact List.map_inj_left.1 same
  · intro canonical
    rw [divided, List.map_congr_left canonical, List.map_id']

end SampleFormat

end Polyline
