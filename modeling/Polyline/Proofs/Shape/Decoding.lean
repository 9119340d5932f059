import Mathlib.Data.List.Induction
import Polyline.Proofs.Differences
import Polyline.Shape.Decoder

/-! Decoding a buffer reads its samples in turn and fails at its remnant, or at its end if a
longitude is missing there. -/

set_option autoImplicit false

namespace Polyline

open SampleFormat

/-! ## Series -/

namespace Series

variable {format : SampleFormat}

theorem decodeSamples_of_isOpen {tail : Bytes} (opened : format.IsOpen tail) (last : Int32)
    (position : Nat) :
    decodeSamples format last ⟨position, tail⟩ =
      if tail = [] then .ok [] else .error ⟨position, tail.length⟩ := by
  rw [decodeSamples, Cursor.readSample_of_isOpen opened]
  cases tail <;> simp [Cursor.isEmpty]

theorem decodeSamples_append {sample : Bytes} (complete : format.IsSample sample) (rest : Bytes)
    (last : Int32) (position : Nat) :
    decodeSamples format last ⟨position, sample ++ rest⟩ =
      (decodeSamples format (last + format.delta sample) ⟨position + sample.length, rest⟩).map
        ((last + format.delta sample) :: ·) := by
  have unread : (⟨position, sample ++ rest⟩ : Cursor).isEmpty = false := by
    simp [Cursor.isEmpty, complete.ne_nil]
  rw [decodeSamples, Cursor.readSample_append complete]
  simp [unread]

theorem decodeSamples_flatten_append {parts : List Bytes} {tail : Bytes}
    (complete : ∀ part ∈ parts, format.IsSample part) (opened : format.IsOpen tail) (last : Int32)
    (position : Nat) :
    decodeSamples format last ⟨position, parts.flatten ++ tail⟩ =
      if tail = [] then .ok (trace last (parts.map format.delta))
      else .error ⟨position + parts.flatten.length, tail.length⟩ := by
  induction parts generalizing last position with
  | nil => exact decodeSamples_of_isOpen opened last position
  | cons part parts ih =>
    obtain ⟨first, others⟩ := List.forall_mem_cons.1 complete
    rw [List.flatten_cons, List.append_assoc, decodeSamples_append first, ih others]
    split
    · rfl
    · simp [Except.map, Nat.add_assoc]

theorem decodeSamples_start (format : SampleFormat) (last : Int32) (bytes : Bytes) :
    decodeSamples format last (.start bytes) =
      if format.remnant bytes = [] then
        .ok (trace last ((format.samples bytes).map format.delta))
      else .error ⟨(format.samples bytes).flatten.length, (format.remnant bytes).length⟩ := by
  have divided := decodeSamples_flatten_append (isSample_of_mem_samples format bytes)
    (isOpen_remnant format bytes) last 0
  rwa [flatten_samples_append_remnant, Nat.zero_add] at divided

end Series

/-! ## Shapes -/

namespace Decoder

variable {format : SampleFormat}

theorem popGrid_append {lat lon : Bytes} (latitude : format.IsSample lat)
    (longitude : format.IsSample lon) (precision : Binary64) (last : GridPoint) (failed : Bool)
    (position : Nat) (rest : Bytes) :
    popGrid ⟨format, precision, ⟨position, lat ++ (lon ++ rest)⟩, last, failed⟩ =
      (.ok ⟨last.lat + format.delta lat, last.lon + format.delta lon⟩,
        ⟨format, precision, ⟨position + lat.length + lon.length, rest⟩,
          ⟨last.lat + format.delta lat, last.lon + format.delta lon⟩, failed⟩) := by
  simp only [popGrid, Cursor.readSample_append latitude, Cursor.readSample_append longitude]

theorem popGrid_missing {lat tail : Bytes} (latitude : format.IsSample lat)
    (opened : format.IsOpen tail) (precision : Binary64) (last : GridPoint) (failed : Bool)
    (position : Nat) :
    popGrid ⟨format, precision, ⟨position, lat ++ tail⟩, last, failed⟩ =
      (.error ⟨position + lat.length, tail.length⟩,
        ⟨format, precision, ⟨position + lat.length + tail.length, []⟩, last, failed⟩) := by
  simp only [popGrid, Cursor.readSample_append latitude, Cursor.readSample_of_isOpen opened]

theorem popGrid_of_isOpen {tail : Bytes} (opened : format.IsOpen tail) (precision : Binary64)
    (last : GridPoint) (failed : Bool) (position : Nat) :
    popGrid ⟨format, precision, ⟨position, tail⟩, last, failed⟩ =
      (.error ⟨position, tail.length⟩,
        ⟨format, precision, ⟨position + tail.length, []⟩, last, failed⟩) := by
  simp only [popGrid, Cursor.readSample_of_isOpen opened]

variable {point sequence : Type} [PointSequence sequence point]

/-- A sequence with further points at its end. -/
def pushAll (points : sequence) (further : List point) : sequence :=
  further.foldl PointSequence.push points

theorem toList_pushAll (points : sequence) (further : List point) :
    PointSequence.toList (pushAll points further) = PointSequence.toList points ++ further := by
  induction further generalizing points with
  | nil => exact (List.append_nil _).symm
  | cons next further ih =>
    change PointSequence.toList (pushAll (PointSequence.push points next) further) = _
    rw [ih, PointSequence.toList_push, List.append_assoc]
    rfl

variable [OfLonLat point]

/-- The points that a decoder gives while bytes are left, and the failure that ends them. -/
def popEach (decoder : Decoder) : List point × Option MalformedStream :=
  if _ : decoder.isEmpty then ([], none)
  else
    let popped : Except MalformedStream point × Decoder := decoder.pop
    match popped.1 with
    | .error error => ([], some error)
    | .ok next => (next :: popped.2.popEach.1, popped.2.popEach.2)
  termination_by decoder.remaining
  decreasing_by all_goals exact pop_remaining_lt (Bool.eq_false_iff.2 (by assumption))

theorem popEach_of_isEmpty {decoder : Decoder} (empty : decoder.isEmpty = true) :
    (decoder.popEach : List point × Option MalformedStream) = ([], none) := by
  rw [popEach, dif_pos empty]

theorem popEach_of_error {decoder after : Decoder} {error : MalformedStream}
    (unread : decoder.isEmpty = false)
    (popped : (decoder.pop : Except MalformedStream point × Decoder) = (.error error, after)) :
    (decoder.popEach : List point × Option MalformedStream) = ([], some error) := by
  rw [popEach, dif_neg (Bool.eq_false_iff.1 unread), popped]

theorem popEach_of_ok {decoder after : Decoder} {next : point}
    (unread : decoder.isEmpty = false) (popped : decoder.pop = (.ok next, after)) :
    let further : List point × Option MalformedStream := after.popEach
    decoder.popEach = (next :: further.1, further.2) := by
  intro further
  rw [popEach, dif_neg (Bool.eq_false_iff.1 unread), popped]

/-- All points are pushed, or none is there to be seen. -/
theorem popAll_eq_elim_popEach (decoder : Decoder) (points : sequence) :
    decoder.popAll points =
      (decoder.popEach : List point × Option MalformedStream).2.elim
        (.ok (pushAll points decoder.popEach.1)) .error := by
  fun_induction popAll decoder points with
  | case1 decoder points empty =>
    rw [popEach_of_isEmpty empty]
    rfl
  | case2 decoder points unread popped error failing =>
    rw [popEach_of_error (Bool.eq_false_iff.2 unread) (Prod.ext failing rfl)]
    rfl
  | case3 decoder points unread popped last taken ih =>
    rw [popEach_of_ok (Bool.eq_false_iff.2 unread) (Prod.ext taken rfl), ih]
    rfl

theorem popEach_of_isOpen {tail : Bytes} (opened : format.IsOpen tail) (precision : Binary64)
    (last : GridPoint) (failed : Bool) (position : Nat) :
    (popEach ⟨format, precision, ⟨position, tail⟩, last, failed⟩ :
        List point × Option MalformedStream) =
      ([], if tail = [] then none else some ⟨position, tail.length⟩) := by
  cases tail with
  | nil => exact popEach_of_isEmpty rfl
  | cons byte tail =>
    have popped := popGrid_of_isOpen opened precision last failed position
    exact popEach_of_error rfl (by rw [pop, popped]; rfl)

theorem popEach_missing {lat tail : Bytes} (latitude : format.IsSample lat)
    (opened : format.IsOpen tail) (precision : Binary64) (last : GridPoint) (failed : Bool)
    (position : Nat) :
    (popEach ⟨format, precision, ⟨position, lat ++ tail⟩, last, failed⟩ :
        List point × Option MalformedStream) =
      ([], some ⟨position + lat.length, tail.length⟩) := by
  have unread : isEmpty ⟨format, precision, ⟨position, lat ++ tail⟩, last, failed⟩ = false := by
    simp [isEmpty, Cursor.isEmpty, latitude.ne_nil]
  have popped := popGrid_missing latitude opened precision last failed position
  exact popEach_of_error unread (by rw [pop, popped]; rfl)

theorem popEach_append {lat lon : Bytes} (latitude : format.IsSample lat)
    (longitude : format.IsSample lon) (precision : Binary64) (last : GridPoint) (failed : Bool)
    (position : Nat) (rest : Bytes) :
    let next : GridPoint := ⟨last.lat + format.delta lat, last.lon + format.delta lon⟩
    let further : List point × Option MalformedStream :=
      popEach ⟨format, precision, ⟨position + lat.length + lon.length, rest⟩, next, failed⟩
    popEach ⟨format, precision, ⟨position, lat ++ (lon ++ rest)⟩, last, failed⟩ =
      (GridPoint.toPoint precision next :: further.1, further.2) := by
  have unread :
      isEmpty ⟨format, precision, ⟨position, lat ++ (lon ++ rest)⟩, last, failed⟩ = false := by
    simp [isEmpty, Cursor.isEmpty, latitude.ne_nil]
  have popped := popGrid_append latitude longitude precision last failed position rest
  exact popEach_of_ok unread (by rw [pop, popped]; rfl)

theorem popEach_flatten_append {parts : List Bytes} {tail : Bytes}
    (complete : ∀ part ∈ parts, format.IsSample part) (opened : format.IsOpen tail)
    (precision : Binary64) (last : GridPoint) (failed : Bool) (position : Nat) :
    (popEach ⟨format, precision, ⟨position, parts.flatten ++ tail⟩, last, failed⟩ :
        List point × Option MalformedStream) =
      ((GridPoint.trace last (parts.map format.delta)).map (GridPoint.toPoint precision),
        if tail = [] ∧ parts.length % 2 = 0 then none
        else some ⟨position + parts.flatten.length, tail.length⟩) := by
  induction parts using List.twoStepInduction generalizing last position with
  | nil =>
    rw [List.flatten_nil, List.nil_append, popEach_of_isOpen opened]
    simp [GridPoint.trace]
  | singleton lat =>
    have latitude := complete lat (List.mem_singleton_self lat)
    rw [List.flatten_singleton, popEach_missing latitude opened]
    simp [GridPoint.trace]
  | cons_cons lat lon parts ih _ =>
    obtain ⟨latitude, longitude, others⟩ :
        format.IsSample lat ∧ format.IsSample lon ∧ ∀ part ∈ parts, format.IsSample part := by
      simpa using complete
    have even : (lat :: lon :: parts).length % 2 = 0 ↔ parts.length % 2 = 0 := by
      rw [List.length_cons, List.length_cons]
      omega
    rw [List.flatten_cons, List.flatten_cons, List.append_assoc, List.append_assoc,
      popEach_append latitude longitude, ih others, if_congr (and_congr_right' even) rfl rfl]
    simp [GridPoint.trace, Nat.add_assoc]

end Decoder

namespace Shape

variable {point sequence : Type} [OfLonLat point] [PointSequence sequence point]

/-- The grid points of a buffer, one for each two samples, whatever stands behind the last pair. -/
def grid (format : SampleFormat) (bytes : Bytes) : List GridPoint :=
  GridPoint.trace .origin ((format.samples bytes).map format.delta)

def points (format : SampleFormat) (precision : Binary64) (bytes : Bytes) : List point :=
  (grid format bytes).map (GridPoint.toPoint precision)

/-- What keeps a buffer from ending behind its last point. -/
def failure? (format : SampleFormat) (bytes : Bytes) : Option MalformedStream :=
  if format.remnant bytes = [] ∧ (format.samples bytes).length % 2 = 0 then none
  else some ⟨(format.samples bytes).flatten.length, (format.remnant bytes).length⟩

theorem popEach_start (format : SampleFormat) (precision : Binary64) (bytes : Bytes) :
    ((Decoder.start format precision bytes).popEach : List point × Option MalformedStream) =
      (points format precision bytes, failure? format bytes) := by
  have divided : (Decoder.popEach ⟨format, precision,
      ⟨0, (format.samples bytes).flatten ++ format.remnant bytes⟩, .origin, false⟩ :
        List point × Option MalformedStream) = _ :=
    Decoder.popEach_flatten_append (isSample_of_mem_samples format bytes)
      (isOpen_remnant format bytes) precision .origin false 0
  rwa [flatten_samples_append_remnant, Nat.zero_add] at divided

theorem decodeInto_eq (format : SampleFormat) (precision : Binary64) (bytes : Bytes) :
    (decodeInto format precision bytes : Except MalformedStream sequence) =
      (failure? format bytes).elim
        (.ok (Decoder.pushAll
          (PointSequence.reserve PointSequence.empty (bytes.length / bytesPerPointEstimate))
          (points format precision bytes)))
        .error := by
  rw [decodeInto, Decoder.popAll_eq_elim_popEach, popEach_start]

theorem map_toList_decodeInto_eq_elim (format : SampleFormat) (precision : Binary64)
    (bytes : Bytes) :
    (decodeInto format precision bytes : Except MalformedStream sequence).map
        PointSequence.toList =
      (failure? format bytes).elim (.ok (points format precision bytes)) .error := by
  rw [decodeInto_eq]
  cases failure? format bytes with
  | none =>
    change Except.ok (PointSequence.toList (Decoder.pushAll _ _)) = _
    rw [Decoder.toList_pushAll, PointSequence.toList_reserve, PointSequence.toList_empty]
    rfl
  | some error => rfl

/-- What a buffer decodes to, whatever the points are gathered in. -/
theorem map_toList_decodeInto (format : SampleFormat) (precision : Binary64) (bytes : Bytes) :
    (decodeInto format precision bytes : Except MalformedStream sequence).map
        PointSequence.toList =
      if format.remnant bytes = [] ∧ (format.samples bytes).length % 2 = 0 then
        .ok ((GridPoint.trace .origin ((format.samples bytes).map format.delta)).map
          (GridPoint.toPoint precision))
      else .error ⟨(format.samples bytes).flatten.length, (format.remnant bytes).length⟩ := by
  rw [map_toList_decodeInto_eq_elim, failure?]
  split <;> rfl

theorem decode_eq_elim (format : SampleFormat) (precision : Binary64) (bytes : Bytes) :
    (decode format precision bytes : Except MalformedStream (List point)) =
      (failure? format bytes).elim (.ok (points format precision bytes)) .error := by
  have gathered : (decode format precision bytes : Except MalformedStream (List point)) =
      (decodeInto format precision bytes : Except MalformedStream (Array point)).map
        PointSequence.toList := rfl
  rw [gathered, map_toList_decodeInto_eq_elim]

theorem failure?_eq_none_iff {format : SampleFormat} {bytes : Bytes} :
    failure? format bytes = none ↔
      format.remnant bytes = [] ∧ (format.samples bytes).length % 2 = 0 := by
  unfold failure?
  split
  next whole => exact iff_of_true rfl whole
  next broken => exact iff_of_false nofun broken

/-- What a buffer decodes to is settled by its grid points and its failure. -/
theorem decodeInto_eq_ok {format : SampleFormat} {precision : Binary64} {bytes : Bytes}
    {decoded : sequence} (accepted : decodeInto format precision bytes = .ok decoded) :
    failure? format bytes = none ∧
      PointSequence.toList decoded = (grid format bytes).map (GridPoint.toPoint precision) := by
  have outcome : (decodeInto format precision bytes : Except MalformedStream sequence).map
      PointSequence.toList = _ := map_toList_decodeInto_eq_elim format precision bytes
  rw [accepted] at outcome
  cases failing : failure? format bytes with
  | none =>
    rw [failing] at outcome
    exact ⟨rfl, Except.ok.inj outcome⟩
  | some error =>
    rw [failing] at outcome
    cases outcome

theorem decodeInto_eq_error_iff {format : SampleFormat} {precision : Binary64} {bytes : Bytes}
    {error : MalformedStream} :
    (decodeInto format precision bytes : Except MalformedStream sequence) = .error error ↔
      failure? format bytes = some error := by
  rw [decodeInto_eq]
  cases failure? format bytes with
  | none => exact iff_of_false nofun nofun
  | some found => simp

theorem exists_decodeInto_eq_ok {format : SampleFormat} {bytes : Bytes}
    (accepted : failure? format bytes = none) (precision : Binary64) :
    ∃ decoded : sequence, decodeInto format precision bytes = .ok decoded ∧
      PointSequence.toList decoded = (grid format bytes).map (GridPoint.toPoint precision) := by
  cases outcome : (decodeInto format precision bytes : Except MalformedStream sequence) with
  | error error =>
    have failing := decodeInto_eq_error_iff.1 outcome
    rw [accepted] at failing
    cases failing
  | ok decoded => exact ⟨decoded, rfl, (decodeInto_eq_ok outcome).2⟩

end Shape

end Polyline
