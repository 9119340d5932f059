import Polyline.Proofs.Inspection.Agreement
import Polyline.Proofs.PointList
import Polyline.Proofs.Shape.Axes

/-! An inspection accounts for the bytes of a buffer. Its entries stand one behind another without a
gap, each of them tells what one complete sample holds by itself, and the values are what the
differences along an axis add up to. What the entries leave over is what the failure names. -/

set_option autoImplicit false

namespace Polyline

open SampleFormat

theorem GridPoint.get_set (source : GridPoint) (value : Int32) (set read : Axis) :
    (source.set value set).get read = if set = read then value else source.get read := by
  cases set <;> cases read <;> rfl

namespace SampleEntry

/-- The bytes of a buffer that an entry stands for. -/
def slice (entry : SampleEntry) (bytes : Bytes) : Bytes :=
  (bytes.drop entry.offset).take entry.length

/-- An entry stands for one complete sample of a buffer, and tells what that sample reads as by
itself. -/
structure Describes (format : SampleFormat) (bytes : Bytes) (entry : SampleEntry) : Prop where
  length_pos : 1 ≤ entry.length
  inside : entry.offset + entry.length ≤ bytes.length
  complete : format.IsSample (entry.slice bytes)
  read : (Cursor.start (entry.slice bytes)).readSample format 0 =
    (.ok entry.delta, ⟨entry.length, []⟩)

/-- The next entry begins where this one ends, on the other axis. -/
structure Precedes (entry next : SampleEntry) : Prop where
  offset : next.offset = entry.offset + entry.length
  axis : next.axis = entry.axis.other

/-- The differences along an axis added up, which wraps around. -/
def travelled (axis : Axis) (entries : List SampleEntry) : Int32 :=
  ((entries.filter (·.axis = axis)).map (·.delta)).sum

theorem travelled_cons (axis : Axis) (entry : SampleEntry) (entries : List SampleEntry) :
    travelled axis (entry :: entries) =
      if entry.axis = axis then entry.delta + travelled axis entries
      else travelled axis entries := by
  unfold travelled
  by_cases counted : entry.axis = axis
  · simp [counted]
  · simp [counted]

end SampleEntry

namespace Inspection

open SampleEntry

variable {format : SampleFormat} {bytes : Bytes}

/-- A report that leaves nothing of a buffer out. -/
structure IsAccountOf (format : SampleFormat) (bytes : Bytes) (report : Inspection) : Prop where
  byteLength : report.byteLength = bytes.length
  first : ∀ entry ∈ report.samples.head?, entry.offset = 0 ∧ entry.axis = .lat
  chained : report.samples.IsChain Precedes
  described : ∀ entry ∈ report.samples, entry.Describes format bytes
  /-- A value is what the differences up to it add up to along its axis. -/
  travelled : ∀ before entry after, report.samples = before ++ entry :: after →
    entry.value = SampleEntry.travelled entry.axis (before ++ [entry])
  covered : match report.error with
    | none => (report.samples.map (·.length)).sum = report.byteLength
    | some error =>
      (report.samples.map (·.length)).sum = error.position ∧
        error.position + error.consumed = report.byteLength

/-! ## Entries of samples -/

theorem head?_listing (scale : Binary64) (axis : Axis) (last : GridPoint) (position : Nat)
    (parts : List Bytes) :
    ∀ entry ∈ (listing format scale axis last position parts).head?,
      entry.offset = position ∧ entry.axis = axis := by
  intro entry first
  cases parts with
  | nil => cases first
  | cons part parts =>
    cases first
    exact ⟨rfl, rfl⟩

theorem isChain_listing (scale : Binary64) (axis : Axis) (last : GridPoint) (position : Nat)
    (parts : List Bytes) : (listing format scale axis last position parts).IsChain Precedes := by
  induction parts generalizing axis last position with
  | nil => exact .nil
  | cons part parts ih =>
    refine List.isChain_cons.2 ⟨?_, ih axis.other _ _⟩
    intro next behind
    obtain ⟨offset, turned⟩ := head?_listing scale axis.other _ _ parts next behind
    exact ⟨offset, turned⟩

theorem map_length_listing (scale : Binary64) (axis : Axis) (last : GridPoint) (position : Nat)
    (parts : List Bytes) :
    (listing format scale axis last position parts).map (·.length) = parts.map List.length := by
  induction parts generalizing axis last position with
  | nil => rfl
  | cons part parts ih => exact congrArg (part.length :: ·) (ih axis.other _ _)

/-- Each entry stands for one of the samples, at the place where that sample is. -/
theorem exists_slice_of_mem_listing {entry : SampleEntry} {scale : Binary64} {axis : Axis}
    {last : GridPoint} {position : Nat} {parts : List Bytes} (front tail : Bytes)
    (placed : position = front.length)
    (member : entry ∈ listing format scale axis last position parts) :
    ∃ part ∈ parts, entry.slice (front ++ (parts.flatten ++ tail)) = part ∧
      entry.length = part.length ∧ entry.delta = format.delta part ∧
      entry.offset + part.length ≤ (front ++ (parts.flatten ++ tail)).length := by
  induction parts generalizing axis last position front with
  | nil => cases member
  | cons part parts ih =>
    subst placed
    rcases List.mem_cons.1 member with rfl | later
    · refine ⟨part, List.mem_cons_self, ?_, rfl, rfl, ?_⟩
      · simp [slice]
      · simp
    · obtain ⟨found, inside, sliced, length, delta, bounded⟩ :=
        ih (front ++ part) List.length_append.symm later
      have moved : front ++ part ++ (parts.flatten ++ tail) =
          front ++ ((part :: parts).flatten ++ tail) := by
        simp
      rw [moved] at sliced bounded
      exact ⟨found, List.mem_cons_of_mem part inside, sliced, length, delta, bounded⟩

theorem value_of_listing_eq {scale : Binary64} {axis : Axis} {last : GridPoint} {position : Nat}
    {parts : List Bytes} {before after : List SampleEntry} {entry : SampleEntry}
    (divided : listing format scale axis last position parts = before ++ entry :: after) :
    entry.value = last.get entry.axis + travelled entry.axis (before ++ [entry]) := by
  induction parts generalizing axis last position before with
  | nil =>
    cases before <;> cases divided
  | cons part parts ih =>
    cases before with
    | nil =>
      cases divided
      simp [travelled]
    | cons first before =>
      obtain ⟨rfl, further⟩ := List.cons.inj divided
      have value := ih further
      rw [GridPoint.get_set] at value
      rw [value, List.cons_append, travelled_cons]
      split
      next same =>
        subst same
        exact Int32.add_assoc _ _ _
      next => rfl

/-! ## Entries of a buffer -/

theorem exists_sample_of_mem_samples {precision : Precision} {entry : SampleEntry}
    (member : entry ∈ (ofBytes format precision bytes).samples) :
    ∃ part ∈ format.samples (format.trim bytes), entry.slice (format.trim bytes) = part ∧
      entry.length = part.length ∧ entry.delta = format.delta part ∧
      entry.offset + part.length ≤ (format.trim bytes).length := by
  have whole : [] ++ ((format.samples (format.trim bytes)).flatten ++
      format.remnant (format.trim bytes)) = format.trim bytes :=
    flatten_samples_append_remnant format (format.trim bytes)
  rw [samples_ofBytes] at member
  obtain ⟨part, inside, found⟩ := exists_slice_of_mem_listing [] _ rfl member
  rw [whole] at found
  exact ⟨part, inside, found⟩

theorem describes_of_mem_samples {precision : Precision} {entry : SampleEntry}
    (member : entry ∈ (ofBytes format precision bytes).samples) :
    entry.Describes format (format.trim bytes) := by
  obtain ⟨part, inside, sliced, length, delta, bounded⟩ := exists_sample_of_mem_samples member
  have complete := isSample_of_mem_samples format (format.trim bytes) part inside
  have read := Cursor.readSample_start complete 0
  rw [Int32.zero_add, ← delta, ← length] at read
  refine ⟨?_, ?_, ?_, ?_⟩
  · rw [length]
    exact complete.length_pos
  · rw [length]
    exact bounded
  · rw [sliced]
    exact complete
  · rw [sliced]
    exact read

theorem covered_ofBytes (format : SampleFormat) (precision : Precision) (bytes : Bytes) :
    let report := ofBytes format precision bytes
    match report.error with
    | none => (report.samples.map (·.length)).sum = report.byteLength
    | some error =>
      (report.samples.map (·.length)).sum = error.position ∧
        error.position + error.consumed = report.byteLength := by
  intro report
  have whole := congrArg List.length (flatten_samples_append_remnant format (format.trim bytes))
  have sum : (report.samples.map (·.length)).sum =
      (format.samples (format.trim bytes)).flatten.length := by
    rw [samples_ofBytes, map_length_listing, List.length_flatten]
  have failure : report.error = Shape.failure? format (format.trim bytes) :=
    error_ofBytes format precision bytes
  rw [List.length_append] at whole
  rw [sum, failure]
  unfold Shape.failure?
  split
  next none =>
    split at none
    next closed =>
      rw [closed.1] at whole
      exact whole
    next => cases none
  next error some =>
    split at some
    next => cases some
    next =>
      cases some
      exact ⟨rfl, whole⟩

theorem isAccountOf_ofBytes (format : SampleFormat) (precision : Precision) (bytes : Bytes) :
    (ofBytes format precision bytes).IsAccountOf format (format.trim bytes) where
  byteLength := rfl
  first := by
    rw [samples_ofBytes]
    exact head?_listing _ _ _ _ _
  chained := by
    rw [samples_ofBytes]
    exact isChain_listing _ _ _ _ _
  described _ member := describes_of_mem_samples member
  travelled := by
    intro before entry after divided
    rw [samples_ofBytes] at divided
    have value := value_of_listing_eq divided
    have start : GridPoint.origin.get entry.axis = 0 := by
      cases entry.axis <;> rfl
    rwa [start, Int32.zero_add] at value
  covered := covered_ofBytes format precision bytes

/-! ## Encoded points -/

variable {precision : Precision} {points : List Point}

theorem samples_trim_of_written
    (written : format.trim bytes = PointList.encode format precision points) :
    format.samples (format.trim bytes) =
      (GridPoint.steps .origin (points.map (GridPoint.ofPoint precision.encodeFactor))).map
        format.encode := by
  rw [written]
  exact Shape.samples_encode format precision.encodeFactor points

theorem error_of_written
    (written : format.trim bytes = PointList.encode format precision points) :
    (ofBytes format precision bytes).error = none := by
  have closed : format.remnant (format.trim bytes) = [] := by
    rw [written, PointList.encode, Shape.encode, GridPoint.encodeGrid_eq_flatMap,
      remnant_flatMap_encode]
  rw [error_ofBytes]
  apply Shape.failure?_eq_none_iff.2 ⟨closed, ?_⟩
  rw [samples_trim_of_written written, List.length_map, GridPoint.length_steps]
  exact Nat.mul_mod_right 2 _

theorem slice_eq_encode_of_written
    (written : format.trim bytes = PointList.encode format precision points) {entry : SampleEntry}
    (member : entry ∈ (ofBytes format precision bytes).samples) :
    entry.slice (format.trim bytes) = format.encode entry.delta := by
  obtain ⟨part, inside, sliced, _, delta, _⟩ := exists_sample_of_mem_samples member
  rw [samples_trim_of_written written] at inside
  obtain ⟨difference, _, rfl⟩ := List.mem_map.1 inside
  rw [sliced, delta, delta_encode]

theorem values_of_written
    (written : format.trim bytes = PointList.encode format precision points) :
    (ofBytes format precision bytes).samples.map (fun entry => (entry.axis, entry.value)) =
      points.flatMap fun point =>
        [(.lat, quantize precision.encodeFactor point.lat),
          (.lon, quantize precision.encodeFactor point.lon)] := by
  let grid := points.map (GridPoint.ofPoint precision.encodeFactor)
  have samples := samples_trim_of_written written
  have pairs : 2 * ((format.samples (format.trim bytes)).length / 2) =
      (format.samples (format.trim bytes)).length := by
    rw [samples, List.length_map, GridPoint.length_steps]
    omega
  have entries := take_listing format precision.decodeFactor .origin 0
    (format.samples (format.trim bytes))
  rw [pairs, List.take_of_length_le (length_listing _ _ _ _ _).le, ← samples_ofBytes, samples,
    map_delta_map_encode, GridPoint.trace_steps] at entries
  have projected := congrArg (List.map fun entry : Axis × Int32 × Binary64 => (entry.1, entry.2.1))
    entries
  rw [List.map_map, List.map_flatMap, List.flatMap_map] at projected
  exact projected

/-- A report accounts for every byte of a buffer, apart from blanks that end a text. Of encoded
points it lists the differences as they were written and the samples that they lead to. -/
theorem accounts_for_buffer (format : SampleFormat) (precision : Precision) (bytes : Bytes) :
    let report := ofBytes format precision bytes
    let encoded := format.trim bytes
    report.IsAccountOf format encoded ∧
    ∀ points : List Point, encoded = PointList.encode format precision points →
      report.error = none ∧
      report.pointCount = points.length ∧
      (∀ entry ∈ report.samples, entry.slice encoded = format.encode entry.delta) ∧
      report.samples.map (fun entry => (entry.axis, entry.value)) =
        points.flatMap fun point =>
          [(.lat, quantize precision.encodeFactor point.lat),
            (.lon, quantize precision.encodeFactor point.lon)] := by
  intro report encoded
  refine ⟨isAccountOf_ofBytes format precision bytes, ?_⟩
  intro points written
  have counted : report.pointCount = (format.samples encoded).length / 2 :=
    pointCount_ofBytes format precision bytes
  have length : (format.samples encoded).length = 2 * points.length := by
    rw [samples_trim_of_written written, List.length_map, GridPoint.length_steps, List.length_map]
  refine ⟨error_of_written written, ?_, ?_, values_of_written written⟩
  · omega
  · intro entry member
    exact slice_eq_encode_of_written written member

/-- Two points of which the second one differs by -1 in its longitude alone, and a line feed. -/
theorem accounts_for_buffer_lineFeed :
    let points : List Point :=
      [⟨5, 5⟩, ⟨5, 4⟩].map (GridPoint.toPoint Precision.polyline5.decodeFactor)
    let report := ofBytes .varint5 .polyline5 [73, 73, 63, 64, 10]
    SampleFormat.trim .varint5 [73, 73, 63, 64, 10] = PointList.encode .varint5 .polyline5 points ∧
      report.byteLength = 4 ∧ report.error = none ∧ report.pointCount = 2 := by
  intro points report
  have steps : GridPoint.steps .origin [⟨5, 5⟩, ⟨5, 4⟩] = [5, 5, 0, -1] := by decide
  have written : SampleFormat.trim .varint5 [73, 73, 63, 64, 10] =
      PointList.encode .varint5 .polyline5 points := by
    have single (difference : Int32) (byte : UInt8)
        (final : finalByte .varint5 (ZigZag.encode difference) = byte)
        (few : hasMore .varint5 (ZigZag.encode difference) = false) :
        SampleFormat.encode .varint5 difference = [byte] := by
      rw [SampleFormat.encode, encodeCode_of_not_hasMore few, final]
    rw [PointList.encode_map_toPoint, steps]
    simp only [List.flatMap_cons, List.flatMap_nil, single 5 73 (by decide) (by decide),
      single 0 63 (by decide) (by decide), single (-1) 64 (by decide) (by decide)]
    decide
  obtain ⟨account, encoded⟩ := accounts_for_buffer .varint5 .polyline5 [73, 73, 63, 64, 10]
  obtain ⟨error, count, _⟩ := encoded points written
  exact ⟨written, account.byteLength.trans (by decide), error, count⟩

end Inspection

end Polyline
