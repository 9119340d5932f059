import Polyline.Proofs.Acceptance
import Polyline.Proofs.Shape.Axes

/-! Two buffers whose terminators stand at the same places and that differ within one sample. Both
are divided and accepted alike. On the axis of that sample the values from it on are moved by one and
the same distance, and no other value is moved. -/

set_option autoImplicit false

namespace Polyline

open SampleFormat

/-! ## Damaged buffers -/

namespace SampleFormat

/-- The number of the sample that a byte of a buffer belongs to, counted from zero. Each terminator
in front of the byte ends one sample. -/
def sampleAt (format : SampleFormat) (bytes : Bytes) (place : Nat) : Nat :=
  ((format.marks bytes).take place).count true

variable {format : SampleFormat}

theorem samples_cons_of_terminator {byte : UInt8} (terminates : format.isTerminator byte = true)
    (rest : Bytes) : format.samples (byte :: rest) = [byte] :: format.samples rest := by
  rw [samples, if_pos terminates]

theorem samples_cons_of_not_terminator {byte : UInt8}
    (continues : format.isTerminator byte = false) (rest : Bytes) :
    format.samples (byte :: rest) = (format.samples rest).modifyHead (byte :: ·) := by
  rw [samples, continues, if_neg Bool.false_ne_true]
  cases format.samples rest <;> rfl

theorem sampleAt_cons_succ (byte : UInt8) (rest : Bytes) (place : Nat) :
    format.sampleAt (byte :: rest) (place + 1) =
      format.sampleAt rest place + if format.isTerminator byte then 1 else 0 := by
  rw [sampleAt, marks_eq_map_isTerminator, List.map_cons, List.take_succ_cons, List.count_cons,
    ← marks_eq_map_isTerminator]
  cases format.isTerminator byte <;> rfl

/-- Bytes that differ within one sample alone, behind the same terminators, leave all other samples
as they are. -/
theorem getElem?_samples_of_damaged {bytes others : Bytes} {index : Nat}
    (framed : format.marks others = format.marks bytes)
    (damaged : ∀ place, others[place]? ≠ bytes[place]? → format.sampleAt bytes place = index)
    {place : Nat} (intact : place ≠ index) :
    (format.samples others)[place]? = (format.samples bytes)[place]? := by
  rw [marks_eq_map_isTerminator, marks_eq_map_isTerminator] at framed
  induction bytes generalizing others index place with
  | nil => rw [List.map_eq_nil_iff.1 framed]
  | cons byte bytes ih =>
    cases others with
    | nil => cases framed
    | cons other others =>
      obtain ⟨same, framedRest⟩ := List.cons.inj framed
      have front (later : index ≠ 0) : other = byte := by
        by_contra different
        exact later (damaged 0 (by simpa using different)).symm
      have behind (place : Nat) (differs : others[place]? ≠ bytes[place]?) :
          format.sampleAt bytes place + (if format.isTerminator byte then 1 else 0) = index := by
        rw [← sampleAt_cons_succ]
        exact damaged (place + 1) differs
      cases terminates : format.isTerminator byte with
      | true =>
        rw [terminates] at same behind
        rw [samples_cons_of_terminator same, samples_cons_of_terminator terminates]
        cases index with
        | zero =>
          -- Nothing behind the first sample may differ.
          have equal : others = bytes := by
            apply List.ext_getElem?
            intro place
            by_contra differs
            cases behind place differs
          cases place with
          | zero => cases intact rfl
          | succ place => rw [equal]; rfl
        | succ index =>
          have head := front (Nat.succ_ne_zero index)
          cases place with
          | zero => rw [head]; rfl
          | succ place =>
            have rest : ∀ place, others[place]? ≠ bytes[place]? →
                format.sampleAt bytes place = index :=
              fun place differs => Nat.succ.inj (behind place differs)
            exact ih framedRest rest fun equal => intact (congrArg Nat.succ equal)
      | false =>
        rw [terminates] at same behind
        have rest := ih framedRest behind intact
        rw [samples_cons_of_not_terminator same, samples_cons_of_not_terminator terminates,
          List.getElem?_modifyHead, List.getElem?_modifyHead, rest]
        split
        next first =>
          rw [front (first ▸ intact.symm)]
        next => rfl

end SampleFormat

/-! ## Values from a changed difference on -/

namespace Series

theorem trace_add (last shift : Int32) (differences : List Int32) :
    trace (last + shift) differences = (trace last differences).map (· + shift) := by
  induction differences generalizing last with
  | nil => rfl
  | cons step rest ih =>
    have moved : last + shift + step = last + step + shift := by
      rw [Int32.add_assoc, Int32.add_comm shift, ← Int32.add_assoc]
    rw [trace, moved, ih, trace, List.map_cons]

/-- A changed difference moves the values from it on, all of them as far. -/
theorem trace_of_changed {differences others : List Int32} {index : Nat}
    (length : others.length = differences.length)
    (same : ∀ place, place ≠ index → others[place]? = differences[place]?) (last : Int32) :
    (trace last others).take index = (trace last differences).take index ∧
      ∃ shift : Int32, (trace last others).drop index =
        ((trace last differences).drop index).map (· + shift) := by
  induction differences generalizing others index last with
  | nil =>
    rw [List.length_eq_zero_iff.1 length]
    exact ⟨rfl, 0, by cases index <;> rfl⟩
  | cons step rest ih =>
    cases others with
    | nil => cases length
    | cons other others =>
      have lengthRest := Nat.succ.inj length
      cases index with
      | zero =>
        have equal : others = rest := by
          apply List.ext_getElem?
          intro place
          exact same (place + 1) (Nat.succ_ne_zero place)
        have reached : last + other = last + step + (other - step) := by
          rw [Int32.add_assoc, Int32.add_comm step, Int32.sub_add_cancel]
        refine ⟨rfl, other - step, ?_⟩
        rw [equal, trace, reached, trace_add]
        rfl
      | succ index =>
        have head : other = step := by simpa using same 0 (Nat.succ_ne_zero index).symm
        have behind : ∀ place, place ≠ index → others[place]? = rest[place]? :=
          fun place intact => same (place + 1) (fun equal => intact (Nat.succ.inj equal))
        obtain ⟨front, shift, back⟩ := ih lengthRest behind (last + step)
        subst head
        refine ⟨congrArg ((last + other) :: ·) front, shift, back⟩

end Series

/-! ## Axes -/

namespace Axis

/-- The axis of a sample, by the number of samples in front of it. -/
def ofPlace (place : Nat) : Axis := if place % 2 = 0 then .lat else .lon

/-- The number of samples of a point in front of the one on an axis. -/
def offset : Axis → Nat
  | .lat => 0
  | .lon => 1

theorem getElem?_pieces {α : Type} (axis : Axis) (items : List α) (place : Nat) :
    (axis.pieces items)[place]? = items[2 * place + axis.offset]? := by
  induction items generalizing axis place with
  | nil => cases axis <;> rfl
  | cons item items ih =>
    cases axis with
    | lat =>
      cases place with
      | zero => rfl
      | succ place => exact ih .lon place
    | lon => exact ih .lat place

/-- On the other axis no item is changed. -/
theorem pieces_other_of_changed {α : Type} {items others : List α} {index : Nat}
    (same : ∀ place, place ≠ index → others[place]? = items[place]?) :
    (ofPlace index).other.pieces others = (ofPlace index).other.pieces items := by
  apply List.ext_getElem?
  intro place
  rw [getElem?_pieces, getElem?_pieces]
  apply same
  unfold ofPlace
  split
  next => simp only [other, offset]; omega
  next => simp only [other, offset]; omega

theorem getElem?_pieces_of_changed {α : Type} {items others : List α} {index : Nat}
    (same : ∀ place, place ≠ index → others[place]? = items[place]?) {place : Nat}
    (intact : place ≠ index / 2) :
    ((ofPlace index).pieces others)[place]? = ((ofPlace index).pieces items)[place]? := by
  rw [getElem?_pieces, getElem?_pieces]
  apply same
  unfold ofPlace
  split
  next => simp only [offset]; omega
  next => simp only [offset]; omega

theorem length_pieces_congr {α : Type} (axis : Axis) {items others : List α}
    (length : others.length = items.length) :
    (axis.pieces others).length = (axis.pieces items).length := by
  induction items generalizing axis others with
  | nil => rw [List.length_eq_zero_iff.1 length]
  | cons item items ih =>
    cases others with
    | nil => cases length
    | cons other others =>
      have rest := Nat.succ.inj length
      cases axis with
      | lat => exact congrArg Nat.succ (ih .lon rest)
      | lon => exact ih .lat rest

end Axis

namespace Shape

variable {format : SampleFormat} {bytes others : Bytes} {index : Nat}

theorem failure?_congr_marks (framed : format.marks others = format.marks bytes) :
    failure? format others = failure? format bytes := by
  have length : others.length = bytes.length := by
    have marked := congrArg List.length framed
    rwa [marks, marks, List.length_map, List.length_map] at marked
  have closed : format.remnant others = [] ↔ format.remnant bytes = [] := by
    rw [remnant_eq_nil_iff, remnant_eq_nil_iff, framed, length]
  unfold failure?
  rw [length_samples, length_samples, length_flatten_samples, length_flatten_samples,
    length_remnant, length_remnant, framed, length, if_congr (and_congr_left' closed) rfl rfl]

/-- The values along an axis are the series of its own differences. -/
theorem map_get_grid (accepted : failure? format bytes = none) (axis : Axis) :
    (grid format bytes).map (·.get axis) =
      Series.trace 0 (axis.pieces ((format.samples bytes).map format.delta)) := by
  obtain ⟨_, even⟩ := failure?_eq_none_iff.1 accepted
  have start : GridPoint.origin.get axis = 0 := by
    cases axis <;> rfl
  rw [grid, GridPoint.map_get_trace axis .origin (by rwa [List.length_map]), start]

/-- A buffer that is damaged within one sample, without a terminator lost or gained, fails as it did
before or decodes to as many points as before. Of these the values on the other axis and those in
front of the sample are kept, and the values from it on are all moved by the same distance. -/
theorem damage_stays_local {point sequence : Type} [OfLonLat point] [PointSequence sequence point]
    (precision : Binary64) (framed : format.marks others = format.marks bytes)
    (damaged : ∀ place, others[place]? ≠ bytes[place]? → format.sampleAt bytes place = index) :
    let axis := Axis.ofPlace index
    let along (axis : Axis) (buffer : Bytes) : List Int32 :=
      (grid format buffer).map (·.get axis)
    match (decodeInto format precision bytes : Except MalformedStream sequence) with
    | .error error =>
      (decodeInto format precision others : Except MalformedStream sequence) = .error error
    | .ok decoded =>
      ∃ further : sequence, decodeInto format precision others = .ok further ∧
        (PointSequence.toList further).length = (PointSequence.toList decoded).length ∧
        PointSequence.toList decoded = (grid format bytes).map (GridPoint.toPoint precision) ∧
        PointSequence.toList further = (grid format others).map (GridPoint.toPoint precision) ∧
        along axis.other others = along axis.other bytes ∧
        (along axis others).take (index / 2) = (along axis bytes).take (index / 2) ∧
        ∃ shift : Int32, (along axis others).drop (index / 2) =
          ((along axis bytes).drop (index / 2)).map (· + shift) := by
  intro axis along
  have failing := failure?_congr_marks framed
  cases outcome : (decodeInto format precision bytes : Except MalformedStream sequence) with
  | error error =>
    apply decodeInto_eq_error_iff.2
    rw [failing]
    exact decodeInto_eq_error_iff.1 outcome
  | ok decoded =>
    obtain ⟨accepted, points⟩ := decodeInto_eq_ok outcome
    have otherAccepted : failure? format others = none := failing.trans accepted
    obtain ⟨further, otherOutcome, otherPoints⟩ :
        ∃ further : sequence, decodeInto format precision others = .ok further ∧ _ :=
      exists_decodeInto_eq_ok otherAccepted precision
    have length : (format.samples others).length = (format.samples bytes).length := by
      rw [length_samples, length_samples, framed]
    have same (place : Nat) (intact : place ≠ index) :
        ((format.samples others).map format.delta)[place]? =
          ((format.samples bytes).map format.delta)[place]? := by
      rw [List.getElem?_map, List.getElem?_map, getElem?_samples_of_damaged framed damaged intact]
    have lengthPieces : (axis.pieces ((format.samples others).map format.delta)).length =
        (axis.pieces ((format.samples bytes).map format.delta)).length :=
      Axis.length_pieces_congr axis (by rw [List.length_map, List.length_map, length])
    obtain ⟨front, back⟩ := Series.trace_of_changed lengthPieces
      (fun place intact => Axis.getElem?_pieces_of_changed same intact) 0
    refine ⟨further, otherOutcome, ?_, points, otherPoints, ?_, ?_, ?_⟩
    · rw [points, otherPoints, grid, grid]
      simp [length]
    · simp only [along]
      rw [map_get_grid otherAccepted, map_get_grid accepted, Axis.pieces_other_of_changed same]
    · simp only [along]
      rw [map_get_grid otherAccepted, map_get_grid accepted]
      exact front
    · simp only [along]
      rw [map_get_grid otherAccepted, map_get_grid accepted]
      exact back

/-- One group of the first longitude is changed, which moves the second longitude as well. -/
theorem damage_stays_local_group :
    let precision := Precision.polyline5.decodeFactor
    let bytes : Bytes := [65, 96, 66, 64, 66]
    let others : Bytes := [65, 100, 66, 64, 66]
    ∃ decoded further : List Point,
      decodeInto .varint5 precision bytes = .ok decoded ∧
      decodeInto .varint5 precision others = .ok further ∧
      further.length = decoded.length ∧
      (grid .varint5 others).map (·.lat) = (grid .varint5 bytes).map (·.lat) ∧
      ∃ shift : Int32, (grid .varint5 others).map (·.lon) =
        ((grid .varint5 bytes).map (·.lon)).map (· + shift) := by
  intro precision bytes others
  have framed : marks .varint5 others = marks .varint5 bytes := by decide
  have damaged : ∀ place, others[place]? ≠ bytes[place]? → sampleAt .varint5 bytes place = 1 := by
    intro place differs
    match place with
    | 1 => decide
    | 0 | 2 | 3 | 4 | _ + 5 => exact absurd rfl differs
  obtain ⟨decoded, accepted, _⟩ : ∃ decoded : List Point,
      decodeInto .varint5 precision bytes = .ok decoded ∧ _ :=
    exists_decodeInto_eq_ok (by decide) precision
  have kept := @damage_stays_local .varint5 bytes others 1 Point (List Point) _ _ precision framed
    damaged
  rw [accepted] at kept
  obtain ⟨further, otherAccepted, count, _, _, latitudes, _, shift, longitudes⟩ := kept
  exact ⟨decoded, further, accepted, otherAccepted, count, latitudes, shift, longitudes⟩

end Shape

end Polyline
