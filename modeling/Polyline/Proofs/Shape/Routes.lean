import Polyline.Proofs.Shape.Decoding

/-! The ways to decode a buffer: all at once into a sequence, point by point while bytes are left,
and by iteration. They come upon the same points and stop at the same failure. -/

set_option autoImplicit false

namespace Polyline

namespace Decoder

variable {point : Type}

theorem gather_map_ok_append (points : List point) (failure : Option MalformedStream) :
    gather (points.map .ok ++ (failure.map .error).toList) =
      failure.elim (.ok points) .error := by
  unfold gather
  induction points with
  | nil => cases failure <;> rfl
  | cons next points ih =>
    rw [List.map_cons, List.cons_append, List.mapM_cons, ih]
    cases failure <;> rfl

/-! ## Iteration -/

variable [OfLonLat point]

theorem pop_failed (decoder : Decoder) :
    (decoder.pop : Except MalformedStream point × Decoder).2.failed = decoder.failed := by
  change decoder.popGrid.2.failed = decoder.failed
  unfold popGrid
  split
  · rfl
  · split <;> rfl

theorem next?_of_isEmpty {decoder : Decoder} (empty : decoder.isEmpty = true) :
    (decoder.next? : Option (Except MalformedStream point × Decoder)) = none := by
  rw [next?, empty, Bool.or_true, if_pos rfl]

theorem next?_of_failed {decoder : Decoder} (stopped : decoder.failed = true) :
    (decoder.next? : Option (Except MalformedStream point × Decoder)) = none := by
  rw [next?, stopped, Bool.true_or, if_pos rfl]

theorem next?_of_ok {decoder after : Decoder} {next : point} (unread : decoder.isEmpty = false)
    (intact : decoder.failed = false) (popped : decoder.pop = (.ok next, after)) :
    decoder.next? = some (.ok next, after) := by
  have kept : (decoder.pop : Except MalformedStream point × Decoder).2.failed = false :=
    (pop_failed decoder).trans intact
  rw [popped] at kept
  obtain ⟨format, precision, cursor, last, failed⟩ := after
  cases kept
  rw [next?, unread, intact, Bool.or_false, if_neg Bool.false_ne_true, popped]
  rfl

/-- A failure stops the iteration, not only the reading. -/
theorem next?_of_error {decoder after : Decoder} {error : MalformedStream}
    (unread : decoder.isEmpty = false) (intact : decoder.failed = false)
    (popped : (decoder.pop : Except MalformedStream point × Decoder) = (.error error, after)) :
    (decoder.next? : Option (Except MalformedStream point × Decoder)) =
      some (.error error, { after with failed := true }) := by
  rw [next?, unread, intact, Bool.or_false, if_neg Bool.false_ne_true, popped]
  rfl

theorem drain_of_next?_eq_none {decoder : Decoder}
    (finished : (decoder.next? : Option (Except MalformedStream point × Decoder)) = none) :
    (decoder.drain : List (Except MalformedStream point) × Decoder).1 = [] := by
  rw [drain]
  split
  next => rfl
  next taken =>
    rw [finished] at taken
    cases taken

theorem drain_of_next?_eq_some {decoder after : Decoder} {item : Except MalformedStream point}
    (taken : decoder.next? = some (item, after)) :
    (decoder.drain : List (Except MalformedStream point) × Decoder).1 =
      item :: (after.drain : List (Except MalformedStream point) × Decoder).1 := by
  rw [drain]
  split
  next finished =>
    rw [taken] at finished
    cases finished
  next taken' =>
    rw [taken] at taken'
    cases taken'
    rfl

/-- A drained iteration lists the points that are popped while bytes are left and behind them, once,
the failure that ended them. -/
theorem drain_eq_popEach {decoder : Decoder} (intact : decoder.failed = false) :
    let popped : List point × Option MalformedStream := decoder.popEach
    (decoder.drain : List (Except MalformedStream point) × Decoder).1 =
      popped.1.map .ok ++ (popped.2.map .error).toList := by
  fun_induction popEach with
  | case1 decoder empty => exact drain_of_next?_eq_none (next?_of_isEmpty empty)
  | case2 decoder unread popped error failing =>
    have taken := next?_of_error (Bool.eq_false_iff.2 unread) intact
      (show decoder.pop = (.error error, popped.2) from Prod.ext failing rfl)
    rw [drain_of_next?_eq_some taken, drain_of_next?_eq_none (next?_of_failed rfl)]
    rfl
  | case3 decoder unread popped next succeeding ih =>
    have taken := next?_of_ok (Bool.eq_false_iff.2 unread) intact
      (show decoder.pop = (.ok next, popped.2) from Prod.ext succeeding rfl)
    have kept : popped.2.failed = false := (pop_failed decoder).trans intact
    rw [drain_of_next?_eq_some taken, ih kept]
    rfl

end Decoder

/-- Whatever points are gathered in and whatever type they have, decoding as a whole gives what the
decoder's points make up, popped one by one or iterated, and iteration lists exactly those points
and, once and last, the failure that all ways report. -/
theorem decoding_routes_agree {point sequence : Type} [OfLonLat point]
    [PointSequence sequence point] (format : SampleFormat) (precision : Binary64) (bytes : Bytes) :
    let decoder := Decoder.start format precision bytes
    let decoded : Except MalformedStream (List point) :=
      (Shape.decodeInto format precision bytes : Except MalformedStream sequence).map
        PointSequence.toList
    let pairs : Except MalformedStream (List (Binary64 × Binary64)) :=
      Shape.decode format precision bytes
    let popped : List point × Option MalformedStream := decoder.popEach
    let items : List (Except MalformedStream point) := decoder.drain.1
    decoded = pairs.map (List.map fun pair => OfLonLat.ofLonLat pair.1 pair.2) ∧
      decoded = popped.2.elim (.ok popped.1) .error ∧
      decoded = Decoder.gather items ∧
      items = popped.1.map .ok ++ (popped.2.map .error).toList := by
  intro decoder decoded pairs popped items
  have start : popped = (Shape.points format precision bytes, Shape.failure? format bytes) :=
    Shape.popEach_start format precision bytes
  have whole : decoded = popped.2.elim (.ok popped.1) .error := by
    rw [start]
    exact Shape.map_toList_decodeInto_eq_elim format precision bytes
  have iterated : items = popped.1.map .ok ++ (popped.2.map .error).toList :=
    Decoder.drain_eq_popEach rfl
  have retyped : (Shape.points format precision bytes : List point) =
      (Shape.points format precision bytes).map fun pair : Binary64 × Binary64 =>
        OfLonLat.ofLonLat pair.1 pair.2 := by
    rw [Shape.points, Shape.points, List.map_map]
    rfl
  refine ⟨?_, whole, ?_, iterated⟩
  · change decoded = (Shape.decode format precision bytes).map _
    rw [whole, start, Shape.decode_eq_elim, retyped]
    cases Shape.failure? format bytes <;> rfl
  · rw [whole, iterated, Decoder.gather_map_ok_append]

end Polyline
