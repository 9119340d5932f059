import Polyline.Proofs.Acceptance
import Polyline.Proofs.Shape.Routes

/-! A decoder that is asked for points by `pop` and `next?` in any order. Up to the first failure it
stands between two points, and from then on at the end of the buffer, where no call moves it. -/

set_option autoImplicit false

namespace Polyline

open SampleFormat

namespace Decoder

/-- The two ways to ask a decoder for a point. -/
inductive Call where
  | pop
  | next
  deriving DecidableEq

/-- Calls with their answers. Only a `next` may be answered by nothing. -/
abbrev Log (point : Type) := List (Call × Option (Except MalformedStream point))

namespace Log

variable {point : Type}

def points (log : Log point) : List point := log.filterMap fun entry => entry.2.bind Except.toOption

def failures (log : Log point) : List (Call × MalformedStream) :=
  log.filterMap fun entry =>
    match entry.2 with
    | some (.error error) => some (entry.1, error)
    | _ => none

theorem points_append (log further : Log point) :
    points (log ++ further) = log.points ++ further.points := List.filterMap_append

theorem failures_append (log further : Log point) :
    failures (log ++ further) = log.failures ++ further.failures := List.filterMap_append

end Log

section Answers

variable {point : Type} [OfLonLat point]

def answer (decoder : Decoder) : Call → Option (Except MalformedStream point) × Decoder
  | .pop =>
    let popped : Except MalformedStream point × Decoder := decoder.pop
    (some popped.1, popped.2)
  | .next =>
    match (decoder.next? : Option (Except MalformedStream point × Decoder)) with
    | none => (none, decoder)
    | some (item, after) => (some item, after)

def run (decoder : Decoder) : List Call → Log point × Decoder
  | [] => ([], decoder)
  | call :: calls =>
    let answered : Option (Except MalformedStream point) × Decoder := decoder.answer call
    let further : Log point × Decoder := answered.2.run calls
    ((call, answered.1) :: further.1, further.2)

variable {decoder after : Decoder}

theorem answer_pop_of_eq {item : Except MalformedStream point}
    (popped : decoder.pop = (item, after)) : decoder.answer .pop = (some item, after) := by
  rw [answer, popped]

theorem answer_next_of_eq_some {item : Except MalformedStream point}
    (taken : decoder.next? = some (item, after)) : decoder.answer .next = (some item, after) := by
  rw [answer, taken]

theorem answer_of_ok {next : point} (unread : decoder.isEmpty = false)
    (intact : decoder.failed = false) (popped : decoder.pop = (.ok next, after)) (call : Call) :
    decoder.answer call = (some (.ok next), after) := by
  cases call with
  | pop => exact answer_pop_of_eq popped
  | next => exact answer_next_of_eq_some (next?_of_ok unread intact popped)

theorem answer_next_of_eq_none
    (finished : (decoder.next? : Option (Except MalformedStream point × Decoder)) = none) :
    (decoder.answer .next : Option (Except MalformedStream point) × Decoder) = (none, decoder) := by
  rw [answer, finished]

/-! ## Moving forward -/

theorem popGrid_leadsTo (decoder : Decoder) : decoder.cursor.LeadsTo decoder.popGrid.2.cursor := by
  have first := Cursor.readSample_leadsTo decoder.format decoder.last.lat decoder.cursor
  unfold popGrid
  split
  next equal => rwa [equal] at first
  next cursor equal =>
    have second := Cursor.readSample_leadsTo decoder.format decoder.last.lon cursor
    rw [equal] at first
    split
    next inner =>
      rw [inner] at second
      exact first.trans second
    next inner =>
      rw [inner] at second
      exact first.trans second

theorem next?_leadsTo {item : Except MalformedStream point}
    (taken : decoder.next? = some (item, after)) : decoder.cursor.LeadsTo after.cursor := by
  unfold next? at taken
  split at taken
  next => cases taken
  next =>
    cases taken
    exact popGrid_leadsTo decoder

theorem answer_leadsTo (decoder : Decoder) (call : Call) :
    decoder.cursor.LeadsTo
      (decoder.answer call : Option (Except MalformedStream point) × Decoder).2.cursor := by
  cases call with
  | pop => exact popGrid_leadsTo decoder
  | next =>
    rw [answer]
    split
    next => exact .refl decoder.cursor
    next taken => exact next?_leadsTo taken

theorem run_leadsTo (decoder : Decoder) (calls : List Call) :
    decoder.cursor.LeadsTo (decoder.run calls : Log point × Decoder).2.cursor := by
  induction calls generalizing decoder with
  | nil => exact .refl decoder.cursor
  | cons call calls ih => exact (answer_leadsTo decoder call).trans (ih _)

end Answers

/-! ## The two kinds of states -/

section States

variable {format : SampleFormat} {precision : Binary64} {bytes : Bytes}

/-- A decoder behind the samples `done`, which make up points, and in front of the others. -/
def between (format : SampleFormat) (precision : Binary64) (done parts : List Bytes)
    (tail : Bytes) : Decoder where
  format := format
  precision := precision
  cursor := ⟨done.flatten.length, parts.flatten ++ tail⟩
  last := (GridPoint.trace .origin (done.map format.delta)).getLastD .origin
  failed := false

/-- A decoder that has nothing left of a buffer, after a failure. -/
def spent (format : SampleFormat) (precision : Binary64) (bytes : Bytes) (failed : Bool) :
    Decoder where
  format := format
  precision := precision
  cursor := ⟨bytes.length, []⟩
  last := (Shape.grid format bytes).getLastD .origin
  failed := failed

theorem isEmpty_between_cons {lat : Bytes} (latitude : format.IsSample lat)
    (done parts : List Bytes) (tail : Bytes) :
    (between format precision done (lat :: parts) tail).isEmpty = false := by
  simp [between, isEmpty, Cursor.isEmpty, latitude.ne_nil]

theorem isSample_of_append_eq_samples {done parts : List Bytes}
    (divided : done ++ parts = format.samples bytes) :
    (∀ part ∈ done, format.IsSample part) ∧ ∀ part ∈ parts, format.IsSample part := by
  rw [← List.forall_mem_append, divided]
  exact isSample_of_mem_samples format bytes

/-- The points of samples go on where those in front of them end, if no point is cut in two. -/
theorem trace_map_append {done : List Bytes} (even : done.length % 2 = 0) (parts : List Bytes) :
    let last := (GridPoint.trace .origin (done.map format.delta)).getLastD .origin
    GridPoint.trace .origin ((done ++ parts).map format.delta) =
      GridPoint.trace .origin (done.map format.delta) ++
        GridPoint.trace last (parts.map format.delta) := by
  intro last
  have evenDeltas : (done.map format.delta).length % 2 = 0 := by rwa [List.length_map]
  rw [List.map_append, GridPoint.trace_append _ evenDeltas]

theorem trace_concat {done : List Bytes} (even : done.length % 2 = 0) (lat lon : Bytes) :
    let last := (GridPoint.trace .origin (done.map format.delta)).getLastD .origin
    GridPoint.trace .origin ((done ++ [lat, lon]).map format.delta) =
      GridPoint.trace .origin (done.map format.delta) ++
        [⟨last.lat + format.delta lat, last.lon + format.delta lon⟩] :=
  trace_map_append even [lat, lon]

theorem eq_nil_or_singleton_of_length_lt_two {parts : List Bytes} (short : parts.length < 2) :
    parts = [] ∨ ∃ lat, parts = [lat] := by
  cases parts with
  | nil => exact .inl rfl
  | cons lat further =>
    have nothing : further.length < 1 := Nat.lt_of_succ_lt_succ short
    exact .inr ⟨lat, congrArg _ (List.eq_nil_of_length_eq_zero (Nat.lt_one_iff.1 nothing))⟩

/-- What is too short for a point adds nothing to the points of the samples in front of it. -/
theorem grid_eq_of_short {done parts : List Bytes} (divided : done ++ parts = format.samples bytes)
    (even : done.length % 2 = 0) (short : parts.length < 2) :
    Shape.grid format bytes = GridPoint.trace .origin (done.map format.delta) := by
  rw [Shape.grid, ← divided, trace_map_append even]
  obtain rfl | ⟨lat, rfl⟩ := eq_nil_or_singleton_of_length_lt_two short
  · exact List.append_nil _
  · exact List.append_nil _

variable {point : Type} [OfLonLat point]

theorem pop_between_cons_cons {done parts : List Bytes} {lat lon tail : Bytes}
    (even : done.length % 2 = 0) (latitude : format.IsSample lat)
    (longitude : format.IsSample lon) :
    let last := (GridPoint.trace .origin (done.map format.delta)).getLastD .origin
    (pop (between format precision done (lat :: lon :: parts) tail) :
        Except MalformedStream point × Decoder) =
      (.ok (GridPoint.toPoint precision
          ⟨last.lat + format.delta lat, last.lon + format.delta lon⟩),
        between format precision (done ++ [lat, lon]) parts tail) := by
  intro last
  have popped := popGrid_append latitude longitude precision last false done.flatten.length
    (parts.flatten ++ tail)
  have moved : (done ++ [lat, lon]).flatten.length =
      done.flatten.length + lat.length + lon.length := by
    simp [Nat.add_assoc]
  rw [pop, between, List.flatten_cons, List.flatten_cons, List.append_assoc, List.append_assoc,
    popped, between, moved, trace_concat even, List.getLastD_concat]
  rfl

theorem pop_between_of_short {done parts : List Bytes}
    (divided : done ++ parts = format.samples bytes) (even : done.length % 2 = 0)
    (short : parts.length < 2) :
    (pop (between format precision done parts (format.remnant bytes)) :
        Except MalformedStream point × Decoder) =
      (.error ⟨(format.samples bytes).flatten.length, (format.remnant bytes).length⟩,
        spent format precision bytes false) := by
  have last := grid_eq_of_short divided even short
  have closed : (format.samples bytes).flatten.length =
      done.flatten.length + parts.flatten.length := by
    rw [← divided, List.flatten_append, List.length_append]
  have whole : (format.samples bytes).flatten.length + (format.remnant bytes).length =
      bytes.length := by
    rw [← List.length_append, flatten_samples_append_remnant]
  have opened := isOpen_remnant format bytes
  rw [pop, between, spent, last, ← whole, closed]
  obtain rfl | ⟨lat, rfl⟩ := eq_nil_or_singleton_of_length_lt_two short
  · rw [List.flatten_nil, List.nil_append, popGrid_of_isOpen opened]
    rfl
  · have latitude : format.IsSample lat :=
      (isSample_of_append_eq_samples divided).2 lat (List.mem_singleton_self lat)
    rw [List.flatten_singleton, popGrid_missing latitude opened]
    rfl

theorem pop_spent (failed : Bool) :
    (pop (spent format precision bytes failed) : Except MalformedStream point × Decoder) =
      (.error ⟨bytes.length, 0⟩, spent format precision bytes failed) := by
  rw [pop, spent, popGrid_of_isOpen isOpen_nil]
  rfl

theorem next?_spent (failed : Bool) :
    (next? (spent format precision bytes failed) :
      Option (Except MalformedStream point × Decoder)) = none := next?_of_isEmpty rfl

/-- How a call is answered where nothing is left to read. -/
def Call.refusal (length : Nat) : Call → Option (Except MalformedStream point)
  | .pop => some (.error ⟨length, 0⟩)
  | .next => none

theorem answer_spent (failed : Bool) (call : Call) :
    (answer (spent format precision bytes failed) call :
        Option (Except MalformedStream point) × Decoder) =
      (call.refusal bytes.length, spent format precision bytes failed) := by
  cases call with
  | pop => exact answer_pop_of_eq (pop_spent failed)
  | next => exact answer_next_of_eq_none (next?_spent failed)

/-! ## Runs -/

/-- How far calls have come: they either took the points of the samples `done` and met no failure,
or took all points and met one, which `next` reports at most once. -/
inductive Progress (format : SampleFormat) (precision : Binary64) (bytes : Bytes) :
    Log point → Decoder → Prop where
  | between {log done parts} :
      done ++ parts = format.samples bytes → done.length % 2 = 0 →
      log.points =
        (GridPoint.trace .origin (done.map format.delta)).map (GridPoint.toPoint precision) →
      log.failures = [] →
      Progress format precision bytes log
        (between format precision done parts (format.remnant bytes))
  | spent {log failed} :
      log.points = Shape.points format precision bytes →
      log.failures ≠ [] →
      log.failures.countP (·.1 = .next) ≤ 1 →
      Progress format precision bytes log (spent format precision bytes failed)

theorem Progress.start (format : SampleFormat) (precision : Binary64) (bytes : Bytes) :
    Progress format precision bytes ([] : Log point) (start format precision bytes) := by
  have opened : Decoder.start format precision bytes =
      Decoder.between format precision [] (format.samples bytes) (format.remnant bytes) := by
    rw [Decoder.between, flatten_samples_append_remnant]
    rfl
  rw [opened]
  exact .between rfl rfl rfl rfl

variable {log : Log point} {decoder : Decoder}

/-- A first failure comes with all points taken. -/
private theorem Progress.fail {done parts : List Bytes}
    (divided : done ++ parts = format.samples bytes) (even : done.length % 2 = 0)
    (short : parts.length < 2)
    (delivered : log.points =
      (GridPoint.trace .origin (done.map format.delta)).map (GridPoint.toPoint precision))
    (intact : log.failures = []) (call : Call) (error : MalformedStream) (failed : Bool) :
    Progress format precision bytes (log ++ [(call, some (.error error))])
      (Decoder.spent format precision bytes failed) := by
  have reported : Log.failures (log ++ [(call, some (.error error))]) = [(call, error)] := by
    rw [Log.failures_append, intact]
    rfl
  apply Progress.spent
  · rw [Log.points_append, delivered, Shape.points, grid_eq_of_short divided even short]
    exact List.append_nil _
  · rw [reported]
    exact List.cons_ne_nil _ _
  · rw [reported]
    exact List.countP_le_length

private theorem Progress.answer_of_short {done parts : List Bytes}
    (divided : done ++ parts = format.samples bytes) (even : done.length % 2 = 0)
    (short : parts.length < 2)
    (delivered : log.points =
      (GridPoint.trace .origin (done.map format.delta)).map (GridPoint.toPoint precision))
    (intact : log.failures = []) (call : Call) :
    let answered : Option (Except MalformedStream point) × Decoder :=
      (Decoder.between format precision done parts (format.remnant bytes)).answer call
    Progress format precision bytes (log ++ [(call, answered.1)]) answered.2 := by
  have popped : (pop (Decoder.between format precision done parts (format.remnant bytes)) :
      Except MalformedStream point × Decoder) = _ := pop_between_of_short divided even short
  cases call with
  | pop =>
    rw [answer_pop_of_eq popped]
    exact fail divided even short delivered intact .pop _ false
  | next =>
    cases empty :
        (Decoder.between format precision done parts (format.remnant bytes)).isEmpty with
    | true =>
      -- Right behind the last point `next` is answered by nothing, which is no failure yet.
      rw [answer_next_of_eq_none (next?_of_isEmpty empty)]
      apply Progress.between divided even
      · rw [Log.points_append, delivered]
        exact List.append_nil _
      · rw [Log.failures_append, intact]
        rfl
    | false =>
      rw [answer_next_of_eq_some (next?_of_error empty rfl popped)]
      exact fail divided even short delivered intact .next _ true

private theorem Progress.answer_of_pair {done parts : List Bytes} {lat lon : Bytes}
    (divided : done ++ lat :: lon :: parts = format.samples bytes) (even : done.length % 2 = 0)
    (delivered : log.points =
      (GridPoint.trace .origin (done.map format.delta)).map (GridPoint.toPoint precision))
    (intact : log.failures = []) (call : Call) :
    let answered : Option (Except MalformedStream point) × Decoder :=
      (Decoder.between format precision done (lat :: lon :: parts)
        (format.remnant bytes)).answer call
    Progress format precision bytes (log ++ [(call, answered.1)]) answered.2 := by
  obtain ⟨latitude, others⟩ := List.forall_mem_cons.1 (isSample_of_append_eq_samples divided).2
  obtain ⟨longitude, _⟩ := List.forall_mem_cons.1 others
  rw [Decoder.answer_of_ok (isEmpty_between_cons latitude _ _ _) rfl
    (pop_between_cons_cons even latitude longitude)]
  apply Progress.between
  · rw [List.append_assoc]
    exact divided
  · rw [List.length_append]
    exact (Nat.add_mod_right _ 2).trans even
  · rw [Log.points_append, delivered, trace_concat even, List.map_append]
    rfl
  · rw [Log.failures_append, intact]
    rfl

theorem Progress.answer (progress : Progress format precision bytes log decoder) (call : Call) :
    let answered : Option (Except MalformedStream point) × Decoder := decoder.answer call
    Progress format precision bytes (log ++ [(call, answered.1)]) answered.2 := by
  cases progress with
  | @between done parts divided even delivered intact =>
    rcases parts with _ | ⟨lat, _ | ⟨lon, parts⟩⟩
    · exact answer_of_short divided even Nat.two_pos delivered intact call
    · exact answer_of_short divided even Nat.one_lt_two delivered intact call
    · exact answer_of_pair divided even delivered intact call
  | @spent failed delivered reported once =>
    rw [answer_spent failed call]
    apply Progress.spent
    · have nothing : Log.points [(call, call.refusal bytes.length)] = ([] : List point) := by
        cases call <;> rfl
      rw [Log.points_append, delivered, nothing, List.append_nil]
    · rw [Log.failures_append]
      exact List.append_ne_nil_of_left_ne_nil reported _
    · rw [Log.failures_append, List.countP_append]
      cases call <;> exact once

theorem Progress.run (progress : Progress format precision bytes log decoder)
    (calls : List Call) :
    let ran : Log point × Decoder := decoder.run calls
    Progress format precision bytes (log ++ ran.1) ran.2 := by
  induction calls generalizing log decoder with
  | nil =>
    change Progress format precision bytes (log ++ []) decoder
    rwa [List.append_nil]
  | cons call calls ih =>
    have further := ih (progress.answer call)
    dsimp only at further
    rw [List.append_assoc] at further
    exact further

/-! ## What runs keep to -/

theorem run_spent (failed : Bool) (calls : List Call) :
    (run (spent format precision bytes failed) calls : Log point × Decoder) =
      (calls.map fun call => (call, call.refusal bytes.length),
        spent format precision bytes failed) := by
  induction calls with
  | nil => rfl
  | cons call calls ih =>
    rw [run, answer_spent failed call, ih]
    rfl

/-- A decoder that has answered calls since it was at the start of a buffer. -/
structure KeepsOrder (format : SampleFormat) (precision : Binary64) (bytes : Bytes)
    (log : Log point) (decoder : Decoder) : Prop where
  position_add_remaining : decoder.position + decoder.remaining = bytes.length
  position_le : ∀ calls, decoder.position ≤ (decoder.run calls : Log point × Decoder).2.position
  /-- No point is left out, given twice or put together from samples of others. -/
  points_isPrefix : log.points <+: Shape.points format precision bytes
  last_eq : decoder.last = ((Shape.grid format bytes).take log.points.length).getLastD .origin
  /-- Up to the first failure there are two terminators for each point up to the decoder's place,
  the last of them right in front of it. -/
  terminators : log.failures = [] →
    (format.marks (bytes.take decoder.position)).count true = 2 * log.points.length ∧
      closedLength (format.marks (bytes.take decoder.position)) = decoder.position
  exhausted : log.failures ≠ [] →
    decoder.remaining = 0 ∧ log.points = Shape.points format precision bytes
  refuses : log.failures ≠ [] → ∀ calls,
    (decoder.run calls : Log point × Decoder) =
      (calls.map fun call => (call, call.refusal bytes.length), decoder)
  failures_of_next : log.failures.countP (·.1 = .next) ≤ 1

private theorem Progress.points_isPrefix
    (progress : Progress format precision bytes log decoder) :
    log.points <+: Shape.points format precision bytes ∧
      decoder.last = ((Shape.grid format bytes).take log.points.length).getLastD .origin := by
  cases progress with
  | @between done parts divided even delivered intact =>
    rw [delivered, Shape.points, Shape.grid, ← divided, trace_map_append even, List.map_append,
      List.length_map, List.take_left]
    exact ⟨List.prefix_append _ _, rfl⟩
  | spent delivered =>
    rw [delivered]
    refine ⟨List.prefix_rfl, ?_⟩
    rw [Shape.points, List.length_map, List.take_length]
    rfl

private theorem Progress.terminators (progress : Progress format precision bytes log decoder)
    (intact : log.failures = []) :
    (format.marks (bytes.take decoder.position)).count true = 2 * log.points.length ∧
      closedLength (format.marks (bytes.take decoder.position)) = decoder.position := by
  cases progress with
  | @between done parts divided even delivered _ =>
    have complete := (isSample_of_append_eq_samples divided).1
    have front : bytes.take done.flatten.length = done.flatten := by
      have whole := flatten_samples_append_remnant format bytes
      rw [← divided, List.flatten_append, List.append_assoc] at whole
      rw [← whole, List.take_left]
    change (format.marks (bytes.take done.flatten.length)).count true = _ ∧
      closedLength (format.marks (bytes.take done.flatten.length)) = done.flatten.length
    -- Each of the samples `done` has one terminator, so counting terminators counts samples.
    rw [front, ← length_samples, ← remnant_eq_nil_iff, samples_flatten complete, delivered,
      List.length_map, GridPoint.length_trace, List.length_map]
    exact ⟨by omega, remnant_flatten complete⟩
  | spent _ reported => exact absurd intact reported

private theorem Progress.exhausted (progress : Progress format precision bytes log decoder)
    (reported : log.failures ≠ []) :
    decoder.remaining = 0 ∧ log.points = Shape.points format precision bytes := by
  cases progress with
  | between _ _ _ intact => exact absurd intact reported
  | spent delivered => exact ⟨rfl, delivered⟩

private theorem Progress.refuses (progress : Progress format precision bytes log decoder)
    (reported : log.failures ≠ []) (calls : List Call) :
    (decoder.run calls : Log point × Decoder) =
      (calls.map fun call => (call, call.refusal bytes.length), decoder) := by
  cases progress with
  | between _ _ _ intact => exact absurd intact reported
  | @spent failed => exact run_spent failed calls

private theorem Progress.failures_of_next
    (progress : Progress format precision bytes log decoder) :
    log.failures.countP (·.1 = .next) ≤ 1 := by
  cases progress with
  | between _ _ _ intact =>
    rw [intact]
    exact Nat.zero_le 1
  | spent _ _ once => exact once

/-- Calls in any order and number keep to the order of the points. -/
theorem run_keepsOrder (format : SampleFormat) (precision : Binary64) (bytes : Bytes)
    (calls : List Call) :
    let ran : Log point × Decoder := (start format precision bytes).run calls
    KeepsOrder format precision bytes ran.1 ran.2 := by
  intro ran
  have progress : Progress format precision bytes ran.1 ran.2 :=
    (Progress.start format precision bytes).run calls
  have moved : (start format precision bytes).cursor.LeadsTo ran.2.cursor := run_leadsTo _ calls
  exact
    { position_add_remaining := moved.position_add_remaining.trans (Nat.zero_add _)
      position_le := fun further => (run_leadsTo ran.2 further).position_le
      points_isPrefix := progress.points_isPrefix.1
      last_eq := progress.points_isPrefix.2
      terminators := progress.terminators
      exhausted := progress.exhausted
      refuses := progress.refuses
      failures_of_next := progress.failures_of_next }

end States

end Decoder

end Polyline
