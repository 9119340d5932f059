import Polyline.Sample.Format

/-! The division of a buffer into samples. Terminators alone decide it: a buffer is a sequence of
samples, each up to its terminator, and a remnant without any. -/

set_option autoImplicit false

namespace Polyline.SampleFormat

/-- A byte string whose last byte is its only terminator. -/
inductive IsSample (format : SampleFormat) : Bytes → Prop where
  | last {byte} : format.isTerminator byte = true → IsSample format [byte]
  | more {byte rest} :
      format.isTerminator byte = false → IsSample format rest → IsSample format (byte :: rest)

/-- A byte string without terminators. -/
def IsOpen (format : SampleFormat) (bytes : Bytes) : Prop :=
  ∀ byte ∈ bytes, format.isTerminator byte = false

/-- The samples of a buffer, each with the bytes up to its terminator. -/
def samples (format : SampleFormat) : Bytes → List Bytes
  | [] => []
  | byte :: rest =>
    if format.isTerminator byte then [byte] :: format.samples rest
    else
      match format.samples rest with
      | [] => []
      | first :: others => (byte :: first) :: others

/-- The bytes behind the last terminator. -/
def remnant (format : SampleFormat) (bytes : Bytes) : Bytes :=
  (bytes.reverse.takeWhile fun byte => !format.isTerminator byte).reverse

variable {format : SampleFormat}

theorem isOpen_nil : format.IsOpen [] := nofun

theorem IsSample.ne_nil {sample : Bytes} (complete : format.IsSample sample) : sample ≠ [] := by
  cases complete <;> exact List.cons_ne_nil _ _

theorem IsSample.length_pos {sample : Bytes} (complete : format.IsSample sample) :
    0 < sample.length := List.length_pos_iff.2 complete.ne_nil

theorem IsSample.exists_eq_append {sample : Bytes} (complete : format.IsSample sample) :
    ∃ leading final, sample = leading ++ [final] ∧ format.IsOpen leading ∧
      format.isTerminator final = true := by
  induction complete with
  | last terminates => exact ⟨[], _, rfl, nofun, terminates⟩
  | more continues _ ih =>
    obtain ⟨leading, final, rfl, opened, terminates⟩ := ih
    exact ⟨_ :: leading, final, rfl, List.forall_mem_cons.2 ⟨continues, opened⟩, terminates⟩

/-- Either the buffer has no terminator, or its first one ends its first sample. -/
theorem isOpen_or_exists_isSample (format : SampleFormat) (bytes : Bytes) :
    format.IsOpen bytes ∨ ∃ sample rest, format.IsSample sample ∧ bytes = sample ++ rest := by
  induction bytes with
  | nil => exact .inl nofun
  | cons byte bytes ih =>
    cases terminates : format.isTerminator byte with
    | true => exact .inr ⟨[byte], bytes, .last terminates, rfl⟩
    | false =>
      rcases ih with opened | ⟨sample, rest, complete, rfl⟩
      · exact .inl (List.forall_mem_cons.2 ⟨terminates, opened⟩)
      · exact .inr ⟨byte :: sample, rest, .more terminates complete, rfl⟩

/-- Every buffer is reached from one without terminators by putting samples in front. -/
theorem framing_induction (format : SampleFormat) {motive : Bytes → Prop}
    (opened : ∀ bytes, format.IsOpen bytes → motive bytes)
    (append : ∀ sample rest, format.IsSample sample → motive rest → motive (sample ++ rest))
    (bytes : Bytes) : motive bytes := by
  induction equal : bytes.length using Nat.strongRecOn generalizing bytes with
  | ind length ih =>
    rcases isOpen_or_exists_isSample format bytes with open? | ⟨sample, rest, complete, rfl⟩
    · exact opened bytes open?
    · have positive := complete.length_pos
      have shorter : rest.length < length := by
        rw [← equal, List.length_append]
        omega
      exact append sample rest complete (ih rest.length shorter rest rfl)

/-! ## The two parts of a buffer -/

theorem samples_of_isOpen {bytes : Bytes} (opened : format.IsOpen bytes) :
    format.samples bytes = [] := by
  induction bytes with
  | nil => rfl
  | cons byte bytes ih =>
    obtain ⟨continues, others⟩ := List.forall_mem_cons.1 opened
    simp [samples, continues, ih others]

theorem samples_append {sample : Bytes} (complete : format.IsSample sample) (rest : Bytes) :
    format.samples (sample ++ rest) = sample :: format.samples rest := by
  induction complete with
  | last terminates => simp [samples, terminates]
  | more continues _ ih => simp [samples, continues, ih]

theorem remnant_of_isOpen {bytes : Bytes} (opened : format.IsOpen bytes) :
    format.remnant bytes = bytes := by
  have all : ∀ byte ∈ bytes.reverse, (!format.isTerminator byte) = true := by
    simpa [IsOpen] using opened
  have whole : (bytes.reverse ++ []).takeWhile (fun byte => !format.isTerminator byte) =
      bytes.reverse ++ [] := List.takeWhile_append_of_pos all
  rw [List.append_nil] at whole
  rw [remnant, whole, List.reverse_reverse]

theorem remnant_append {sample : Bytes} (complete : format.IsSample sample) (rest : Bytes) :
    format.remnant (sample ++ rest) = format.remnant rest := by
  obtain ⟨leading, final, rfl, _, terminates⟩ := complete.exists_eq_append
  unfold remnant
  rw [List.reverse_append, List.takeWhile_append]
  split
  next all =>
    have whole := (List.takeWhile_prefix fun byte => !format.isTerminator byte).eq_of_length all
    rw [whole]
    simp [terminates]
  next => rfl

/-- No byte is lost or moved between the parts. -/
theorem flatten_samples_append_remnant (format : SampleFormat) (bytes : Bytes) :
    (format.samples bytes).flatten ++ format.remnant bytes = bytes := by
  induction bytes using framing_induction format with
  | opened bytes opened => rw [samples_of_isOpen opened, remnant_of_isOpen opened]; rfl
  | append sample rest complete ih =>
    rw [samples_append complete, remnant_append complete, List.flatten_cons, List.append_assoc, ih]

theorem isSample_of_mem_samples (format : SampleFormat) (bytes : Bytes) :
    ∀ sample ∈ format.samples bytes, format.IsSample sample := by
  induction bytes using framing_induction format with
  | opened bytes opened =>
    rw [samples_of_isOpen opened]
    exact nofun
  | append first rest complete ih =>
    rw [samples_append complete]
    exact List.forall_mem_cons.2 ⟨complete, ih⟩

theorem isOpen_remnant (format : SampleFormat) (bytes : Bytes) :
    format.IsOpen (format.remnant bytes) := by
  induction bytes using framing_induction format with
  | opened bytes opened => rwa [remnant_of_isOpen opened]
  | append sample rest complete ih => rwa [remnant_append complete]

theorem samples_flatten_append {parts : List Bytes}
    (complete : ∀ part ∈ parts, format.IsSample part) (rest : Bytes) :
    format.samples (parts.flatten ++ rest) = parts ++ format.samples rest := by
  induction parts with
  | nil => rfl
  | cons part parts ih =>
    obtain ⟨first, others⟩ := List.forall_mem_cons.1 complete
    rw [List.flatten_cons, List.append_assoc, samples_append first, ih others, List.cons_append]

theorem remnant_flatten_append {parts : List Bytes}
    (complete : ∀ part ∈ parts, format.IsSample part) (rest : Bytes) :
    format.remnant (parts.flatten ++ rest) = format.remnant rest := by
  induction parts with
  | nil => rfl
  | cons part parts ih =>
    obtain ⟨first, others⟩ := List.forall_mem_cons.1 complete
    rw [List.flatten_cons, List.append_assoc, remnant_append first, ih others]

/-- A division into samples without remnant is the only one. -/
theorem samples_flatten {parts : List Bytes} (complete : ∀ part ∈ parts, format.IsSample part) :
    format.samples parts.flatten = parts := by
  have divided := samples_flatten_append complete []
  rwa [List.append_nil, samples_of_isOpen isOpen_nil, List.append_nil] at divided

theorem remnant_flatten {parts : List Bytes} (complete : ∀ part ∈ parts, format.IsSample part) :
    format.remnant parts.flatten = [] := by
  have divided := remnant_flatten_append complete []
  rwa [List.append_nil, remnant_of_isOpen isOpen_nil] at divided

/-! ## Buffers that end behind a sample -/

theorem flatten_samples_of_remnant_eq_nil {front : Bytes} (closed : format.remnant front = []) :
    (format.samples front).flatten = front := by
  have divided := flatten_samples_append_remnant format front
  rwa [closed, List.append_nil] at divided

theorem samples_append_of_remnant_eq_nil {front : Bytes} (closed : format.remnant front = [])
    (back : Bytes) :
    format.samples (front ++ back) = format.samples front ++ format.samples back := by
  have divided := samples_flatten_append (isSample_of_mem_samples format front) back
  rwa [flatten_samples_of_remnant_eq_nil closed] at divided

theorem remnant_append_of_remnant_eq_nil {front : Bytes} (closed : format.remnant front = [])
    (back : Bytes) : format.remnant (front ++ back) = format.remnant back := by
  have divided := remnant_flatten_append (isSample_of_mem_samples format front) back
  rwa [flatten_samples_of_remnant_eq_nil closed] at divided

end Polyline.SampleFormat
