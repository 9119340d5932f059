import Polyline.Proofs.Inspection.Lines
import Polyline.Proofs.Json.Printed

/-! The JSON of an inspection. A reader finds all that the inspection holds, under a name each. -/

set_option autoImplicit false

namespace Polyline

open Json

/-- The object that tells an entry. -/
def SampleEntry.object (entry : SampleEntry) : Json :=
  .object
    [("offset", .integer entry.offset), ("len", .integer entry.length),
      ("axis", .string (if entry.axis = .lat then "lat" else "lon")),
      ("delta", .integer entry.delta.toInt), ("value", .integer entry.value.toInt),
      ("coordinate", .real entry.coordinate)]

namespace Inspection

/-- The object that tells an inspection, but for the failure. -/
def object (inspection : Inspection) (fault : Json) : Json :=
  .object
    [("format", .string (if inspection.format = .varint5 then "varint5" else "varint7")),
      ("digits", .integer inspection.precision.digits),
      ("byte_len", .integer inspection.byteLength),
      ("point_count", .integer (inspection.samples.length / 2 : Nat)),
      ("samples", .array (inspection.samples.map SampleEntry.object)), ("error", fault)]

/-- A reader of JSON finds an inspection, with the failure in words or null in its place. -/
def IsJson (inspection : Inspection) (text : String) : Prop :=
  ∃ fault, Json.read? text = some (inspection.object fault) ∧
    match inspection.error with
    | none => fault = .null
    | some error => ∃ message, fault = .string message ∧ Text.words message.toList = error.words

variable {inspection : Inspection} {entry : SampleEntry}

/-- What is said of the failure. -/
def faultJson (inspection : Inspection) : Json :=
  match inspection.error with
  | some error => .string error.message
  | none => .null

theorem toJson_eq (inspection : Inspection) :
    inspection.toJson = .object
      [("format", .string inspection.format.name), ("digits", .integer inspection.precision.digits),
        ("byte_len", .integer inspection.byteLength),
        ("point_count", .integer inspection.pointCount),
        ("samples", .array (inspection.samples.map SampleEntry.toJson)),
        ("error", inspection.faultJson)] := rfl

/-! ## What a reader makes of it -/

theorem reread_entry (finite : entry.coordinate.isFinite = true) :
    entry.toJson.reread = entry.object := by
  have name : entry.axis.name = if entry.axis = .lat then "lat" else "lon" := by
    cases entry.axis <;> rfl
  simp only [SampleEntry.toJson, SampleEntry.object, name, reread, realRead_of_isFinite finite,
    List.map_cons, List.map_nil]

theorem reread_toJson (sound : inspection.IsSound) :
    inspection.toJson.reread = inspection.object inspection.faultJson := by
  have name : inspection.format.name =
      if inspection.format = .varint5 then "varint5" else "varint7" := by
    cases inspection.format <;> rfl
  have fault : inspection.faultJson.reread = inspection.faultJson := by
    unfold faultJson
    cases inspection.error <;> simp only [reread]
  have samples : (inspection.samples.map SampleEntry.toJson).map reread =
      inspection.samples.map SampleEntry.object := by
    rw [List.map_map]
    exact List.map_congr_left fun entry member => reread_entry (sound.finite entry member)
  rw [toJson_eq, name]
  simp only [reread, List.map_cons, List.map_nil, samples, fault]
  rfl

/-! ## What a reader relies on -/

theorem isScalar_faultJson (inspection : Inspection) : inspection.faultJson.IsScalar := by
  unfold faultJson
  cases inspection.error <;> trivial

/-- An inspection holds a list of objects. -/
theorem depth_toJson_le (inspection : Inspection) : inspection.toJson.depth ≤ maxDepth := by
  have scalar {value : Json} {bound : Nat} (scalar : value.IsScalar) : value.depth ≤ bound := by
    rw [depth_of_isScalar scalar]
    exact Nat.zero_le bound
  have inner (entry : SampleEntry) : entry.toJson.depth ≤ 1 := by
    refine depth_object_le ?_
    simp only [List.forall_mem_cons]
    exact ⟨scalar trivial, scalar trivial, scalar trivial, scalar trivial, scalar trivial,
      scalar trivial, List.forall_mem_nil _⟩
  have samples : (Json.array (inspection.samples.map SampleEntry.toJson)).depth ≤ 2 :=
    depth_array_le (List.forall_mem_map.2 fun entry _ => inner entry)
  have whole : inspection.toJson.depth ≤ 3 := by
    rw [toJson_eq]
    refine depth_object_le ?_
    simp only [List.forall_mem_cons]
    exact ⟨scalar trivial, scalar trivial, scalar trivial, scalar trivial, samples,
      scalar inspection.isScalar_faultJson, List.forall_mem_nil _⟩
  exact whole.trans (by decide)

theorem isInRange_natural {number : Nat} (small : number < 2 ^ 64) :
    (Json.integer number).IsInRange :=
  .integer (Binary64.isFinite_ofInt (by omega))

theorem isInRange_int32 (number : Int32) : (Json.integer number.toInt).IsInRange := by
  have low := number.le_toInt
  have high := number.toInt_lt
  exact .integer (Binary64.isFinite_ofInt (by omega))

theorem isInRange_entry {size : Nat} (inside : entry.offset + entry.length ≤ size)
    (small : size < 2 ^ 64) : entry.toJson.IsInRange := by
  refine .object ?_
  simp only [List.forall_mem_cons]
  exact ⟨isInRange_natural (by omega), isInRange_natural (by omega), .string, isInRange_int32 _,
    isInRange_int32 _, .real, List.forall_mem_nil _⟩

theorem isInRange_toJson (sound : inspection.IsSound) (small : inspection.byteLength < 2 ^ 64) :
    inspection.toJson.IsInRange := by
  have digits := inspection.precision.digits_le
  have points : inspection.pointCount ≤ inspection.byteLength :=
    (Nat.div_le_self _ 2).trans sound.few
  have samples : (Json.array (inspection.samples.map SampleEntry.toJson)).IsInRange :=
    .array (List.forall_mem_map.2 fun entry member =>
      isInRange_entry (sound.inside entry member) small)
  have fault : inspection.faultJson.IsInRange := by
    unfold faultJson
    cases inspection.error with
    | none => exact .null
    | some error => exact .string
  rw [toJson_eq]
  refine .object ?_
  simp only [List.forall_mem_cons]
  exact ⟨.string, isInRange_natural (by omega), isInRange_natural small,
    isInRange_natural (by omega), samples, fault, List.forall_mem_nil _⟩

/-- The JSON of an inspection tells it. -/
theorem isJson_toJson (sound : inspection.IsSound) (small : inspection.byteLength < 2 ^ 64) :
    inspection.IsJson (print pretty inspection.toJson ++ "\n") := by
  have spelled : print pretty inspection.toJson ++ "\n" =
      String.ofList (chars pretty 0 inspection.toJson ++ ['\n']) := by
    rw [String.ofList_append]
    rfl
  refine ⟨inspection.faultJson, ?_, ?_⟩
  · rw [spelled, read?_chars isBlank_pretty (isInRange_toJson sound small)
      inspection.depth_toJson_le (List.all_eq_true.1 rfl), reread_toJson sound]
  · unfold faultJson
    cases inspection.error with
    | none => rfl
    | some error => exact ⟨_, rfl, error.words_message⟩

end Inspection

end Polyline
