import Mathlib.Algebra.BigOperators.Group.List.Basic
import Polyline.Command.Run
import Polyline.Proofs.Inspection.Account
import Polyline.Proofs.Inspection.Members
import Polyline.Proofs.Normalization

/-! Reports on buffers. In either mode a report tells what was found in the buffer. -/

set_option autoImplicit false

namespace Polyline.Inspection

/-- A report in one of the two modes. Numbers that no file reaches may be too large for a reader. -/
def IsReport (json : Bool) (inspection : Inspection) (report : String) : Prop :=
  match json with
  | true => inspection.byteLength < 2 ^ 64 → inspection.IsJson report
  | false => inspection.IsText report

theorem coordinate_of_mem_listing {format : SampleFormat} {scale : Binary64} {axis : Axis}
    {last : GridPoint} {position : Nat} {parts : List Bytes} {entry : SampleEntry}
    (member : entry ∈ listing format scale axis last position parts) :
    entry.coordinate = restore scale entry.value := by
  induction parts generalizing axis last position with
  | nil => cases member
  | cons part parts ih =>
    rcases List.mem_cons.1 member with rfl | later
    · rfl
    · exact ih later

theorem isSound_ofBytes (format : SampleFormat) (precision : Precision) (bytes : Bytes) :
    (ofBytes format precision bytes).IsSound := by
  have account := isAccountOf_ofBytes format precision bytes
  have inside : ∀ entry ∈ (ofBytes format precision bytes).samples,
      entry.offset + entry.length ≤ (ofBytes format precision bytes).byteLength := by
    intro entry member
    rw [account.byteLength]
    exact (account.described entry member).inside
  refine ⟨?_, inside, ?_⟩
  · intro entry member
    rw [samples_ofBytes] at member
    rw [coordinate_of_mem_listing member]
    exact isFinite_restore precision entry.value
  · -- Every entry takes a byte at least.
    have counted := List.length_le_sum_of_one_le
      ((ofBytes format precision bytes).samples.map (·.length))
      (List.forall_mem_map.2 fun entry member => (account.described entry member).length_pos)
    rw [List.length_map] at counted
    have covered := account.covered
    split at covered
    next => omega
    next => omega

/-- What is reported of a buffer tells its inspection. -/
theorem isReport_reportText (json : Bool) (format : SampleFormat) (precision : Precision)
    (bytes : Bytes) :
    (ofBytes format precision bytes).IsReport json
      (Command.reportText json (ofBytes format precision bytes)) := by
  have sound := isSound_ofBytes format precision bytes
  cases json with
  | true => exact isJson_toJson sound
  | false => exact isText_text sound

end Polyline.Inspection
