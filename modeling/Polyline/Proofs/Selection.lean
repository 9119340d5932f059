import Mathlib.Data.String.Basic
import Polyline.Command.Selection
import Polyline.Proofs.Files.Listing

/-! Selecting files. Files of distinct names are ranked by size and path without a tie, so they have
one ranking, whatever the order in which they are listed. -/

set_option autoImplicit false

namespace Polyline.Selection

variable {left middle right : FileEntry} {directory : String} {files others : List (String × Bytes)}

/-! ## The order of files -/

theorem precedes_iff : precedes left right = true ↔
    right.size < left.size ∨ left.size = right.size ∧ left.name ≤ right.name := by
  simp [precedes]

theorem precedes_trans (first : precedes left middle = true)
    (second : precedes middle right = true) : precedes left right = true := by
  rw [precedes_iff] at *
  obtain larger | ⟨equal, before⟩ := first
  · left
    omega
  · obtain larger | ⟨level, after⟩ := second
    · left
      omega
    · exact .inr ⟨equal.trans level, before.trans after⟩

theorem precedes_total (left right : FileEntry) :
    (precedes left right || precedes right left) = true := by
  rw [Bool.or_eq_true, precedes_iff, precedes_iff]
  obtain larger | equal | smaller := Nat.lt_trichotomy right.size left.size
  · exact .inl (.inl larger)
  · obtain before | after := le_total left.name right.name
    · exact .inl (.inr ⟨equal.symm, before⟩)
    · exact .inr (.inr ⟨equal, after⟩)
  · exact .inr (.inl smaller)

/-! ## Ranking files -/

/-- A larger file, or one of the same size with an earlier path. -/
def Before (directory : String) (left right : String × Bytes) : Prop :=
  right.2.length < left.2.length ∨ left.2.length = right.2.length ∧
    joinPath directory left.1 < joinPath directory right.1

theorem joinPath_lt {name other : String} (directory : String) (less : name < other) :
    joinPath directory name < joinPath directory other := by
  rw [String.lt_iff_toList_lt] at less ⊢
  unfold joinPath
  split
  · simp only [String.toList_append]
    exact List.append_left_lt less
  · simp only [String.toList_append]
    exact List.append_left_lt less

def ranksBefore (left right : String × Bytes) : Bool := precedes (.ofFile left) (.ofFile right)

def ranked (files : List (String × Bytes)) : List (String × Bytes) := files.mergeSort ranksBefore

theorem ranked_perm (files : List (String × Bytes)) : (ranked files).Perm files :=
  List.mergeSort_perm _ _

theorem pairwise_ranksBefore_ranked (files : List (String × Bytes)) :
    (ranked files).Pairwise fun left right => ranksBefore left right = true := by
  refine List.pairwise_mergeSort ?_ ?_ files
  · intro left middle right
    exact precedes_trans
  · intro left right
    exact precedes_total (.ofFile left) (.ofFile right)

theorem pairwise_before_ranked (distinct : (files.map Prod.fst).Nodup) (directory : String) :
    (ranked files).Pairwise (Before directory) := by
  have apart : (ranked files).Pairwise fun left right => left.1 ≠ right.1 :=
    List.pairwise_map.1 (((ranked_perm files).map Prod.fst).nodup_iff.2 distinct)
  refine (apart.and (pairwise_ranksBefore_ranked files)).imp ?_
  rintro left right ⟨unequal, precedes⟩
  obtain larger | ⟨equal, before⟩ := precedes_iff.1 precedes
  · exact .inl larger
  · exact .inr ⟨equal, joinPath_lt directory (lt_of_le_of_ne before unequal)⟩

/-- No two files are each before the other, so a list of files has at most one ranking. -/
theorem eq_of_pairwise_before (first : files.Pairwise (Before directory))
    (second : others.Pairwise (Before directory)) (reordered : files.Perm others) :
    files = others := by
  refine List.Perm.eq_of_pairwise ?_ first second reordered
  intro left right _ _ before after
  obtain larger | ⟨level, less⟩ := before
  · obtain smaller | ⟨equal, -⟩ := after <;> omega
  · obtain smaller | ⟨-, greater⟩ := after
    · omega
    · exact absurd greater less.asymm

theorem ranked_eq_of_perm (distinct : (files.map Prod.fst).Nodup) (reordered : others.Perm files) :
    ranked others = ranked files := by
  have apart : (others.map Prod.fst).Nodup := (reordered.map Prod.fst).nodup_iff.2 distinct
  exact eq_of_pairwise_before (pairwise_before_ranked apart "") (pairwise_before_ranked distinct "")
    ((ranked_perm others).trans (reordered.trans (ranked_perm files).symm))

/-! ## Selecting files -/

def arranged : Option FileOrder → List (String × Bytes) → List (String × Bytes)
  | none, files => files
  | some .size, files => ranked files

theorem sorted_map (order : Option FileOrder) (files : List (String × Bytes)) :
    sorted order (files.map .ofFile) = (arranged order files).map .ofFile := by
  cases order with
  | none => rfl
  | some order =>
    cases order with
    | size =>
      have agree : ∀ left ∈ files, ∀ right ∈ files,
          ranksBefore left right = precedes (.ofFile left) (.ofFile right) := fun _ _ _ _ => rfl
      exact (List.map_mergeSort agree).symm

/-- The files that a pattern fits by their path or their bare name. -/
def candidates (directory : String) (pattern : Option (String → Bool))
    (files : List (String × Bytes)) : List (String × Bytes) :=
  files.filter fun file => pattern.all fun fits => fits (joinPath directory file.1) || fits file.1

theorem mem_candidates {pattern : Option (String → Bool)} {file : String × Bytes} :
    file ∈ candidates directory pattern files ↔
      file ∈ files ∧ ∀ fits ∈ pattern, fits (joinPath directory file.1) ∨ fits file.1 := by
  rw [candidates, List.mem_filter]
  cases pattern <;> simp

theorem nodup_names_candidates (distinct : (files.map Prod.fst).Nodup)
    (pattern : Option (String → Bool)) :
    ((candidates directory pattern files).map Prod.fst).Nodup :=
  distinct.sublist (List.filter_sublist.map Prod.fst)

theorem filter_isCandidate_map (pattern : Option (String → Bool)) (files : List (String × Bytes)) :
    (files.map .ofFile).filter (isCandidate directory pattern) =
      (candidates directory pattern files).map .ofFile := by
  rw [List.filter_map, candidates]
  congr 2
  funext file
  cases pattern <;> rfl

def selected (directory : String) (pattern : Option (String → Bool)) (options : InspectOptions)
    (files : List (String × Bytes)) : List (String × Bytes) :=
  let found := arranged options.order (candidates directory pattern files)
  (limit? options).elim found found.take

theorem selected_of_unordered {options : InspectOptions} (unordered : options.order = none)
    (pattern : Option (String → Bool)) (files : List (String × Bytes)) :
    selected directory pattern options files =
      options.limit.elim (candidates directory pattern files)
        (candidates directory pattern files).take := by
  rw [selected, limit?, unordered, Option.map_none, Option.or_none]
  rfl

theorem selected_of_ranked {options : InspectOptions} (ranks : options.order = some .size)
    (pattern : Option (String → Bool)) (files : List (String × Bytes)) :
    selected directory pattern options files =
      (ranked (candidates directory pattern files)).take (options.limit.getD sortedLimit) := by
  rw [selected, limit?, ranks]
  cases options.limit <;> rfl

theorem arranged_perm (order : Option FileOrder) (files : List (String × Bytes)) :
    (arranged order files).Perm files := by
  cases order with
  | none => exact .refl _
  | some order =>
    cases order with
    | size => exact ranked_perm files

theorem selected_sublist (pattern : Option (String → Bool)) (options : InspectOptions)
    (files : List (String × Bytes)) :
    (selected directory pattern options files).Sublist
      (arranged options.order (candidates directory pattern files)) := by
  unfold selected
  cases limit? options with
  | none => exact .refl _
  | some limit => exact List.take_sublist _ _

theorem mem_of_mem_selected {pattern : Option (String → Bool)} {options : InspectOptions}
    {file : String × Bytes} (member : file ∈ selected directory pattern options files) :
    file ∈ files := by
  have arrangedMember := (selected_sublist pattern options files).subset member
  exact List.mem_of_mem_filter ((arranged_perm options.order _).mem_iff.1 arrangedMember)

/-- A ranked selection does not depend on the order in which the files are listed. -/
theorem selected_eq_of_perm {options : InspectOptions} (ranks : options.order = some .size)
    (distinct : (files.map Prod.fst).Nodup) (reordered : others.Perm files)
    (pattern : Option (String → Bool)) :
    selected directory pattern options others = selected directory pattern options files := by
  have same : ranked (candidates directory pattern others) =
      ranked (candidates directory pattern files) :=
    ranked_eq_of_perm (nodup_names_candidates distinct pattern) (reordered.filter _)
  rw [selected_of_ranked ranks, selected_of_ranked ranks, same]

theorem select_map (pattern : Option (String → Bool)) (options : InspectOptions)
    (files : List (String × Bytes)) :
    select directory pattern options (files.map .ofFile) =
      (selected directory pattern options files).map .ofFile := by
  rw [select, filter_isCandidate_map, sorted_map, selected]
  cases limit? options with
  | none => rfl
  | some limit => exact List.map_take.symm

end Polyline.Selection
