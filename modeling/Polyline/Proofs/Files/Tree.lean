import Polyline.Files.Tree

/-! Writing into a file tree. The only location that changes was no directory before, so every path
that could be followed still leads to where it led. -/

set_option autoImplicit false

namespace Polyline.FileTree

variable {tree : FileTree} {location : Location} {node : FileNode} {path : String} {bytes : Bytes}

theorem node?_insert_self (below : location ≠ []) :
    (tree.insert location node).node? location = some node := by
  have absent (nodes : List (Location × FileNode)) :
      (nodes.filter (·.1 ≠ location) ++ [(location, node)]).lookup location = some node := by
    induction nodes with
    | nil => simp
    | cons entry nodes ih =>
      by_cases same : entry.1 = location
      · rwa [List.filter_cons_of_neg (by simpa using same)]
      · have other : (location == entry.1) = false := by simpa using Ne.symm same
        rw [List.filter_cons_of_pos (by simpa using same), List.cons_append, List.lookup_cons,
          other]
        exact ih
  rw [node?, if_neg below]
  exact absent tree.nodes

theorem node?_insert_of_ne {other : Location} (distinct : other ≠ location) :
    (tree.insert location node).node? other = tree.node? other := by
  have kept (nodes : List (Location × FileNode)) :
      (nodes.filter (·.1 ≠ location) ++ [(location, node)]).lookup other = nodes.lookup other := by
    induction nodes with
    | nil =>
      have unequal : (other == location) = false := by simpa using distinct
      simp [List.lookup_cons, unequal]
    | cons entry nodes ih =>
      by_cases same : entry.1 = location
      · have unequal : (other == entry.1) = false := by simpa [same] using distinct
        rw [List.filter_cons_of_neg (by simpa using same), List.lookup_cons, unequal]
        exact ih
      · rw [List.filter_cons_of_pos (by simpa using same), List.cons_append, List.lookup_cons,
          List.lookup_cons, ih]
  unfold node?
  split
  · rfl
  · exact kept tree.nodes

theorem requireDirectory_eq_ok_iff :
    tree.requireDirectory location = .ok () ↔ tree.node? location = some .directory := by
  unfold requireDirectory
  split
  next found => simp [found]
  next found => simp [found]
  next missing => simp [missing]

theorem requireDirectory_insert {directory : Location}
    (file : tree.node? location ≠ some .directory)
    (found : tree.requireDirectory directory = .ok ()) :
    (tree.insert location node).requireDirectory directory = .ok () := by
  have here := requireDirectory_eq_ok_iff.1 found
  have distinct : directory ≠ location := by
    rintro rfl
    exact file here
  exact requireDirectory_eq_ok_iff.2 ((node?_insert_of_ne distinct).trans here)

theorem walk_cons_eq_ok {start finish : Location} {step : String} {steps : List String} :
    tree.walk start (step :: steps) = .ok finish ↔
      tree.requireDirectory start = .ok () ∧ tree.walk (follow start step) steps = .ok finish := by
  rw [walk]
  cases tree.requireDirectory start <;> simp

theorem walk_concat_eq_ok {start finish : Location} {steps : List String} {step : String} :
    tree.walk start (steps ++ [step]) = .ok finish ↔
      ∃ directory, tree.walk start steps = .ok directory ∧
        tree.requireDirectory directory = .ok () ∧ follow directory step = finish := by
  induction steps generalizing start with
  | nil =>
    rw [List.nil_append, walk_cons_eq_ok]
    simp [walk]
  | cons next steps ih => simp [walk_cons_eq_ok, ih, and_assoc]

theorem resolve_eq_ok_iff :
    tree.resolve path = .ok (location, node) ↔
      tree.walk [] (components path) = .ok location ∧ tree.node? location = some node := by
  unfold resolve
  cases tree.walk [] (components path) with
  | error cause => simp
  | ok reached =>
    dsimp only
    cases found : tree.node? reached with
    | none =>
      refine iff_of_false nofun ?_
      rintro ⟨⟨⟩, there⟩
      rw [found] at there
      cases there
    | some there =>
      constructor
      · rintro ⟨⟩
        exact ⟨rfl, found⟩
      · rintro ⟨⟨⟩, same⟩
        rw [found] at same
        cases same
        rfl

theorem walk_insert (file : tree.node? location ≠ some .directory) {start finish : Location}
    {steps : List String} (walked : tree.walk start steps = .ok finish) :
    (tree.insert location node).walk start steps = .ok finish := by
  induction steps generalizing start with
  | nil => exact walked
  | cons step steps ih =>
    obtain ⟨passed, rest⟩ := walk_cons_eq_ok.1 walked
    exact walk_cons_eq_ok.2 ⟨requireDirectory_insert file passed, ih rest⟩

/-- A path for a file to be written is a way to a directory and a name in it. -/
theorem exists_of_target_eq_ok (targeted : tree.target path = .ok location) :
    ∃ steps directory name, components path = steps ++ [name] ∧
      tree.walk [] steps = .ok directory ∧ tree.requireDirectory directory = .ok () ∧
      follow directory name = location ∧ location ≠ [] ∧
      tree.node? location ≠ some .directory := by
  unfold target at targeted
  dsimp only at targeted
  generalize stripped : ((components path).reverse.dropWhile (· = "")).reverse = named at targeted
  split at targeted
  next => cases targeted
  next name last =>
    split at targeted
    next => cases targeted
    next directory walked =>
      split at targeted
      next => cases targeted
      next found =>
        split at targeted
        next => cases targeted
        next plain =>
          split at targeted
          next => cases targeted
          next file =>
            cases targeted
            obtain ⟨steps, rfl⟩ := List.getLast?_eq_some_iff.1 last
            obtain ⟨whole, level, up⟩ : components path = steps ++ [name] ∧ name ≠ "." ∧
                name ≠ ".." := by
              simpa [not_or] using plain
            have spelled : name ≠ "" := by
              have kept := List.head?_dropWhile_not (fun step : String => step = "")
                (components path).reverse
              have ends : ((components path).reverse.dropWhile (· = "")).head? = some name := by
                rw [← List.getLast?_reverse, stripped]
                exact last
              rw [ends] at kept
              simpa using kept
            rw [List.dropLast_concat] at walked
            exact ⟨steps, directory, name, whole, walked, found,
              by simp [follow, spelled, level, up], by simp, file⟩

theorem write_of_target_eq_ok (targeted : tree.target path = .ok location) :
    tree.write path bytes = .ok (tree.insert location (.file bytes)) := by
  rw [write, targeted]
  rfl

theorem write_of_target_eq_error {cause : FileError} (refused : tree.target path = .error cause) :
    tree.write path bytes = .error cause := by
  rw [write, refused]
  rfl

/-- What is written to a path is what is read at it afterwards. -/
theorem read_write {after : FileTree} (written : tree.write path bytes = .ok after) :
    after.read path = .ok bytes := by
  unfold write at written
  cases targeted : tree.target path with
  | error cause =>
    rw [targeted] at written
    cases written
  | ok location =>
    rw [targeted] at written
    cases written
    obtain ⟨steps, directory, name, divided, walked, found, named, below, file⟩ :=
      exists_of_target_eq_ok targeted
    have led : (tree.insert location (.file bytes)).walk [] (components path) = .ok location := by
      rw [divided, ← named]
      rw [← named] at file
      exact walk_concat_eq_ok.2
        ⟨directory, walk_insert file walked, requireDirectory_insert file found, rfl⟩
    rw [read, resolve_eq_ok_iff.2 ⟨led, node?_insert_self below⟩]

/-- Writing to a path leaves every location alone that the path does not name. -/
theorem node?_write_of_ne {after : FileTree} (written : tree.write path bytes = .ok after)
    (other : tree.target path ≠ .ok location) : after.node? location = tree.node? location := by
  cases targeted : tree.target path with
  | error cause =>
    rw [write_of_target_eq_error targeted] at written
    cases written
  | ok named =>
    rw [write_of_target_eq_ok targeted] at written
    cases written
    have distinct : location ≠ named := by
      rintro rfl
      exact other targeted
    exact node?_insert_of_ne distinct

def IsWritable (tree : FileTree) (path : String) : Prop :=
  ∃ location, tree.target path = .ok location

theorem IsWritable.exists_write_eq_ok (writable : tree.IsWritable path) (bytes : Bytes) :
    ∃ after, tree.write path bytes = .ok after := by
  obtain ⟨location, targeted⟩ := writable
  exact ⟨_, write_of_target_eq_ok targeted⟩

/-! ## The empty path -/

theorem ne_empty_of_read_eq_ok (found : tree.read path = .ok bytes) : path ≠ "" := by
  rintro rfl
  cases found

theorem ne_empty_of_write_eq_ok {after : FileTree} (written : tree.write path bytes = .ok after) :
    path ≠ "" := by
  rintro rfl
  cases written

end Polyline.FileTree
