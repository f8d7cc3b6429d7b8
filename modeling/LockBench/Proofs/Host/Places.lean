import LockBench.Proofs.Host.Changes

/-!
# Places that stay

Where a path places something depends on the directories on its way only.  So a
path places the same wherever these directories are still there, it leads to
what is at its place, and it leads nowhere while nothing is there.
-/

namespace LockBench

namespace FileTree

variable {tree after : FileTree} {workingDir location : Location} {path : Path}

/-- No step of a path that places something is too long. -/
theorem short_of_place
    (placed : tree.place workingDir path = .ok (some location)) :
    ShortSteps path.steps := by
  obtain ⟨usable, front, parent, name, steps_eq, notUp, walked, isDirectory,
    -⟩ := place_eq_some placed
  obtain ⟨short, -⟩ :=
    (walk_bind_get? tree _ parent front .directory).mp ⟨walked, isDirectory⟩
  have nameShort : name.utf8ByteSize ≤ nameLimit := by
    rw [place, usable] at placed
    simp only [steps_eq, List.dropLast_concat, walked, bind, Except.bind,
      isDirectory, List.getLast?_concat, if_neg notUp] at placed
    split at placed
    · cases placed
    · rename_i notLong
      exact Nat.le_of_not_lt notLong
  intro step member
  rw [steps_eq, List.mem_append, List.mem_singleton] at member
  rcases member with onFront | rfl
  · exact short step onFront
  · exact .inr nameShort

/-- All that is left behind on the way to a place is a directory. -/
theorem passes_of_place
    (placed : tree.place workingDir path = .ok (some location)) :
    ∀ earlier ∈ (start workingDir path).passed path.steps,
      tree.get? earlier = some .directory := by
  obtain ⟨_, front, parent, name, steps_eq, _, walked, isDirectory, _⟩ :=
    place_eq_some placed
  obtain ⟨_, parent_eq, passes, _⟩ :=
    (walk_bind_get? tree _ parent front .directory).mp ⟨walked, isDirectory⟩
  intro earlier leftBehind
  rw [steps_eq, Location.passed_append, ← parent_eq, List.mem_append]
    at leftBehind
  rcases leftBehind with onFront | isParent
  · exact passes earlier onFront
  · obtain rfl : earlier = parent := by
      simpa [Location.passed] using isParent
    exact isDirectory

/-- A path places the same where the directories on its way are still
there. -/
theorem place_of_passes
    (placed : tree.place workingDir path = .ok (some location))
    (passes : ∀ earlier ∈ (start workingDir path).passed path.steps,
      after.get? earlier = some .directory) :
    after.place workingDir path = .ok (some location) := by
  have short := short_of_place placed
  obtain ⟨usable, front, parent, name, steps_eq, notUp, walked, isDirectory,
    location_eq⟩ := place_eq_some placed
  obtain ⟨_, parent_eq, _, _⟩ :=
    (walk_bind_get? tree _ parent front .directory).mp ⟨walked, isDirectory⟩
  rw [steps_eq, Location.passed_append, ← parent_eq] at passes
  rw [steps_eq] at short
  obtain ⟨walkedAfter, isDirectoryAfter⟩ :=
    (walk_bind_get? after _ parent front .directory).mpr
      ⟨fun step member => short step (List.mem_append_left _ member), parent_eq,
        fun earlier member => passes earlier (List.mem_append_left _ member),
        passes parent (List.mem_append_right _ (by simp [Location.passed]))⟩
  have nameShort : ¬nameLimit < name.utf8ByteSize :=
    Nat.not_lt.mpr ((short name (by simp)).resolve_left notUp)
  simp [place, usable, steps_eq, walkedAfter, bind, Except.bind,
    isDirectoryAfter, notUp, nameShort, location_eq, pure, Except.pure]

/-- A path places the same after something was put at its place, where no
directory was. -/
theorem place_put
    (placed : tree.place workingDir path = .ok (some location))
    (noDirectory : tree.get? location ≠ some .directory)
    (node : Node) :
    (tree.put location node).place workingDir path = .ok (some location) ∧
      (tree.put location node).get? location = some node := by
  obtain ⟨_, _, parent, name, _, _, _, _, location_eq⟩ := place_eq_some placed
  refine ⟨place_of_passes placed fun earlier leftBehind => ?_,
    get?_put_self tree location node (by simp [location_eq])⟩
  have wasDirectory := passes_of_place placed earlier leftBehind
  rw [get?_put_of_ne _ _ _, wasDirectory]
  rintro rfl
  exact noDirectory wasDirectory

/-- A path leads to the node at its place. -/
theorem leads_of_place
    {node : Node}
    (placed : tree.place workingDir path = .ok (some location))
    (present : tree.get? location = some node)
    (suits : node ≠ .directory -> path.asksDirectory = false) :
    tree.Leads workingDir path location node where
  usable := (place_eq_some placed).1
  short := short_of_place placed
  place_eq := place_eq_follow placed
  passes := passes_of_place placed
  present := present
  suits := suits

/-- Whatever is in the tree is in a directory. -/
def Rooted (tree : FileTree) : Prop :=
  ∀ location name, tree.get? (location ++ [name]) ≠ none ->
    tree.get? location = some .directory

theorem rooted_of_nodes
    (each : ∀ node ∈ tree.nodes,
      tree.get? node.1.dropLast = some .directory) : tree.Rooted := by
  intro location name present
  rw [get?_of_ne_root _ (by simp), ← Option.isSome_iff_ne_none,
    List.lookup_isSome_iff] at present
  obtain ⟨node, member, same⟩ := present
  have above := each node member
  rwa [← beq_iff_eq.mp same, List.dropLast_concat] at above

/-- Where nothing is, nothing is below. -/
theorem Rooted.nothing_below
    (rooted : tree.Rooted)
    (nothing : tree.get? location = none)
    (rest : List String) : tree.get? (location ++ rest) = none := by
  induction rest generalizing location with
  | nil => simpa using nothing
  | cons name rest inductionHypothesis =>
      rw [List.append_cons]
      apply inductionHypothesis
      apply Classical.byContradiction
      intro present
      rw [rooted location name present] at nothing
      cases nothing

/-- A file comes into a directory. -/
theorem Rooted.of_putsFile
    (rooted : tree.Rooted)
    (puts : PutsFile workingDir path tree after) : after.Rooted := by
  obtain ⟨place, content, executable, placed, notDirectory, rfl⟩ := puts
  obtain ⟨_, _, parent, last, _, _, _, isDirectory, place_eq⟩ :=
    place_eq_some placed
  intro location name present
  have wasDirectory : tree.get? location = some .directory := by
    by_cases isPlace : location ++ [name] = place
    · obtain ⟨rfl, _⟩ := List.append_inj' (isPlace.trans place_eq) rfl
      exact isDirectory
    · rw [get?_put_of_ne _ isPlace] at present
      exact rooted location name present
  rw [get?_put_of_ne _ _ _, wasDirectory]
  rintro rfl
  exact notDirectory wasDirectory

/-! ## Directories that are made -/

/-- Steps lead to a directory where all that is left behind is one. -/
theorem walk_eq_follow
    {here : Location}
    {steps : List String}
    (short : ShortSteps steps)
    (passes : ∀ earlier ∈ here.passed steps,
      tree.get? earlier = some .directory)
    (present : tree.get? (here.follow steps) = some .directory) :
    tree.walk here steps = .ok (here.follow steps) :=
  ((walk_bind_get? tree here _ steps _).mpr ⟨short, rfl, passes, present⟩).1

/-- No directory can be made where one is. -/
theorem makeDir_of_leads
    (leads : tree.Leads workingDir path location .directory) :
    tree.makeDir workingDir path = .error .fileExists := by
  obtain ⟨usable, short, rfl, passes, present, -⟩ := leads
  rcases List.eq_nil_or_concat path.steps with
    isEmpty | ⟨front, name, steps_eq⟩
  · rw [isEmpty, Location.follow_nil] at present
    simp [makeDir, place, usable, isEmpty, walk, present, bind, Except.bind,
      pure, Except.pure]
  · rw [List.concat_eq_append] at steps_eq
    rw [steps_eq] at short passes present
    rw [Location.passed_append] at passes
    have isDirectory := passes ((start workingDir path).follow front)
      (List.mem_append_right _ (by simp [Location.passed]))
    have walked := walk_eq_follow
      (fun step member => short step (List.mem_append_left _ member))
      (fun earlier member => passes earlier (List.mem_append_left _ member))
      isDirectory
    by_cases isUp : name = ".."
    · simp [makeDir, place, usable, steps_eq, walked, isDirectory, isUp, bind,
        Except.bind, pure, Except.pure]
    · have nameShort := (short name (by simp)).resolve_left isUp
      rw [Location.follow_append, Location.follow_cons, Location.follow_nil,
        Location.after, if_neg isUp] at present
      simp [makeDir, place, usable, steps_eq, walked, isDirectory, isUp,
        Nat.not_lt.mpr nameShort, present, bind, Except.bind, pure, Except.pure]

/-- A directory that is there is left as it is. -/
theorem makeDirs_of_leads
    (leads : tree.Leads workingDir path location .directory) :
    tree.makeDirs workingDir path = .ok tree := by
  have isDirectory : tree.isDirectory workingDir path = true :=
    (isDirectory_iff _ _ _).mpr ⟨_, leads⟩
  rw [makeDirs, makeDirsUpTo, makeDir_of_leads leads]
  simp [isDirectory]

/-! ## Changing the file at a place -/

/-- A file can be written under a path, whatever it holds. -/
structure TakesFile
    (tree : FileTree)
    (workingDir : Location)
    (path : Path)
    (location : Location) : Prop where
  /-- The path places something. -/
  placed : tree.place workingDir path = .ok (some location)
  /-- No directory is at its place. -/
  noDirectory : tree.get? location ≠ some .directory
  /-- The path does not end in a dot. -/
  noDot : path.endsInDot = false
  /-- The path does not ask for a directory. -/
  noSlash : path.asksDirectory = false

/-- What is at a place after the file there was changed, or made. -/
def edited
    (executable : Option Bool)
    (edit : ByteArray -> ByteArray) : Option Node -> Node
  | some (.file content old) => .file (edit content) (executable.getD old)
  | _ => .file (edit .empty) (executable.getD false)

theorem takesFile_of_change
    {executable : Option Bool}
    {edit : ByteArray -> ByteArray}
    (changed : tree.change workingDir path executable edit = .ok after) :
    ∃ location, tree.TakesFile workingDir path location := by
  rw [change] at changed
  cases placed : tree.place workingDir path with
  | error cause => simp [placed, bind, Except.bind] at changed
  | ok place =>
      simp only [placed, bind, Except.bind] at changed
      cases place with
      | none => cases changed
      | some location =>
          simp only at changed
          split at changed
          · split at changed <;> cases changed
          split at changed
          · cases changed
          rename_i noDot noSlash
          refine ⟨location, placed, ?_, by simpa using noDot,
            by simpa using noSlash⟩
          intro isDirectory
          simp [isDirectory] at changed

/-- Where a path takes a file, the file there is changed. -/
theorem TakesFile.change_eq
    (takes : tree.TakesFile workingDir path location)
    (executable : Option Bool)
    (edit : ByteArray -> ByteArray) :
    tree.change workingDir path executable edit = .ok (tree.put location
      (edited executable edit (tree.get? location))) := by
  obtain ⟨placed, noDirectory, noDot, noSlash⟩ := takes
  simp only [change, placed, noDot, noSlash, bind, Except.bind,
    Bool.false_eq_true, if_false]
  cases here_eq : tree.get? location with
  | none => rfl
  | some node =>
      cases node with
      | file content old => rfl
      | directory => exact absurd here_eq noDirectory

theorem edited_ne_directory
    (executable : Option Bool)
    (edit : ByteArray -> ByteArray)
    (here : Option Node) : edited executable edit here ≠ .directory := by
  match here with
  | none => exact nofun
  | some (.file _ _) => exact nofun
  | some .directory => exact nofun

/-- A path that takes a file leads to it then, and takes the next one. -/
theorem TakesFile.put
    (takes : tree.TakesFile workingDir path location)
    {node : Node}
    (isFile : node ≠ .directory) :
    (tree.put location node).TakesFile workingDir path location ∧
      (tree.put location node).get? location = some node := by
  obtain ⟨placed, isPut⟩ := place_put takes.placed takes.noDirectory node
  exact ⟨⟨placed, by simp [isPut, isFile], takes.noDot, takes.noSlash⟩, isPut⟩

/-- A file that is removed is what its path led to, and it is gone. -/
theorem removeFile_eq_ok
    (removed : tree.removeFile workingDir path = .ok after) :
    after.get? (path.locationFrom workingDir) = none := by
  rw [removeFile] at removed
  cases found : tree.find workingDir path with
  | error cause => simp [found, bind, Except.bind] at removed
  | ok reached =>
      obtain ⟨location, node⟩ := reached
      have leads := (find_eq_ok_iff _ _ _ _ _).mp found
      cases node with
      | directory => simp [found, bind, Except.bind] at removed
      | file content executable =>
          simp only [found, bind, Except.bind] at removed
          cases removed
          have below : location ≠ [] := by
            rintro rfl
            cases leads.present
          rw [Path.locationFrom, ← leads.place_eq]
          exact (pruned_remove tree below).gone location rfl

end FileTree
end LockBench
