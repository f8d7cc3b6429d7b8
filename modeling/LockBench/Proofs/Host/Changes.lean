import LockBench.Proofs.Host.Walk

/-!
# What operations on files change

An operation that writes to a file changes the node at one location, which was
no directory.  One that makes directories changes nothing that was there.  So
what a path leads to stays, unless it is the very file that is written to.
-/

namespace LockBench
namespace FileTree

/-! ## Single nodes -/

theorem get?_put_of_ne
    (tree : FileTree)
    {location other : Location}
    (different : other ≠ location)
    (node : Node) :
    (tree.put location node).get? other = tree.get? other := by
  cases other with
  | nil => rfl
  | cons name rest =>
      rw [get?_of_ne_root _ (by simp), get?_of_ne_root _ (by simp), put,
        List.lookup_cons]
      have differs : ((name :: rest) == location) = false := by
        simpa using different
      rw [differs]
      have kept := lookup_filter (fun place => place ≠ location)
        (name :: rest) tree.nodes
      simpa [different] using kept

/-- A path with the same nodes on its way and at its end leads to the same. -/
theorem Leads.congr
    {tree after : FileTree}
    {workingDir : Location}
    {path : Path}
    {place : Location}
    {node : Node}
    (leads : tree.Leads workingDir path place node)
    (sameWay : ∀ earlier ∈ (start workingDir path).passed path.steps,
      after.get? earlier = tree.get? earlier)
    (sameEnd : after.get? place = tree.get? place) :
    after.Leads workingDir path place node :=
  { leads with
    passes := fun earlier member =>
      (sameWay earlier member).trans (leads.passes earlier member)
    present := sameEnd.trans leads.present }

/-! ## Places -/

/-- What is placed is a name in a directory that the steps before lead to. -/
theorem place_eq_some
    {tree : FileTree}
    {workingDir location : Location}
    {path : Path}
    (placed : tree.place workingDir path = .ok (some location)) :
    unusable? path = none ∧ ∃ front parent name,
      path.steps = front ++ [name] ∧ name ≠ ".." ∧
        tree.walk (start workingDir path) front = .ok parent ∧
        tree.get? parent = some .directory ∧
        location = parent ++ [name] := by
  rw [place] at placed
  split at placed
  · cases placed
  rename_i usable
  refine ⟨usable, ?_⟩
  cases walked : tree.walk (start workingDir path) path.steps.dropLast with
  | error cause => simp [walked, bind, Except.bind] at placed
  | ok parent =>
      simp only [walked, bind, Except.bind] at placed
      split at placed
      · rename_i isDirectory
        split at placed
        · cases placed
        · rename_i name last_eq
          obtain ⟨front, steps_eq⟩ := List.getLast?_eq_some_iff.mp last_eq
          rw [steps_eq, List.dropLast_concat] at walked
          split at placed
          · cases placed
          · rename_i notUp
            split at placed
            · cases placed
            · cases placed
              exact ⟨front, parent, name, steps_eq, notUp, walked, isDirectory,
                rfl⟩
      · cases placed
      · cases placed

/-- What is placed is where the steps of the path lead. -/
theorem place_eq_follow
    {tree : FileTree}
    {workingDir location : Location}
    {path : Path}
    (placed : tree.place workingDir path = .ok (some location)) :
    location = (start workingDir path).follow path.steps := by
  obtain ⟨_, front, parent, name, steps_eq, notUp, walked, isDirectory,
    location_eq⟩ := place_eq_some placed
  obtain ⟨_, parent_eq, _, _⟩ :=
    (walk_bind_get? tree _ parent front .directory).mp ⟨walked, isDirectory⟩
  rw [steps_eq, Location.follow_append, ← parent_eq, location_eq,
    Location.follow_cons, Location.after, if_neg notUp]
  rfl

/-- An absolute path places its own location, by a way made of directories. -/
theorem place_eq_some_of_absolute
    {tree : FileTree}
    {workingDir location : Location}
    {path : Path}
    (absolute : path.isAbsolute = true)
    (placed : tree.place workingDir path = .ok (some location)) :
    location = path.location ∧ location ≠ [] ∧
      ∀ earlier ∈ path.way, tree.get? earlier = some .directory := by
  obtain ⟨_, front, parent, name, steps_eq, notUp, walked, isDirectory,
    location_eq⟩ := place_eq_some placed
  rw [start_of_absolute absolute] at walked
  obtain ⟨_, parent_eq, passes, _⟩ :=
    (walk_bind_get? tree [] parent front .directory).mp ⟨walked, isDirectory⟩
  refine ⟨?_, by simp [location_eq], ?_⟩
  · rw [Path.location, place_eq_follow placed, start_of_absolute absolute]
  · intro earlier onWay
    rw [Path.way, steps_eq, Location.passed_append, ← parent_eq,
      List.mem_append] at onWay
    rcases onWay with onFront | isParent
    · exact passes earlier onFront
    · obtain rfl : earlier = parent := by
        simpa [Location.passed] using isParent
      exact isDirectory

/-! ## Writing -/

/-- One node was put at the place of a path, where no directory was. -/
def PutsFile
    (workingDir : Location)
    (path : Path)
    (tree after : FileTree) : Prop :=
  ∃ location content executable,
    tree.place workingDir path = .ok (some location) ∧
      tree.get? location ≠ some .directory ∧
      after = tree.put location (.file content executable)

theorem putsFile_of_change
    {tree after : FileTree}
    {workingDir : Location}
    {path : Path}
    {executable : Option Bool}
    {edit : ByteArray -> ByteArray}
    (changed : tree.change workingDir path executable edit = .ok after) :
    PutsFile workingDir path tree after := by
  rw [change] at changed
  cases placed : tree.place workingDir path with
  | error cause => simp [placed, bind, Except.bind] at changed
  | ok place =>
      simp only [placed, bind, Except.bind] at changed
      cases place with
      | none => cases changed
      | some location =>
          simp only at changed
          split at changed
          · split at changed <;> cases changed
          · split at changed
            · cases changed
            · split at changed
              · cases changed
              · rename_i here_eq
                cases changed
                exact ⟨location, _, _, placed, by simp [here_eq], rfl⟩
              · rename_i here_eq
                cases changed
                exact ⟨location, _, _, placed, by simp [here_eq], rfl⟩

theorem putsFile_of_append
    {tree after : FileTree}
    {workingDir : Location}
    {path : Path}
    {content : ByteArray}
    (appended : tree.append workingDir path content = .ok after) :
    PutsFile workingDir path tree after :=
  putsFile_of_change appended

theorem putsFile_of_write
    {tree after : FileTree}
    {workingDir : Location}
    {path : Path}
    {content : ByteArray}
    (written : tree.write workingDir path content = .ok after) :
    PutsFile workingDir path tree after :=
  putsFile_of_change written

/-- A file is copied by being emptied and written. -/
theorem putsFile_of_copy
    {tree after : FileTree}
    {workingDir : Location}
    {source target : Path}
    (copied : tree.copy workingDir source target = .ok after) :
    ∃ emptied, PutsFile workingDir target tree emptied ∧
      PutsFile workingDir target emptied after := by
  rw [copy] at copied
  cases found : tree.find workingDir source with
  | error cause => simp [found, bind, Except.bind] at copied
  | ok place =>
      obtain ⟨location, node⟩ := place
      cases node with
      | directory => simp [found, bind, Except.bind] at copied
      | file content executable =>
          simp only [found, bind, Except.bind] at copied
          split at copied
          · cases copied
          · rename_i emptied changed
            split at copied
            · cases copied
            · exact ⟨emptied, putsFile_of_change changed,
                putsFile_of_write copied⟩

/-! ## Making directories -/

/-- What was there is still there. -/
def Grows (tree after : FileTree) : Prop :=
  ∀ location node, tree.get? location = some node ->
    after.get? location = some node

theorem Grows.trans
    {tree middle after : FileTree}
    (first : tree.Grows middle)
    (second : middle.Grows after) : tree.Grows after :=
  fun location node present =>
    second location node (first location node present)

/-- A directory is made where nothing was. -/
theorem makeDir_eq_ok
    {tree after : FileTree}
    {workingDir : Location}
    {path : Path}
    (made : tree.makeDir workingDir path = .ok after) :
    ∃ location, tree.place workingDir path = .ok (some location) ∧
      tree.get? location = none ∧ after = tree.put location .directory := by
  rw [makeDir] at made
  cases placed : tree.place workingDir path with
  | error cause => simp [placed, bind, Except.bind] at made
  | ok place =>
      simp only [placed, bind, Except.bind] at made
      cases place with
      | none => cases made
      | some location =>
          simp only at made
          split at made
          · cases made
          · split at made <;> cases made
          · rename_i nothing
            split at made
            · cases made
            · cases made
              exact ⟨location, rfl, nothing, rfl⟩

theorem grows_of_makeDir
    {tree after : FileTree}
    {workingDir : Location}
    {path : Path}
    (made : tree.makeDir workingDir path = .ok after) : tree.Grows after := by
  obtain ⟨location, _, nothing, rfl⟩ := makeDir_eq_ok made
  intro other node present
  rw [get?_put_of_ne]
  · exact present
  · rintro rfl
    simp [nothing] at present

theorem grows_of_ensureDir
    {tree after : FileTree}
    {workingDir : Location}
    {path : Path}
    (ensured : tree.ensureDir workingDir path = .ok after) :
    tree.Grows after := by
  rw [ensureDir] at ensured
  split at ensured
  · rename_i made made_eq
    cases ensured
    exact grows_of_makeDir made_eq
  · split at ensured
    · cases ensured
      exact fun _ _ => id
    · cases ensured

theorem grows_of_makeDirsUpTo
    {levels : Nat}
    {tree after : FileTree}
    {workingDir : Location}
    {path : Path}
    (made : makeDirsUpTo levels tree workingDir path = .ok after) :
    tree.Grows after := by
  induction levels generalizing path tree after with
  | zero => exact grows_of_ensureDir made
  | succ levels inductionHypothesis =>
      rw [makeDirsUpTo] at made
      split at made
      · cases made
        exact fun _ _ => id
      · split at made
        · rename_i fresh made_eq
          cases made
          exact grows_of_makeDir made_eq
        · split at made
          · cases made
          · rename_i parent _
            cases parents_eq :
                makeDirsUpTo levels tree workingDir parent with
            | error cause => simp [parents_eq, bind, Except.bind] at made
            | ok middle =>
                simp only [parents_eq, bind, Except.bind] at made
                exact (inductionHypothesis parents_eq).trans
                  (grows_of_ensureDir made)
        · split at made
          · cases made
            exact fun _ _ => id
          · cases made

/-- Making directories keeps all that is there. -/
theorem grows_of_makeDirs
    {tree after : FileTree}
    {workingDir : Location}
    {path : Path}
    (made : tree.makeDirs workingDir path = .ok after) : tree.Grows after :=
  grows_of_makeDirsUpTo made

/-! ## Files that stay -/

/-- A path leads to a file. -/
def HoldsFile
    (tree : FileTree)
    (workingDir : Location)
    (path : Path) : Prop :=
  ∃ place content executable,
    tree.Leads workingDir path place (.file content executable)

instance
    (tree : FileTree)
    (workingDir : Location)
    (path : Path) : Decidable (tree.HoldsFile workingDir path) :=
  match found : tree.find workingDir path with
  | .ok (place, .file content executable) =>
    isTrue ⟨place, content, executable, (find_eq_ok_iff _ _ _ _ _).mp found⟩
  | .ok (_, .directory) =>
    isFalse fun ⟨_, _, _, leads⟩ => by
      simp [(find_eq_ok_iff _ _ _ _ _).mpr leads] at found
  | .error _ =>
    isFalse fun ⟨_, _, _, leads⟩ => by
      simp [(find_eq_ok_iff _ _ _ _ _).mpr leads] at found

namespace HoldsFile

variable {tree after : FileTree} {workingDir : Location} {path : Path}

theorem reaches
    (holds : tree.HoldsFile workingDir path) :
    tree.Reaches workingDir path := by
  obtain ⟨place, content, executable, leads⟩ := holds
  exact ⟨place, _, leads⟩

/-- Where a file is, no directory is. -/
theorem isDirectory_eq
    (holds : tree.HoldsFile workingDir path) :
    tree.isDirectory workingDir path = false := by
  obtain ⟨place, content, executable, leads⟩ := holds
  rw [← find_eq_ok_iff] at leads
  simp [isDirectory, leads]

/-- A file stays where nothing on its way or at its location changes. -/
theorem congr
    (holds : tree.HoldsFile workingDir path)
    (absolute : path.isAbsolute = true)
    (same : ∀ location, location ∈ path.way ∨ location = path.location ->
      after.get? location = tree.get? location) :
    after.HoldsFile workingDir path := by
  obtain ⟨place, content, executable, leads⟩ := holds
  refine ⟨place, content, executable, leads.congr ?_ ?_⟩
  · rw [start_of_absolute absolute]
    exact fun earlier onWay => same earlier (.inl onWay)
  · exact same place (.inr (leads.place_eq_location absolute))

theorem of_grows
    (holds : tree.HoldsFile workingDir path)
    (grows : tree.Grows after) : after.HoldsFile workingDir path := by
  obtain ⟨place, content, executable, leads⟩ := holds
  exact ⟨place, content, executable,
    { leads with
      passes := fun earlier member =>
        grows earlier .directory (leads.passes earlier member)
      present := grows place _ leads.present }⟩

/-- A file stays where a file of another name is written, since the locations
on its way are directories. -/
theorem of_putsFile
    (holds : tree.HoldsFile workingDir path)
    (absolute : path.isAbsolute = true)
    {dir : Path}
    {name : String}
    (isName : Path.IsName name)
    (otherName : path.location.getLast? ≠ some name)
    (puts : PutsFile workingDir (dir.join name) tree after) :
    after.HoldsFile workingDir path := by
  obtain ⟨location, content, executable, placed, notDirectory, rfl⟩ := puts
  obtain ⟨_, front, parent, last, steps_eq, _, _, _, location_eq⟩ :=
    place_eq_some placed
  rw [Path.steps_join dir isName] at steps_eq
  obtain ⟨_, last_eq⟩ := List.append_inj' steps_eq rfl
  obtain rfl : name = last := by simpa using last_eq
  have reaches := holds.reaches
  refine holds.congr absolute fun place isNeeded => ?_
  rw [get?_put_of_ne]
  rintro rfl
  rcases isNeeded with onWay | atEnd
  · obtain ⟨_, _, leads⟩ := reaches
    exact notDirectory (leads.isDirectory_of_mem_way absolute onWay)
  · apply otherName
    rw [← atEnd, location_eq, List.getLast?_concat]

/-- A file stays where what is gone is neither on its way nor itself. -/
theorem of_pruned
    {removed : Location -> Prop}
    (holds : tree.HoldsFile workingDir path)
    (absolute : path.isAbsolute = true)
    (pruned : tree.Pruned removed after)
    (kept : ∀ location, location ∈ path.way ∨ location = path.location ->
      ¬removed location) : after.HoldsFile workingDir path :=
  holds.congr absolute fun location isNeeded =>
    pruned.kept location (kept location isNeeded)

end HoldsFile

/-! ## Paths that stay -/

instance
    (tree : FileTree)
    (workingDir : Location)
    (path : Path) : Decidable (tree.Reaches workingDir path) :=
  match found : tree.find workingDir path with
  | .ok (place, node) =>
    isTrue ⟨place, node, (find_eq_ok_iff _ _ _ _ _).mp found⟩
  | .error _ =>
    isFalse fun ⟨_, _, leads⟩ => by
      simp [(find_eq_ok_iff _ _ _ _ _).mpr leads] at found

namespace Reaches

variable {tree after : FileTree} {workingDir : Location} {path : Path}

/-- A path leads somewhere where nothing on its way or at its location has
changed. -/
theorem congr
    (reaches : tree.Reaches workingDir path)
    (absolute : path.isAbsolute = true)
    (same : ∀ location, location ∈ path.way ∨ location = path.location ->
      after.get? location = tree.get? location) :
    after.Reaches workingDir path := by
  obtain ⟨place, node, leads⟩ := reaches
  refine ⟨place, node, leads.congr ?_ ?_⟩
  · rw [start_of_absolute absolute]
    exact fun earlier onWay => same earlier (.inl onWay)
  · exact same place (.inr (leads.place_eq_location absolute))

theorem of_grows
    (reaches : tree.Reaches workingDir path)
    (grows : tree.Grows after) : after.Reaches workingDir path := by
  obtain ⟨place, node, leads⟩ := reaches
  exact ⟨place, node,
    { leads with
      passes := fun earlier member =>
        grows earlier .directory (leads.passes earlier member)
      present := grows place node leads.present }⟩

/-- Writing a file takes nothing away: the file may be what the path leads to,
but it is no directory on the way. -/
theorem of_putsFile
    (reaches : tree.Reaches workingDir path)
    {written : Path}
    (puts : PutsFile workingDir written tree after) :
    after.Reaches workingDir path := by
  obtain ⟨place, node, leads⟩ := reaches
  obtain ⟨location, content, executable, placed, notDirectory, rfl⟩ := puts
  have passes : ∀ earlier ∈ (start workingDir path).passed path.steps,
      (tree.put location (.file content executable)).get? earlier =
        some .directory := by
    intro earlier member
    have isDirectory := leads.passes earlier member
    rw [get?_put_of_ne _ _ _, isDirectory]
    rintro rfl
    exact notDirectory isDirectory
  by_cases isWritten : place = location
  · obtain rfl := isWritten
    obtain ⟨_, _, parent, name, _, _, _, _, place_eq⟩ := place_eq_some placed
    have isFile : node ≠ .directory := by
      rintro rfl
      exact notDirectory leads.present
    exact ⟨place, .file content executable,
      { leads with
        passes
        present := get?_put_self tree place _ (by simp [place_eq])
        suits := fun _ => leads.suits isFile }⟩
  · exact ⟨place, node,
      { leads with
        passes
        present := (get?_put_of_ne _ isWritten _).trans leads.present }⟩

/-- A path leads somewhere still where what is gone is neither on its way nor
its location. -/
theorem of_pruned
    {removed : Location -> Prop}
    (reaches : tree.Reaches workingDir path)
    (absolute : path.isAbsolute = true)
    (pruned : tree.Pruned removed after)
    (kept : ∀ location, location ∈ path.way ∨ location = path.location ->
      ¬removed location) : after.Reaches workingDir path :=
  reaches.congr absolute fun location isNeeded =>
    pruned.kept location (kept location isNeeded)

end Reaches

/-! ## Fresh directories -/

/-- Whatever is above a location that is left behind is left behind too, or is
above the start. -/
theorem mem_passed_of_prefix
    {location earlier above : Location}
    {steps : List String}
    (leftBehind : earlier ∈ location.passed steps)
    (isAbove : above <+: earlier) :
    above ∈ location.passed steps ∨ above <+: location := by
  induction steps generalizing location with
  | nil => simp [Location.passed] at leftBehind
  | cons step rest inductionHypothesis =>
      rw [Location.passed, List.mem_cons] at leftBehind
      rcases leftBehind with rfl | further
      · exact .inr isAbove
      rcases inductionHypothesis further with isFurther | aboveNext
      · exact .inl (List.mem_cons_of_mem location isFurther)
      -- The next location is one name longer than this one, or shorter.
      rw [Location.after] at aboveNext
      split at aboveNext
      · exact .inr (aboveNext.trans (List.dropLast_prefix location))
      · rename_i notUp
        rcases List.prefix_concat_iff.mp aboveNext with isNext | aboveThis
        · left
          cases rest with
          | nil => simp [Location.passed] at further
          | cons other others =>
              simp [Location.passed, Location.after, notUp, isNext]
        · exact .inr aboveThis

/-- The way to a directory that is newly made does not lead through it. -/
theorem not_prefix_of_mem_way_of_makeDir
    {tree after : FileTree}
    {workingDir : Location}
    {path : Path}
    (absolute : path.isAbsolute = true)
    (made : tree.makeDir workingDir path = .ok after)
    {earlier : Location}
    (onWay : earlier ∈ path.way) : ¬path.location <+: earlier := by
  obtain ⟨location, placed, nothing, _⟩ := makeDir_eq_ok made
  obtain ⟨rfl, below, areDirectories⟩ :=
    place_eq_some_of_absolute absolute placed
  intro isBelow
  rcases mem_passed_of_prefix onWay isBelow with isOnWay | isRoot
  · simp [areDirectories path.location isOnWay] at nothing
  · exact below (List.prefix_nil.mp isRoot)

end FileTree
end LockBench
