import LockBench.Proofs.Host.Places

/-!
# Where files change

A scope tells where files may change: at some locations anything may happen, at
others a file may come, change or go, and at others still a directory may be
made where nothing was.  Everything outside is as it was, and a directory stays
wherever not anything may happen.  Changes within a scope one after another are
within it, so what a run may change follows from what each request may.
-/

namespace LockBench

/-- Where files may change. -/
structure Scope where
  /-- Anything may happen here. -/
  free : Location -> Prop := fun _ => False
  /-- A file may come, change or go here. -/
  files : Location -> Prop := fun _ => False
  /-- A directory may be made here where nothing was. -/
  dirs : Location -> Prop := fun _ => False

/-- All that a scope allows, a wider one allows as well. -/
structure Scope.Le (scope wider : Scope) : Prop where
  /-- Where anything may happen, it may in the wider scope. -/
  free : ∀ location, scope.free location -> wider.free location
  /-- Where files may change, they may in the wider scope. -/
  files : ∀ location, scope.files location ->
    wider.free location ∨ wider.files location
  /-- Where directories may be made, they may in the wider scope. -/
  dirs : ∀ location, scope.dirs location ->
    wider.free location ∨ wider.dirs location

namespace Scope

variable {scope wider widest : Scope}

/-- A scope in which nothing may change is part of every other one. -/
theorem empty_le (scope : Scope) : Le {} scope :=
  ⟨fun _ => False.elim, fun _ => False.elim, fun _ => False.elim⟩

theorem Le.trans
    (first : scope.Le wider)
    (second : wider.Le widest) : scope.Le widest where
  free location isFree := second.free location (first.free location isFree)
  files location isFile :=
    (first.files location isFile).elim (.inl ∘ second.free location)
      (second.files location)
  dirs location isDir :=
    (first.dirs location isDir).elim (.inl ∘ second.free location)
      (second.dirs location)

/-- A scope in which all is free is part of one that has it free as well. -/
theorem free_le
    {free : Location -> Prop}
    (each : ∀ location, free location -> wider.free location) :
    Le { free } wider :=
  ⟨each, fun _ => False.elim, fun _ => False.elim⟩

/-- A scope of single files is part of one that may change them. -/
theorem files_le
    {files : Location -> Prop}
    (each : ∀ location, files location ->
      wider.free location ∨ wider.files location) : Le { files } wider :=
  ⟨fun _ => False.elim, each, fun _ => False.elim⟩

/-- A scope of directories is part of one in which they may be made. -/
theorem dirs_le
    {dirs : Location -> Prop}
    (each : ∀ location, dirs location ->
      wider.free location ∨ wider.dirs location) : Le { dirs } wider :=
  ⟨fun _ => False.elim, fun _ => False.elim, each⟩

end Scope

/-! ## The trail of a path -/

namespace Path

/-- The locations that a path leads through, with the one that it leads to. -/
def trail
    (workingDir : Location)
    (path : Path) : List Location :=
  (FileTree.start workingDir path).passed path.steps ++
    [path.locationFrom workingDir]

theorem trail_join
    (workingDir : Location)
    (dir : Path)
    {name : String}
    (isName : IsName name) :
    (dir.join name).trail workingDir =
      dir.trail workingDir ++ [dir.locationFrom workingDir ++ [name]] := by
  rw [trail, locationFrom_join workingDir dir isName, FileTree.start,
    isAbsolute_join_eq dir isName, steps_join dir isName,
    Location.passed_append]
  rfl

/-- No mark is left in a text that is split at it. -/
theorem notMem_of_mem_splitFrom
    {mark : Char}
    {current text : List Char}
    (unmarked : mark ∉ current)
    {part : String}
    (member : part ∈ splitFrom mark current text) :
    mark ∉ part.toList := by
  induction text generalizing current with
  | nil =>
      obtain rfl : part = String.ofList current.reverse := by
        simpa [splitFrom] using member
      simpa using unmarked
  | cons c rest inductionHypothesis =>
      rw [splitFrom] at member
      split at member
      · rcases List.mem_cons.mp member with rfl | inRest
        · simpa using unmarked
        · exact inductionHypothesis (by simp) inRest
      · rename_i notMark
        refine inductionHypothesis ?_ member
        rw [List.mem_cons, not_or]
        exact ⟨fun isMark => notMark isMark.symm, unmarked⟩

/-- Steps that are joined by slashes are the steps of the path that they
make. -/
theorem filter_splitFrom_intercalate
    {names : List String}
    (areSteps : ∀ name ∈ names, '/' ∉ name.toList ∧ isStep name = true) :
    (splitFrom '/' [] ("/".intercalate names).toList).filter isStep =
      names := by
  induction names with
  | nil => simp [splitFrom, isStep]
  | cons name rest inductionHypothesis =>
      rw [List.forall_mem_cons] at areSteps
      have name_eq : splitFrom '/' [] name.toList = [name] := by
        simpa using splitFrom_of_notMem areSteps.1.1 []
      cases rest with
      | nil => simp [name_eq, areSteps.1.2]
      | cons other others =>
          have rest_eq := inductionHypothesis areSteps.2
          rw [String.intercalate_cons_of_ne_nil (by simp),
            String.toList_append, String.toList_append, List.append_assoc]
          rw [show "/".toList = ['/'] from rfl, List.singleton_append,
            splitFrom_append, List.filter_append, rest_eq, name_eq]
          simp [areSteps.1.2]

/-- A path that is made of steps is relative. -/
theorem isAbsolute_intercalate
    {names : List String}
    (areSteps : ∀ name ∈ names, '/' ∉ name.toList ∧ isStep name = true) :
    isAbsolute ⟨"/".intercalate names⟩ = false := by
  cases names with
  | nil => simp [isAbsolute]
  | cons name rest =>
      obtain ⟨noSlash, isStep⟩ := areSteps name List.mem_cons_self
      obtain ⟨c, others, name_eq⟩ : ∃ c others, name.toList = c :: others := by
        refine List.exists_cons_of_ne_nil fun isEmpty => ?_
        have name_eq : name = "" := by simpa using isEmpty
        simp [Path.isStep, name_eq] at isStep
      have notSlash : c ≠ '/' := by
        rintro rfl
        exact noSlash (by simp [name_eq])
      cases rest with
      | nil => simp [isAbsolute, name_eq, notSlash]
      | cons other _ =>
          rw [String.intercalate_cons_of_ne_nil (by simp)]
          simp [isAbsolute, name_eq, notSlash]

/-- The path above another one has all its steps but the last, and starts where
it starts. -/
theorem steps_of_parent?
    {path parent : Path}
    (above : path.parent? = some parent) :
    parent.steps = path.steps.dropLast ∧
      parent.isAbsolute = path.isAbsolute ∧ path.steps ≠ [] := by
  rw [parent?] at above
  split at above
  · cases above
  rename_i someStep
  cases above
  have areSteps : ∀ name ∈ path.steps.dropLast,
      '/' ∉ name.toList ∧ isStep name = true := by
    intro name member
    obtain ⟨isPart, isStep⟩ :=
      List.mem_filter.mp (List.dropLast_subset path.steps member)
    exact ⟨notMem_of_mem_splitFrom List.not_mem_nil isPart, isStep⟩
  have steps_eq := filter_splitFrom_intercalate areSteps
  refine ⟨?_, ?_, by simpa using someStep⟩
  · rw [steps, parts, splitAt]
    cases path.isAbsolute with
    | false => simpa using steps_eq
    | true =>
        rw [if_pos rfl, String.toList_append,
          show "/".toList = ['/'] from rfl, List.singleton_append]
        rw [splitFrom, if_pos rfl]
        simpa [isStep] using steps_eq
  · cases path.isAbsolute with
    | true => simp [isAbsolute]
    | false => simpa using isAbsolute_intercalate areSteps

/-- The trail of the path above another one is a part of that one's. -/
theorem trail_of_parent?
    {path parent : Path}
    (above : path.parent? = some parent)
    (workingDir : Location) :
    ∀ location ∈ parent.trail workingDir, location ∈ path.trail workingDir := by
  obtain ⟨steps_eq, absolute_eq, someStep⟩ := steps_of_parent? above
  have start_eq : FileTree.start workingDir parent =
      FileTree.start workingDir path := by
    rw [FileTree.start, FileTree.start, absolute_eq]
  obtain ⟨front, last, split_eq⟩ :=
    (List.eq_nil_or_concat path.steps).resolve_left someStep
  have trail_eq : parent.trail workingDir =
      (FileTree.start workingDir path).passed path.steps := by
    rw [trail, locationFrom, start_eq, steps_eq, split_eq, List.concat_eq_append,
      List.dropLast_concat, Location.passed_append]
    rfl
  intro location member
  rw [trail_eq] at member
  exact List.mem_append_left _ member

end Path

namespace FileTree

/-- Only what a scope tells has changed. -/
structure ChangesWithin
    (tree : FileTree)
    (scope : Scope)
    (after : FileTree) : Prop where
  /-- A directory stays where not anything may happen. -/
  stays : ∀ location, ¬scope.free location ->
    tree.get? location = some .directory ->
      after.get? location = some .directory
  /-- What has changed is in the scope. -/
  inside : ∀ location, after.get? location ≠ tree.get? location ->
    scope.free location ∨ scope.files location ∨
      scope.dirs location ∧ tree.get? location = none ∧
        after.get? location = some .directory

namespace ChangesWithin

variable {scope wider : Scope} {tree middle after : FileTree}

theorem rfl : tree.ChangesWithin scope tree :=
  ⟨fun _ _ => id, fun _ differs => absurd (Eq.refl _) differs⟩

/-- Changes one after another are within a scope where each of them is. -/
theorem trans
    (first : tree.ChangesWithin scope middle)
    (second : middle.ChangesWithin scope after) :
    tree.ChangesWithin scope after where
  stays location notFree isDirectory :=
    second.stays location notFree (first.stays location notFree isDirectory)
  inside location differs := by
    by_cases isFree : scope.free location
    · exact .inl isFree
    by_cases same : middle.get? location = tree.get? location
    · rw [← same] at differs ⊢
      exact second.inside location differs
    · refine (first.inside location same).imp id (Or.imp id ?_)
      rintro ⟨mayBeMade, nothing, made⟩
      exact ⟨mayBeMade, nothing, second.stays location isFree made⟩

/-- What is within a scope is within a wider one. -/
theorem mono
    (changes : tree.ChangesWithin scope after)
    (wide : scope.Le wider) : tree.ChangesWithin wider after where
  stays location notFree :=
    changes.stays location fun isFree => notFree (wide.free location isFree)
  inside location differs := by
    rcases changes.inside location differs with isFree | isFile | ⟨isDir, made⟩
    · exact .inl (wide.free location isFree)
    · exact (wide.files location isFile).imp id .inl
    · exact (wide.dirs location isDir).imp id fun isDir => .inr ⟨isDir, made⟩

/-- What is outside of a scope is as it was. -/
theorem outside
    (changes : tree.ChangesWithin scope after)
    {location : Location}
    (notFree : ¬scope.free location)
    (notFile : ¬scope.files location)
    (notDir : ¬scope.dirs location) :
    after.get? location = tree.get? location := by
  apply Classical.byContradiction
  intro differs
  rcases changes.inside location differs with isFree | isFile | ⟨isDir, _⟩
  · exact notFree isFree
  · exact notFile isFile
  · exact notDir isDir

end ChangesWithin

/-! ## What operations change -/

section Operations

variable {tree after : FileTree} {workingDir : Location} {path : Path}

/-- Writing to a file changes what is at its location. -/
theorem changesWithin_of_putsFile
    (puts : PutsFile workingDir path tree after) :
    tree.ChangesWithin { files := (· = path.locationFrom workingDir) }
      after := by
  obtain ⟨location, content, executable, placed, notDirectory, rfl⟩ := puts
  obtain rfl : location = path.locationFrom workingDir := place_eq_follow placed
  constructor
  · intro other _ isDirectory
    rw [get?_put_of_ne _ _ _, isDirectory]
    rintro rfl
    exact notDirectory isDirectory
  · intro other differs
    by_cases isLocation : other = path.locationFrom workingDir
    · exact .inr (.inl isLocation)
    · exact absurd (get?_put_of_ne _ isLocation _) differs

/-- Making a directory changes what is at its location. -/
theorem changesWithin_of_makeDir
    (made : tree.makeDir workingDir path = .ok after) :
    tree.ChangesWithin { dirs := (· ∈ path.trail workingDir) } after := by
  obtain ⟨location, placed, nothing, rfl⟩ := makeDir_eq_ok made
  obtain ⟨_, _, parent, name, _, _, _, _, location_eq⟩ := place_eq_some placed
  have onTrail : location ∈ path.trail workingDir := by
    rw [Path.trail, Path.locationFrom, ← place_eq_follow placed]
    simp
  have isMade := get?_put_self tree location .directory (by simp [location_eq])
  constructor
  · intro other _ isDirectory
    rw [get?_put_of_ne _ _ _, isDirectory]
    rintro rfl
    simp [nothing] at isDirectory
  · intro other differs
    by_cases isLocation : other = location
    · subst isLocation
      exact .inr (.inr ⟨onTrail, nothing, isMade⟩)
    · exact absurd (get?_put_of_ne _ isLocation _) differs

theorem changesWithin_of_ensureDir
    (ensured : tree.ensureDir workingDir path = .ok after) :
    tree.ChangesWithin { dirs := (· ∈ path.trail workingDir) } after := by
  rw [ensureDir] at ensured
  split at ensured
  · rename_i made made_eq
    cases ensured
    exact changesWithin_of_makeDir made_eq
  · split at ensured
    · cases ensured
      exact .rfl
    · cases ensured

/-- Directories above a path are on its trail. -/
theorem le_of_parent?
    {parent : Path}
    (above : path.parent? = some parent)
    (workingDir : Location) :
    Scope.Le { dirs := (· ∈ parent.trail workingDir) }
      { dirs := (· ∈ path.trail workingDir) } :=
  Scope.dirs_le fun location =>
    .inr ∘ Path.trail_of_parent? above workingDir location

theorem changesWithin_of_makeDirsUpTo
    {levels : Nat}
    (made : makeDirsUpTo levels tree workingDir path = .ok after) :
    tree.ChangesWithin { dirs := (· ∈ path.trail workingDir) } after := by
  induction levels generalizing path tree after with
  | zero => exact changesWithin_of_ensureDir made
  | succ levels inductionHypothesis =>
      rw [makeDirsUpTo] at made
      split at made
      · cases made
        exact .rfl
      split at made
      · rename_i fresh made_eq
        cases made
        exact changesWithin_of_makeDir made_eq
      · split at made
        · cases made
        · rename_i parent above
          cases parents_eq : makeDirsUpTo levels tree workingDir parent with
          | error cause => simp [parents_eq, bind, Except.bind] at made
          | ok middle =>
              simp only [parents_eq, bind, Except.bind] at made
              exact ((inductionHypothesis parents_eq).mono
                (le_of_parent? above workingDir)).trans
                (changesWithin_of_ensureDir made)
      · split at made
        · cases made
          exact .rfl
        · cases made

/-- Making directories makes some on the trail of the path. -/
theorem changesWithin_of_makeDirs
    (made : tree.makeDirs workingDir path = .ok after) :
    tree.ChangesWithin { dirs := (· ∈ path.trail workingDir) } after :=
  changesWithin_of_makeDirsUpTo made

theorem changesWithin_leftUpTo
    (levels : Nat)
    (tree : FileTree)
    (workingDir : Location)
    (path : Path) :
    tree.ChangesWithin { dirs := (· ∈ path.trail workingDir) }
      (leftUpTo levels tree workingDir path) := by
  induction levels generalizing path with
  | zero => exact .rfl
  | succ levels inductionHypothesis =>
      rw [leftUpTo]
      split
      · rename_i parent _ above
        have wide := le_of_parent? above workingDir
        split
        · rename_i made made_eq
          exact (changesWithin_of_makeDirsUpTo made_eq).mono wide
        · exact (inductionHypothesis parent).mono wide
      · exact .rfl

/-- Where a directory cannot be made, some on the trail of its path may have
been made. -/
theorem changesWithin_leftByDirs
    (tree : FileTree)
    (workingDir : Location)
    (path : Path) :
    tree.ChangesWithin { dirs := (· ∈ path.trail workingDir) }
      (tree.leftByDirs workingDir path) :=
  changesWithin_leftUpTo _ tree workingDir path

end Operations

end FileTree
end LockBench
