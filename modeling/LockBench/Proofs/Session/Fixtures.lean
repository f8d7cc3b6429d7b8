import LockBench.Proofs.Host.Snapshots
import LockBench.Proofs.Session.Finding
import LockBench.Proofs.Session.Loading
import LockBench.Task.Run

/-!
# Names of fixtures

The names of the fixtures are listed by going through a directory, and a name is
resolved by trying a few paths.  Both look at the same files: every name of the
list stands for a fixture, in whatever order the directory is gone through,
unless an entry of the directory has a name that is no text.  What is listed for
it then is not its name, and resolves to nothing or to something else.
-/

namespace LockBench
namespace Fixture

variable {snapshot other : Snapshot} {alike : EntryPath -> Prop}
  {dir : Option Path} {name : String} {names : List String} {entry : EntryName}

/-! ## Ascending lists of names -/

theorem mem_insertName
    {listed : String} :
    listed ∈ insertName name names ↔ listed = name ∨ listed ∈ names := by
  induction names with
  | nil => simp [insertName]
  | cons first rest inductionHypothesis =>
      rw [insertName]
      split
      · exact List.mem_cons
      split
      · rename_i same
        rw [same, List.mem_cons]
        exact (or_iff_right_of_imp .inl).symm
      · rw [List.mem_cons, inductionHypothesis, List.mem_cons, or_left_comm]

/-- A name is inserted in its place. -/
theorem pairwise_insertName
    (name : String)
    (ascending : names.Pairwise (· < ·)) :
    (insertName name names).Pairwise (· < ·) := by
  induction names with
  | nil => exact List.pairwise_singleton _ _
  | cons first rest inductionHypothesis =>
      obtain ⟨above, ascendingRest⟩ := List.pairwise_cons.mp ascending
      rw [insertName]
      split
      · rename_i below
        refine List.pairwise_cons.mpr ⟨fun listed member => ?_, ascending⟩
        rcases List.mem_cons.mp member with rfl | member
        · exact below
        · exact lt_trans below (above listed member)
      split
      · exact ascending
      · rename_i notBelow different
        have below : first < name :=
          lt_of_le_of_ne (not_lt.mp notBelow) (Ne.symm different)
        refine List.pairwise_cons.mpr ⟨fun listed member => ?_,
          inductionHypothesis ascendingRest⟩
        rcases mem_insertName.mp member with rfl | member
        · exact below
        · exact above listed member

/-- Names that are inserted one after the other are in ascending order, each
once. -/
theorem foldr_insertName_spec (names : List String) :
    (names.foldr insertName []).Pairwise (· < ·) ∧
      ∀ listed, listed ∈ names.foldr insertName [] ↔ listed ∈ names := by
  induction names with
  | nil => exact ⟨.nil, fun _ => Iff.rfl⟩
  | cons name rest inductionHypothesis =>
      obtain ⟨ascending, mem_iff⟩ := inductionHypothesis
      refine ⟨pairwise_insertName name ascending, fun listed => ?_⟩
      rw [List.foldr_cons, mem_insertName, mem_iff, List.mem_cons]

/-! ## The list -/

/-- An entry of the directory of fixtures holds a Pipfile. -/
def IsHeld
    (snapshot : Snapshot)
    (dir : Option Path)
    (entry : EntryName) : Prop :=
  ∃ place listed, dir = some place ∧
    snapshot.entries place = .ok listed ∧ entry ∈ listed ∧
    snapshot.IsFileAt (place.inEntry entry pipfileName)

@[simp] theorem seen_directoryNames
    (snapshot : Snapshot)
    (place : Path)
    (entries : List EntryName) :
    (directoryNames place entries).seen snapshot =
      (entries.filter fun entry =>
        snapshot.IsFileAt (place.inEntry entry pipfileName)).map
          EntryName.shown := by
  induction entries with
  | nil => rfl
  | cons entry rest inductionHypothesis =>
      rw [directoryNames, Action.seen_bind, inductionHypothesis,
        Action.seen_bind, Action.seen_isFileAt, List.filter_cons]
      split <;> rfl

theorem mem_seen_foundIn :
    name ∈ (foundIn dir).seen snapshot ↔
      ∃ entry, IsHeld snapshot dir entry ∧ entry.shown = name := by
  cases dir with
  | none => simp [foundIn, IsHeld]
  | some place =>
      rw [foundIn, Action.seen_bind, Action.seen_entries]
      cases listed_eq : snapshot.entries place with
      | error cause => simp [IsHeld, listed_eq]
      | ok listed => simp [IsHeld, listed_eq]

theorem seen_available :
    (available dir).seen snapshot =
      (Bundled.all.map Bundled.name ++ (foundIn dir).seen snapshot).foldr
        insertName [] := by
  rw [available, Action.seen_bind, Action.seen_pure]

/-- The fixtures are those that are bundled and those of the directory. -/
theorem mem_seen_available :
    name ∈ (available dir).seen snapshot ↔
      name ∈ Bundled.all.map Bundled.name ∨
        ∃ entry, IsHeld snapshot dir entry ∧ entry.shown = name := by
  rw [seen_available, (foldr_insertName_spec _).2, List.mem_append,
    mem_seen_foundIn]

theorem pairwise_seen_available :
    ((available dir).seen snapshot).Pairwise (· < ·) := by
  rw [seen_available]
  exact (foldr_insertName_spec _).1

/-- The entries that hold a Pipfile are the same in any order. -/
theorem isHeld_iff_of_reorders
    (reorders : snapshot.Reorders alike other) :
    IsHeld other dir entry ↔ IsHeld snapshot dir entry := by
  refine exists_congr fun place => ?_
  have permuted := reorders.entries place
  cases listed_eq : snapshot.entries place with
  | error cause =>
      rw [listed_eq] at permuted
      generalize other.entries place = others at permuted
      cases permuted
      simp
  | ok listed =>
      rw [listed_eq] at permuted
      generalize other.entries place = others at permuted
      cases permuted with
      | names perm => simp [reorders.isFileAt_iff, perm.mem_iff]

/-- Names of fixtures are the same in whatever order the directory lists
them. -/
theorem seen_available_of_reorders
    (reorders : snapshot.Reorders alike other) :
    (available dir).seen other = (available dir).seen snapshot := by
  refine List.Pairwise.eq_of_mem_iff (r := (· < ·)) pairwise_seen_available
    pairwise_seen_available fun name => ?_
  simp only [mem_seen_available, isHeld_iff_of_reorders reorders]

/-! ## Resolving a name -/

/-- What a name stands for, the first of these that there is: a file, the
Pipfile in the directory of that name, the Pipfile under the directory of
fixtures, a bundled fixture.  As the start of a path, an empty name is the
directory that everything is relative to. -/
inductive StandsFor
    (snapshot : Snapshot)
    (dir : Option Path)
    (name : String) : Option Fixture -> Prop
  | itself
      (isFile : snapshot.IsFile ⟨name⟩) :
      StandsFor snapshot dir name (some (.file ⟨name⟩))
  | inside
      (notItself : ¬snapshot.IsFile ⟨name⟩)
      (isFile : snapshot.IsFile ((Path.mk name).join pipfileName)) :
      StandsFor snapshot dir name
        (some (.file ((Path.mk name).join pipfileName)))
  | under
      {place : Path}
      (notItself : ¬snapshot.IsFile ⟨name⟩)
      (notInside : ¬snapshot.IsFile ((Path.mk name).join pipfileName))
      (dir_eq : dir = some place)
      (isFile : snapshot.IsFile ((place.join name).join pipfileName)) :
      StandsFor snapshot dir name
        (some (.file ((place.join name).join pipfileName)))
  | bundled
      {fixture : Bundled}
      (noFile : ∀ path ∈ candidates name dir, ¬snapshot.IsFile path)
      (isBundled : fixture ∈ Bundled.all)
      (name_eq : fixture.name = name) :
      StandsFor snapshot dir name (some (.bundled fixture))
  | unknown
      (noFile : ∀ path ∈ candidates name dir, ¬snapshot.IsFile path)
      (notBundled : name ∉ Bundled.all.map Bundled.name) :
      StandsFor snapshot dir name none

@[simp] theorem seen_firstFile?
    (snapshot : Snapshot)
    (paths : List Path) :
    (firstFile? paths).seen snapshot =
      paths.find? fun path => snapshot.IsFile path := by
  induction paths with
  | nil => rfl
  | cons path rest inductionHypothesis =>
      rw [firstFile?, Action.seen_bind, Action.seen_isFile, List.find?_cons]
      by_cases isFile : snapshot.IsFile path
      · rw [decide_eq_true isFile]
        rfl
      · rw [decide_eq_false isFile]
        exact inductionHypothesis

/-- A name resolves to the first of the paths that is a file, or else to the
bundled fixture of that name. -/
theorem seen_resolve?
    (snapshot : Snapshot)
    (name : String)
    (dir : Option Path) :
    (resolve? name dir).seen snapshot =
      (((candidates name dir).find? fun path => snapshot.IsFile path).map
        file).or ((Bundled.all.find? (·.name = name)).map bundled) := by
  rw [resolve?, Action.seen_bind, seen_firstFile?]
  cases (candidates name dir).find? fun path => snapshot.IsFile path <;> rfl

/-- A bundled fixture is found by its name. -/
theorem find?_bundled
    {fixture : Bundled}
    (isBundled : fixture ∈ Bundled.all) :
    Bundled.all.find? (·.name = fixture.name) = some fixture := by
  have distinct : (Bundled.all.map Bundled.name).Nodup := by decide
  cases found : Bundled.all.find? (·.name = fixture.name) with
  | none =>
      have differs := List.find?_eq_none.mp found fixture isBundled
      simp at differs
  | some other =>
      have name_eq : other.name = fixture.name := by
        simpa using List.find?_some found
      exact congrArg some (List.inj_on_of_nodup_map distinct
        (List.mem_of_find?_eq_some found) isBundled name_eq)

theorem find?_bundled_eq_none
    (notBundled : name ∉ Bundled.all.map Bundled.name) :
    Bundled.all.find? (·.name = name) = none := by
  rw [List.find?_eq_none]
  rintro fixture isBundled same
  exact notBundled (List.mem_map.mpr ⟨fixture, isBundled, by simpa using same⟩)

/-- The paths are tried in order. -/
theorem find?_candidates_eq_none
    (noFile : ∀ path ∈ candidates name dir, ¬snapshot.IsFile path) :
    (candidates name dir).find? (fun path => snapshot.IsFile path) = none := by
  simpa using noFile

/-- Every name stands for something, or is unknown. -/
theorem exists_standsFor
    (snapshot : Snapshot)
    (dir : Option Path)
    (name : String) : ∃ found, StandsFor snapshot dir name found := by
  by_cases itself : snapshot.IsFile ⟨name⟩
  · exact ⟨_, .itself itself⟩
  by_cases inside : snapshot.IsFile ((Path.mk name).join pipfileName)
  · exact ⟨_, .inside itself inside⟩
  by_cases under : ∃ place, dir = some place ∧
      snapshot.IsFile ((place.join name).join pipfileName)
  · obtain ⟨place, dir_eq, isFile⟩ := under
    exact ⟨_, .under itself inside dir_eq isFile⟩
  have noFile : ∀ path ∈ candidates name dir, ¬snapshot.IsFile path := by
    cases dir with
    | none => simp [candidates, itself, inside]
    | some place => simpa [candidates, itself, inside] using under
  by_cases isBundled : name ∈ Bundled.all.map Bundled.name
  · obtain ⟨fixture, member, name_eq⟩ := List.mem_map.mp isBundled
    exact ⟨_, .bundled noFile member name_eq⟩
  · exact ⟨_, .unknown noFile isBundled⟩

/-- What a name stands for is what it resolves to. -/
theorem StandsFor.seen_eq
    {found : Option Fixture}
    (stands : StandsFor snapshot dir name found) :
    (resolve? name dir).seen snapshot = found := by
  rw [seen_resolve?]
  cases stands with
  | itself isFile => simp [candidates, isFile]
  | inside notItself isFile => simp [candidates, notItself, isFile]
  | under notItself notInside dir_eq isFile =>
      simp [candidates, notItself, notInside, dir_eq, isFile]
  | bundled noFile isBundled name_eq =>
      subst name_eq
      rw [find?_candidates_eq_none noFile, find?_bundled isBundled]
      rfl
  | unknown noFile notBundled =>
      rw [find?_candidates_eq_none noFile, find?_bundled_eq_none notBundled]
      rfl

theorem seen_resolve?_eq_iff
    {found : Option Fixture} :
    (resolve? name dir).seen snapshot = found ↔
      StandsFor snapshot dir name found := by
  constructor
  · rintro rfl
    obtain ⟨found, stands⟩ := exists_standsFor snapshot dir name
    rw [stands.seen_eq]
    exact stands
  · exact StandsFor.seen_eq

/-- The name of a bundled fixture or of an entry with a Pipfile stands for a
fixture. -/
theorem resolves_of_named
    (named : name ∈ Bundled.all.map Bundled.name ∨
      IsHeld snapshot dir (.text name)) :
    ∃ fixture, (resolve? name dir).seen snapshot = some fixture := by
  obtain ⟨found, stands⟩ := exists_standsFor snapshot dir name
  rw [stands.seen_eq]
  cases stands with
  | unknown noFile notBundled =>
      rcases named with isBundled | isHeld
      · exact absurd isBundled notBundled
      · obtain ⟨place, _, dir_eq, -, -, isFile⟩ := isHeld
        exact absurd isFile (noFile _ (by simp [candidates, dir_eq]))
  | _ => exact ⟨_, rfl⟩

/-- A listed name that stands for nothing is what is shown of a name that is no
text. -/
theorem isShown_of_unresolved
    (listed : name ∈ (available dir).seen snapshot)
    (unknown : (resolve? name dir).seen snapshot = none) :
    ∃ raw, IsHeld snapshot dir (.raw raw) ∧ raw.shown = name := by
  have notNamed : ¬(name ∈ Bundled.all.map Bundled.name ∨
      IsHeld snapshot dir (.text name)) := by
    intro named
    obtain ⟨fixture, isKnown⟩ := resolves_of_named named
    rw [unknown] at isKnown
    cases isKnown
  rw [not_or] at notNamed
  obtain ⟨entry, isHeld, rfl⟩ :=
    (mem_seen_available.mp listed).resolve_left notNamed.1
  cases entry with
  | text name => exact absurd isHeld notNamed.2
  | raw raw => exact ⟨raw, isHeld, rfl⟩

/-! ## Both together -/

/-- A name that is followed by a slash and the name of a Pipfile leads to a
directory. -/
theorem isDirectory_of_isFile
    {machine : Machine}
    (named : name ≠ "")
    (isFile : machine.snapshot.IsFile ((Path.mk name).join pipfileName)) :
    machine.tree.isDirectory machine.workingDir ⟨name⟩ = true := by
  obtain ⟨executable, kind_eq⟩ := isFile
  have holds : machine.tree.HoldsFile machine.workingDir
      ((Path.mk name).join pipfileName) := by
    by_contra noFile
    exact FileTree.kind?_ne_of_not_holdsFile noFile executable kind_eq
  obtain ⟨place, content, _, leads⟩ := holds
  have isName : Path.IsName pipfileName := by decide
  exact (FileTree.isDirectory_iff _ _ _).mpr
    ⟨_, FileTree.leads_of_leads_join named isName leads⟩

/-- A name is reported as unknown with the names of all fixtures. -/
theorem seen_findFixture
    (task : RunTask)
    (config : Config)
    (snapshot : Snapshot) :
    (task.findFixture config).run.seen snapshot =
      let dir := task.fixturesDir.or (config.fixturesDir.map Path.mk)
      match (resolve? task.fixture dir).seen snapshot with
      | some fixture => .ok fixture
      | none => .error
          (.unknownFixture task.fixture ((available dir).seen snapshot)) := by
  rw [RunTask.findFixture, Action.seen_run_lift_bind]
  dsimp only
  cases (resolve? task.fixture
    (task.fixturesDir.or (config.fixturesDir.map Path.mk))).seen snapshot with
  | some fixture => rfl
  | none =>
      rw [Action.seen_run_lift_bind]
      rfl

/-- A list of names is that of the fixtures there are, and says what a name may
stand for. -/
structure Lists
    (snapshot : Snapshot)
    (dir : Option Path)
    (names : List String) : Prop where
  /-- The names are in ascending order, each once. -/
  ascending : names.Pairwise (· < ·)
  /-- They are those of the bundled fixtures and of the directory's, as they are
  shown. -/
  mem_iff : ∀ name, name ∈ names ↔
    name ∈ Bundled.all.map Bundled.name ∨
      ∃ entry, IsHeld snapshot dir entry ∧ entry.shown = name
  /-- The directory's order makes no difference. -/
  reordered : ∀ alike other, snapshot.Reorders alike other ->
    (available dir).seen other = names
  /-- The name of a bundled fixture or of an entry with a Pipfile resolves to a
  fixture. -/
  resolves : ∀ name,
    name ∈ Bundled.all.map Bundled.name ∨ IsHeld snapshot dir (.text name) ->
      ∃ fixture, (resolve? name dir).seen snapshot = some fixture
  /-- A name resolves to what it stands for. -/
  resolves_iff : ∀ name found,
    (resolve? name dir).seen snapshot = found ↔
      StandsFor snapshot dir name found
  /-- A name is reported as unknown together with the list.  It is in the list
  only if that is how a name is shown that is no text. -/
  reported : ∀ (task : RunTask) (config : Config) (failure : LockBench.Failure),
    task.fixturesDir.or (config.fixturesDir.map Path.mk) = dir ->
      (task.findFixture config).run.seen snapshot = .error failure ->
        failure = .unknownFixture task.fixture names ∧
          (task.fixture ∈ names ->
            ∃ raw, IsHeld snapshot dir (.raw raw) ∧ raw.shown = task.fixture)
  /-- Machines list and resolve as they show it, and stay as they are. -/
  runs : ∀ machine : Machine, machine.snapshot = snapshot ->
    (available dir).runOn machine = (names, machine) ∧
      ∀ name, (resolve? name dir).runOn machine =
        ((resolve? name dir).seen snapshot, machine)
  /-- On machines, what has a Pipfile in it is a directory. -/
  isDirectory : ∀ (machine : Machine) (name : String),
    machine.snapshot = snapshot -> name ≠ "" ->
      snapshot.IsFile ((Path.mk name).join pipfileName) ->
        machine.tree.isDirectory machine.workingDir ⟨name⟩ = true

/-- The list of fixtures and what names resolve to agree, wherever names are
texts. -/
theorem available_lists
    (snapshot : Snapshot)
    (dir : Option Path) :
    Lists snapshot dir ((available dir).seen snapshot) where
  ascending := pairwise_seen_available
  mem_iff _ := mem_seen_available
  reordered _ _ reorders := seen_available_of_reorders reorders
  resolves _ named := resolves_of_named named
  resolves_iff _ _ := seen_resolve?_eq_iff
  reported := by
    rintro task config failure rfl isReported
    rw [seen_findFixture] at isReported
    dsimp only at isReported
    split at isReported
    · cases isReported
    · rename_i isUnknown
      cases isReported
      exact ⟨rfl, fun listed => isShown_of_unresolved listed isUnknown⟩
  runs := by
    rintro machine rfl
    exact ⟨(asksOnly_available .kind .rawKind .entries dir).runOn_eq machine,
      fun name => (asksOnly_resolve? .kind name dir).runOn_eq machine⟩
  isDirectory := by
    rintro machine name rfl named isFile
    exact isDirectory_of_isFile named isFile

example : (available none).seen snapshot = ["flask", "jupyter", "trio"] := by
  rfl

/-! ### Names that do not agree -/

namespace Unresolved

/-- A name of one byte, which starts no character. -/
def rawName : RawName where
  bytes := [0xFF]
  notText := by decide +kernel

/-- A directory of fixtures with one entry, which holds a Pipfile. -/
def shown : Snapshot
  | .variable _ => none
  | .workingDir => ⟨"/"⟩
  | .kind _ => none
  | .rawKind path =>
    if path.name.bytes = rawName.bytes ∧ path.inside = some pipfileName then
      some (.file false)
    else none
  | .read _ => .error .noSuchFile
  | .rawRead _ => .error .noSuchFile
  | .entries _ => .ok [.raw rawName]
  | .write _ _ => .error .unsupported
  | .append _ _ => .error .unsupported
  | .copy _ _ => .error .unsupported
  | .makeDirs _ => .error .unsupported
  | .removeFile _ => .error .unsupported
  | .makeFreshDir _ _ => .error .unsupported
  | .removeTree _ => ()
  | .capture _ => .error .unsupported
  | .attend _ => .error .unsupported
  | .clock => ""
  | .print _ => ()
  | .printError _ => ()

/-- A machine with a Pipfile in the working directory. -/
def machine : Machine where
  tree := ⟨[(["Pipfile"], .file "[packages]\n".toUTF8 false)]⟩
  workingDir := []
  environment := []
  behavior _ := none
  time := ""
  freshNames := []

end Unresolved

/-- What is listed for a name that is no text resolves to nothing.  An empty
name leads nowhere and is that of no fixture, but it resolves to a Pipfile in the
working directory. -/
theorem available_lists_unresolved :
    ("\uFFFD" ∈ (available (some ⟨"/fixtures"⟩)).seen Unresolved.shown ∧
      (resolve? "\uFFFD" (some ⟨"/fixtures"⟩)).seen Unresolved.shown =
        none) ∧
    Unresolved.machine.snapshot.kind ⟨""⟩ = none ∧
      "" ∉ (available none).seen Unresolved.machine.snapshot ∧
      (resolve? "" none).runOn Unresolved.machine =
        (some (.file ⟨"Pipfile"⟩), Unresolved.machine) := by
  refine ⟨⟨by decide +kernel, by decide +kernel⟩, by decide +kernel,
    by decide +kernel, ?_⟩
  rw [(asksOnly_resolve? .kind "" none).runOn_eq]
  exact Prod.ext (by decide +kernel) rfl

end Fixture
end LockBench
