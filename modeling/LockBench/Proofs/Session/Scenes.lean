import LockBench.Proofs.Host.Histories
import LockBench.Proofs.Host.Scopes
import LockBench.Proofs.Session.Requests
import LockBench.Proofs.Session.World
import Mathlib.Data.List.Dedup

/-!
# Scenes

A scene is a world in which files are a file tree, with texts for names: a
request for files is answered from the tree and changes it as its operation says,
whether it succeeds or fails.  What processes do is left open, and so is which
moments of a run are observed.  What a request that runs no process may change
follows from the request alone.
-/

namespace LockBench

/-- What a scene leaves open. -/
structure Scene (μ : Type) where
  /-- Where relative paths start. -/
  workingDir : Location
  /-- How a process may end, if it is started, and which files it may leave. -/
  process : Launch -> FileTree -> Except OsError Exit -> FileTree -> Prop
  /-- The moments that are observed of a request, by its answer and the files
  that it leaves. -/
  shows : (request : Request) -> request.Answer -> FileTree -> List μ

namespace FileTree

/-- The names of a directory's entries, in no particular order.  All of them are
texts. -/
def Lists
    (tree : FileTree)
    (workingDir : Location)
    (dir : Path) : Except OsError (List EntryName) -> Prop
  | .ok listed => ∃ names : List String, listed = names.map .text ∧
    names.Nodup ∧ ∃ location,
      tree.Leads workingDir dir location .directory ∧
        ∀ name, name ∈ names ↔
          Path.IsName name ∧ (tree.get? (location ++ [name])).isSome = true
  | .error _ => tree.isDirectory workingDir dir = false

/-- The kind of what a path leads to. -/
def kind?
    (tree : FileTree)
    (workingDir : Location)
    (path : Path) : Option Kind :=
  match tree.find workingDir path with
  | .ok (_, node) => some node.kind
  | .error _ => none

/-- What comes of making a directory and those above it that are missing, and
the files that are left. -/
def attemptDirs
    (tree : FileTree)
    (workingDir : Location)
    (path : Path) : Except OsError Unit × FileTree :=
  match tree.makeDirs workingDir path with
  | .ok made => (.ok (), made)
  | .error cause => (.error cause, tree.leftByDirs workingDir path)

end FileTree

namespace Scene

/-- What a request may be answered, and the files that are left. -/
def Allows
    (scene : Scene μ) :
    (request : Request) -> FileTree -> request.Answer -> FileTree -> Prop
  | .workingDir, tree, answer, last => answer.isAbsolute = true ∧ last = tree
  | .kind path, tree, answer, last =>
    answer = tree.kind? scene.workingDir path ∧ last = tree
  | .rawKind _, tree, answer, last => answer = none ∧ last = tree
  | .read path, tree, answer, last =>
    answer = tree.read scene.workingDir path ∧ last = tree
  | .write path content, tree, answer, last =>
    Session.Takes (tree.write scene.workingDir path content) tree answer last
  | .append path content, tree, answer, last =>
    Session.Takes (tree.append scene.workingDir path content) tree answer last
  | .copy source target, tree, answer, last =>
    Session.Takes (tree.copy scene.workingDir source target) tree answer last
  | .makeDirs path, tree, answer, last =>
    (answer, last) = tree.attemptDirs scene.workingDir path
  | .entries dir, tree, answer, last =>
    tree.Lists scene.workingDir dir answer ∧ last = tree
  | .removeFile path, tree, answer, last =>
    Session.Takes (tree.removeFile scene.workingDir path) tree answer last
  | .makeFreshDir parent stem, tree, answer, last =>
    match answer with
    | .error _ => last = tree
    | .ok path => (∃ ending, path = parent.join (stem ++ ending)) ∧
        tree.makeDir scene.workingDir path = .ok last
  | .removeTree path, tree, _, last =>
    last = tree.removeTree scene.workingDir path
  | .capture launch, tree, answer, last =>
    scene.process launch tree (answer.map Captured.exit) last
  | .attend launch, tree, answer, last =>
    scene.process launch tree answer last
  | _, tree, _, last => last = tree

/-- The world of a scene. -/
def world (scene : Scene μ) : World μ :=
  fun request tree answer moments last =>
    scene.Allows request tree answer last ∧
      moments = scene.shows request answer last

end Scene

/-! ## What requests change -/

namespace Request

/-- The request runs no process, and it neither removes anything nor makes a
directory with a fresh name. -/
def IsPlain : Request -> Prop
  | .removeFile _ => False
  | .makeFreshDir _ _ => False
  | .removeTree _ => False
  | .capture _ => False
  | .attend _ => False
  | _ => True

/-- Where a plain request may change files. -/
def scope
    (workingDir : Location) : Request -> Scope
  | .write path _ => { files := (· = path.locationFrom workingDir) }
  | .append path _ => { files := (· = path.locationFrom workingDir) }
  | .copy _ target => { files := (· = target.locationFrom workingDir) }
  | .makeDirs path => { dirs := (· ∈ path.trail workingDir) }
  | _ => {}

end Request

theorem FileTree.changesWithin_attemptDirs
    (tree : FileTree)
    (workingDir : Location)
    (path : Path) :
    tree.ChangesWithin { dirs := (· ∈ path.trail workingDir) }
      (tree.attemptDirs workingDir path).2 := by
  rw [attemptDirs]
  cases made_eq : tree.makeDirs workingDir path with
  | ok made => exact changesWithin_of_makeDirs made_eq
  | error cause => exact tree.changesWithin_leftByDirs workingDir path

theorem FileTree.makeDirs_of_attemptDirs
    {tree after : FileTree}
    {workingDir : Location}
    {path : Path}
    {cause : OsError}
    (attempted : (.error cause, after) = tree.attemptDirs workingDir path) :
    tree.makeDirs workingDir path = .error cause := by
  rw [attemptDirs] at attempted
  cases made_eq : tree.makeDirs workingDir path with
  | ok made =>
      rw [made_eq] at attempted
      cases attempted
  | error given =>
      rw [made_eq] at attempted
      cases attempted
      rfl

/-- A plain request changes files in its scope only. -/
theorem Scene.changesWithin_of_allows
    {scene : Scene μ}
    {request : Request}
    (plain : request.IsPlain)
    {tree last : FileTree}
    {answer : request.Answer}
    (allows : scene.Allows request tree answer last) :
    tree.ChangesWithin (request.scope scene.workingDir) last := by
  have puts : ∀ {changed : Except OsError FileTree} {answer path},
      Session.Takes changed tree answer last ->
        (∀ after, changed = .ok after ->
          FileTree.PutsFile scene.workingDir path tree after) ->
        tree.ChangesWithin
          { files := (· = path.locationFrom scene.workingDir) } last := by
    intro changed answer path takes puts
    rcases takes.eq_or_ok with rfl | changed_eq
    · exact .rfl
    · exact FileTree.changesWithin_of_putsFile (puts last changed_eq)
  have same : last = tree ->
      ∀ scope, tree.ChangesWithin scope last := by
    rintro rfl scope
    exact .rfl
  cases request with
  | removeFile path => exact plain.elim
  | makeFreshDir parent stem => exact plain.elim
  | removeTree path => exact plain.elim
  | capture launch => exact plain.elim
  | attend launch => exact plain.elim
  | write path content =>
      exact puts allows fun after => FileTree.putsFile_of_write
  | append path content =>
      exact puts allows fun after => FileTree.putsFile_of_append
  | copy source target =>
      rcases Session.Takes.eq_or_ok allows with rfl | copied
      · exact .rfl
      · obtain ⟨emptied, empties, fills⟩ := FileTree.putsFile_of_copy copied
        exact (FileTree.changesWithin_of_putsFile empties).trans
          (FileTree.changesWithin_of_putsFile fills)
  | makeDirs path =>
      obtain rfl : last = _ := congrArg Prod.snd allows
      exact tree.changesWithin_attemptDirs scene.workingDir path
  | workingDir => exact same allows.2 _
  | kind path => exact same allows.2 _
  | rawKind path => exact same allows.2 _
  | read path => exact same allows.2 _
  | entries dir => exact same allows.2 _
  | _ => exact same allows _

/-- The log is at a location. -/
def Journal.LogsAt
    (workingDir : Location)
    (journal : Journal)
    (location : Location) : Prop :=
  ∃ file ∈ journal.file, location = file.locationFrom workingDir

/-- A note is plain, and it changes no more than the log. -/
theorem Journal.Asks.scope_le
    {journal : Journal}
    {request : Request}
    (noted : journal.Asks request)
    (workingDir : Location) :
    request.IsPlain ∧
      (request.scope workingDir).Le { files := journal.LogsAt workingDir } := by
  cases noted with
  | append isFile content =>
      exact ⟨trivial, Scope.files_le fun location isLog =>
        .inr ⟨_, isFile, isLog⟩⟩
  | _ => exact ⟨trivial, Scope.empty_le _⟩

/-! ## Hosts of scenes -/

namespace FileTree

/-- The names in a directory are those of the nodes directly below it. -/
theorem mem_names_iff
    (tree : FileTree)
    (location : Location)
    (name : String) :
    name ∈ tree.names location ↔
      (tree.get? (location ++ [name])).isSome = true := by
  rw [get?_of_ne_root _ (by simp), List.lookup_isSome_iff, names,
    List.mem_filterMap]
  refine exists_congr fun (place, node) => and_congr_right fun _ => ?_
  rw [beq_iff_eq]
  dsimp only
  constructor
  · intro isEntry
    by_cases isBelow : place.dropLast = location
    · rw [if_pos isBelow] at isEntry
      obtain ⟨front, rfl⟩ := List.getLast?_eq_some_iff.mp isEntry
      rw [← isBelow, List.dropLast_concat]
    · simp [isBelow] at isEntry
  · rintro rfl
    rw [if_pos List.dropLast_concat, List.getLast?_concat]

end FileTree

namespace Scene

/-- What processes do on a host, always in the same way. -/
abbrev Processes :=
  Launch -> FileTree -> Except OsError Exit × FileTree

/-- A scene in which processes always do the same. -/
def ofProcesses
    (processes : Processes)
    (shows : (request : Request) -> request.Answer -> FileTree -> List μ) :
    Scene μ where
  workingDir := []
  process launch tree exit last := (exit, last) = processes launch tree
  shows := shows

/-- The answer to a change that may fail, and the files that are left. -/
def taking
    (changed : Except OsError FileTree)
    (tree : FileTree) : Except OsError Unit × FileTree :=
  match changed with
  | .ok done => (.ok (), done)
  | .error cause => (.error cause, tree)

/-- The names of a directory's entries, each once. -/
def listed
    (tree : FileTree)
    (dir : Path) : Except OsError (List EntryName) :=
  match tree.find [] dir with
  | .ok (location, .directory) =>
    .ok (((tree.names location).dedup.filter fun name =>
      Path.IsName name).map .text)
  | .ok (_, .file _ _) => .error .notADirectory
  | .error cause => .error cause

/-- A fresh directory has a number at the end of its name. -/
def freshDir
    (path : Path)
    (tree : FileTree) : Except OsError Path × FileTree :=
  match tree.makeDir [] path with
  | .ok made => (.ok path, made)
  | .error cause => (.error cause, tree)

/-- What a host without variables answers from its files and processes. -/
def reply
    (processes : Processes) :
    (request : Request) -> FileTree -> request.Answer × FileTree
  | .variable _, tree => (none, tree)
  | .workingDir, tree => (⟨"/"⟩, tree)
  | .kind path, tree => (tree.kind? [] path, tree)
  | .rawKind _, tree => (none, tree)
  | .read path, tree => (tree.read [] path, tree)
  | .rawRead _, tree => (.error .noSuchFile, tree)
  | .write path content, tree => taking (tree.write [] path content) tree
  | .append path content, tree => taking (tree.append [] path content) tree
  | .copy source target, tree => taking (tree.copy [] source target) tree
  | .makeDirs path, tree => tree.attemptDirs [] path
  | .entries dir, tree => (listed tree dir, tree)
  | .removeFile path, tree => taking (tree.removeFile [] path) tree
  | .makeFreshDir parent stem, tree => freshDir (parent.join (stem ++ "0")) tree
  | .removeTree path, tree => ((), tree.removeTree [] path)
  | .capture launch, tree =>
    let (exit, last) := processes launch tree
    (exit.map fun exit => ⟨exit, .empty, .empty⟩, last)
  | .attend launch, tree => processes launch tree
  | .clock, tree => ("", tree)
  | .print _, tree => ((), tree)
  | .printError _, tree => ((), tree)

/-- A host of a scene in which processes always do the same. -/
def host
    (processes : Processes)
    (shows : (request : Request) -> request.Answer -> FileTree -> List μ) :
    Action.Host μ :=
  fun request tree =>
    let (answer, last) := reply processes request tree
    (answer, shows request answer last, last)

/-- The entries of a directory are listed. -/
theorem lists_listed
    (tree : FileTree)
    (dir : Path) : tree.Lists [] dir (listed tree dir) := by
  rw [listed]
  cases found : tree.find [] dir with
  | error cause => simp [FileTree.Lists, FileTree.isDirectory, found]
  | ok reached =>
      obtain ⟨location, node⟩ := reached
      cases node with
      | file content executable =>
          simp [FileTree.Lists, FileTree.isDirectory, found]
      | directory =>
          refine ⟨_, rfl, (List.nodup_dedup _).filter _, location,
            (FileTree.find_eq_ok_iff _ _ _ _ _).mp found, fun name => ?_⟩
          rw [List.mem_filter, List.mem_dedup, tree.mem_names_iff,
            decide_eq_true_iff, and_comm]

/-- Whether or not a file can be written, nothing else changes. -/
theorem changesWithin_taking
    (tree : FileTree)
    (workingDir : Location)
    (path : Path)
    (content : ByteArray) :
    tree.ChangesWithin { files := (· = path.locationFrom workingDir) }
      (taking (tree.write workingDir path content) tree).2 := by
  cases written : tree.write workingDir path content with
  | error cause => exact .rfl
  | ok after =>
      exact FileTree.changesWithin_of_putsFile
        (FileTree.putsFile_of_write written)

/-- All that such a host answers is possible in its scene. -/
theorem possible_host
    (processes : Processes)
    (shows : (request : Request) -> request.Answer -> FileTree -> List μ)
    (request : Request)
    (tree : FileTree) :
    (ofProcesses processes shows).world request tree
      (host processes shows request tree).1
      (host processes shows request tree).2.1
      (host processes shows request tree).2.2 := by
  refine ⟨?_, rfl⟩
  have rooted : Path.isAbsolute ⟨"/"⟩ = true := by decide
  have takes : ∀ changed, Session.Takes changed tree (taking changed tree).1
      (taking changed tree).2 := by
    rintro (cause | done) <;> exact ⟨rfl, rfl⟩
  cases request with
  | workingDir => exact ⟨rooted, rfl⟩
  | kind path => exact ⟨rfl, rfl⟩
  | rawKind path => exact ⟨rfl, rfl⟩
  | read path => exact ⟨rfl, rfl⟩
  | write path content => exact takes _
  | append path content => exact takes _
  | copy source target => exact takes _
  | makeDirs path => exact rfl
  | removeFile path => exact takes _
  | entries dir => exact ⟨lists_listed tree dir, rfl⟩
  | makeFreshDir parent stem =>
      simp only [host, reply, freshDir]
      cases made_eq : tree.makeDir [] (parent.join (stem ++ "0")) with
      | error cause => exact rfl
      | ok made => exact ⟨⟨"0", rfl⟩, made_eq⟩
  | capture launch =>
      simp only [Allows, ofProcesses, host, reply]
      rcases processes launch tree with ⟨cause | exit, last⟩ <;> rfl
  | attend launch => exact rfl
  | _ => exact rfl

end Scene
end LockBench
