import LockBench.Proofs.Host.EntryNames
import LockBench.Proofs.Session.Scenes
import LockBench.Report

/-!
# Timings that are loaded

A report finds the files of timings in a directory, in order of their names, and
reads each of them.  In a scene this depends on the files alone: on which names
of the directory lead to files with the extension of timings, and on what these
hold.
-/

namespace LockBench

namespace Path

/-- A path that ends in a name leads to what has that name. -/
theorem fileName?_join
    (dir : Path)
    {name : String}
    (isName : IsName name) : (dir.join name).fileName? = some name := by
  rw [fileName?, steps_join dir isName, List.getLast?_concat,
    Option.filter_some]
  simp [isName.ne_up]

/-- What a name leads to in a directory tells the name. -/
theorem join_injective
    (dir : Path)
    {name other : String}
    (isName : IsName name)
    (isOther : IsName other)
    (same : dir.join name = dir.join other) : name = other := by
  have names_eq := congrArg fileName? same
  rw [fileName?_join dir isName, fileName?_join dir isOther] at names_eq
  exact Option.some.inj names_eq

/-- A path below a directory starts as the directory's path does. -/
theorem text_join
    (dir : Path)
    {name : String}
    (isName : IsName name) :
    ∃ rest, (dir.join name).text = dir.text ++ rest := by
  have notAbsolute : name.toList.head? ≠ some '/' := by
    intro starts
    exact isName.1 (List.mem_of_head? starts)
  rw [join, if_neg notAbsolute]
  split
  · exact ⟨name, rfl⟩
  · exact ⟨"/" ++ name, String.append_assoc⟩

/-- What is left behind on the way to an entry of a directory is the trail of
that directory. -/
theorem passed_join
    (workingDir : Location)
    (dir : Path)
    {name : String}
    (isName : IsName name) :
    (FileTree.start workingDir (dir.join name)).passed (dir.join name).steps =
      dir.trail workingDir := by
  have same := trail_join workingDir dir isName
  rw [trail, locationFrom_join workingDir dir isName] at same
  exact (List.append_inj' same rfl).1

end Path

namespace FileTree

/-- A directory with an entry that a path leads to is a directory that its own
path leads to, unless that is empty. -/
theorem leads_of_leads_join
    {tree : FileTree}
    {workingDir place : Location}
    {dir : Path}
    {name : String}
    {node : Node}
    (named : dir.text ≠ "")
    (isName : Path.IsName name)
    (leads : tree.Leads workingDir (dir.join name) place node) :
    tree.Leads workingDir dir (dir.locationFrom workingDir) .directory := by
  have passes := leads.passes
  rw [Path.passed_join workingDir dir isName] at passes
  refine ⟨?_, ?_, rfl, fun earlier leftBehind => passes earlier
    (List.mem_append_left _ leftBehind), passes _ (List.mem_append_right _
      (List.mem_singleton.mpr rfl)), fun noDirectory => absurd rfl noDirectory⟩
  · have usable := leads.usable
    obtain ⟨rest, text_eq⟩ := Path.text_join dir isName
    simp only [unusable?, text_eq] at usable ⊢
    split at usable
    · cases usable
    split at usable
    · cases usable
    split at usable
    · cases usable
    rename_i noNul _ short
    simp only [String.toList_append, List.contains_iff_mem, List.mem_append,
      not_or] at noNul
    simp only [String.utf8ByteSize_append] at short
    rw [if_neg (by simpa using noNul.1), if_neg (by simpa using named),
      if_neg (by omega)]
  · intro step member
    apply leads.short
    rw [Path.steps_join dir isName]
    exact List.mem_append_left _ member

variable {tree : FileTree} {workingDir : Location} {path dir : Path}
  {name : String} {entries others : List Timing}

/-- A path leads to a file of timings. -/
def HoldsTimings
    (tree : FileTree)
    (workingDir : Location)
    (path : Path)
    (entries : List Timing) : Prop :=
  ∃ place text executable,
    tree.Leads workingDir path place (.file text.toUTF8 executable) ∧
      Timing.ofText? text = some entries

/-- A file holds its timings only. -/
theorem HoldsTimings.unique
    (holds : tree.HoldsTimings workingDir path entries)
    (holdsOthers : tree.HoldsTimings workingDir path others) :
    entries = others := by
  obtain ⟨place, text, executable, leads, read⟩ := holds
  obtain ⟨otherPlace, otherText, _, leadsOther, readOther⟩ := holdsOthers
  rw [← find_eq_ok_iff] at leads leadsOther
  rw [leads, Except.ok.injEq, Prod.mk.injEq, Node.file.injEq] at leadsOther
  have texts_eq := congrArg String.fromUTF8? leadsOther.2.1
  simp only [String.toUTF8_eq_toByteArray, Text.fromUTF8?_toByteArray,
    Option.some.injEq] at texts_eq
  rw [texts_eq, readOther, Option.some.injEq] at read
  exact read.symm

theorem holdsTimings_of_read
    {text : String}
    (content_eq : tree.read workingDir path = .ok text.toUTF8)
    (read : Timing.ofText? text = some entries) :
    tree.HoldsTimings workingDir path entries := by
  rw [FileTree.read] at content_eq
  cases found : tree.find workingDir path with
  | error cause => simp [found, bind, Except.bind] at content_eq
  | ok reached =>
      obtain ⟨place, node⟩ := reached
      cases node with
      | directory => simp [found, bind, Except.bind] at content_eq
      | file content executable =>
          simp only [found, bind, Except.bind] at content_eq
          cases content_eq
          exact ⟨place, text, executable,
            (find_eq_ok_iff _ _ _ _ _).mp found, read⟩

theorem HoldsTimings.holdsFile
    (holds : tree.HoldsTimings workingDir path entries) :
    tree.HoldsFile workingDir path := by
  obtain ⟨place, text, executable, leads, _⟩ := holds
  exact ⟨place, text.toUTF8, executable, leads⟩

/-- A name of a directory leads to a file with the extension of timings. -/
def IsExport
    (tree : FileTree)
    (workingDir : Location)
    (dir : Path)
    (name : String) : Prop :=
  tree.HoldsFile workingDir (dir.join name) ∧
    (dir.join name).extension? = some "json"

instance
    (tree : FileTree)
    (workingDir : Location)
    (dir : Path) : DecidablePred (tree.IsExport workingDir dir) :=
  fun _ => inferInstanceAs (Decidable (_ ∧ _))

theorem kind?_eq_of_holdsFile
    (holds : tree.HoldsFile workingDir path) :
    ∃ executable, tree.kind? workingDir path = some (.file executable) := by
  obtain ⟨place, content, executable, leads⟩ := holds
  rw [← find_eq_ok_iff] at leads
  exact ⟨executable, by rw [kind?, leads]; rfl⟩

theorem kind?_ne_of_not_holdsFile
    (noFile : ¬tree.HoldsFile workingDir path)
    (executable : Bool) :
    tree.kind? workingDir path ≠ some (.file executable) := by
  intro isFile
  rw [kind?] at isFile
  cases found : tree.find workingDir path with
  | error cause => simp [found] at isFile
  | ok reached =>
      obtain ⟨place, node⟩ := reached
      cases node with
      | directory => simp [found, Node.kind] at isFile
      | file content old =>
          exact noFile
            ⟨place, content, old, (find_eq_ok_iff _ _ _ _ _).mp found⟩

end FileTree

namespace Report

variable {μ : Type} {scene : Scene μ} {tree : FileTree} {dir : Path}

/-- A table tells the timings of a file of a directory under its name. -/
structure Tabulates
    (tree : FileTree)
    (workingDir : Location)
    (dir : Path)
    (name : String)
    (table : TimingTable) : Prop where
  /-- The operation is the name without its extension. -/
  operation_eq : table.operation = (dir.join name).stem?.getD ""
  /-- The entries are those that the file holds. -/
  holds : tree.HoldsTimings workingDir (dir.join name) table.entries

/-! ## Single requests -/

theorem ensures_kind?
    (tree : FileTree)
    (path : Path) :
    (Action.kind? path).Ensures scene.world (fun _ => True)
      (fun answer last => last = tree ∧
        answer = tree.kind? scene.workingDir path) tree := by
  rintro answer moments last ⟨⟨rfl, rfl⟩, -⟩
  exact ⟨fun _ _ => trivial, rfl, rfl⟩

theorem ensures_read
    (tree : FileTree)
    (path : Path) :
    (Action.read path).Ensures scene.world (fun _ => True)
      (fun answer last => last = tree ∧
        answer = tree.read scene.workingDir path) tree := by
  rintro answer moments last ⟨⟨rfl, rfl⟩, -⟩
  exact ⟨fun _ _ => trivial, rfl, rfl⟩

theorem ensures_entries
    (tree : FileTree)
    (dir : Path) :
    (Action.entries dir).Ensures scene.world (fun _ => True)
      (fun answer last => last = tree ∧
        tree.Lists scene.workingDir dir answer) tree := by
  rintro answer moments last ⟨⟨lists, rfl⟩, -⟩
  exact ⟨fun _ _ => trivial, rfl, lists⟩

/-! ## Finding the files -/

theorem ensures_isFile
    (tree : FileTree)
    (path : Path) :
    (Action.isFile path).Ensures scene.world (fun _ => True)
      (fun isThere last => last = tree ∧
        isThere = decide (tree.HoldsFile scene.workingDir path)) tree := by
  rw [Action.isFile, Action.isFileAt, Action.kindAt?, Action.ensures_bind]
  refine (ensures_kind? tree path).mono ?_
  rintro _ last ⟨rfl, rfl⟩
  by_cases isFile : last.HoldsFile scene.workingDir path
  · obtain ⟨executable, kind_eq⟩ := FileTree.kind?_eq_of_holdsFile isFile
    rw [kind_eq]
    exact ⟨rfl, by simp [isFile]⟩
  · have noKind := FileTree.kind?_ne_of_not_holdsFile isFile
    split
    · rename_i kind_eq
      exact absurd kind_eq (noKind _)
    · exact ⟨rfl, by simp [isFile]⟩

theorem ensures_isExport
    (tree : FileTree)
    (dir : Path)
    (name : String) :
    (isExport dir (.text name)).Ensures scene.world (fun _ => True)
      (fun chosen last => last = tree ∧
        chosen = decide (tree.IsExport scene.workingDir dir name)) tree := by
  rw [isExport, Action.ensures_bind]
  refine (ensures_isFile tree (dir.join name)).mono ?_
  rintro _ _ ⟨rfl, rfl⟩
  simp only [Action.ensures_pure, hasExtension, decide_eq_true_iff, true_and]
  rfl

/-- The names that are chosen are those of files of timings. -/
theorem ensures_exportNames
    (tree : FileTree)
    (dir : Path)
    (names : List String) :
    (exportNames dir (names.map .text)).Ensures scene.world (fun _ => True)
      (fun chosen last => last = tree ∧
        chosen = (names.filter fun name =>
          tree.IsExport scene.workingDir dir name).map .text) tree := by
  induction names with
  | nil => exact ⟨rfl, rfl⟩
  | cons name rest inductionHypothesis =>
      rw [List.map_cons, exportNames, Action.ensures_bind]
      refine (ensures_isExport tree dir name).mono ?_
      rintro _ _ ⟨rfl, rfl⟩
      rw [Action.ensures_bind]
      refine inductionHypothesis.mono ?_
      rintro _ _ ⟨rfl, rfl⟩
      rw [Action.ensures_pure, List.filter_cons]
      refine ⟨rfl, ?_⟩
      split <;> rfl

/-! ## Reading the files -/

theorem ensures_readText
    {path : Path}
    {text : String}
    (read : tree.read scene.workingDir path = .ok text.toUTF8) :
    (Action.readText path).Ensures scene.world (fun _ => True)
      (fun answer last => last = tree ∧ answer = .ok text) tree := by
  rw [Action.readText, Action.readTextAt, Action.readAt, Action.ensures_bind]
  refine (ensures_read tree path).mono ?_
  rintro _ _ ⟨rfl, rfl⟩
  rw [read]
  simp only [String.toUTF8_eq_toByteArray, Text.fromUTF8?_toByteArray]
  exact ⟨rfl, rfl⟩

theorem ensures_readExport
    {path : Path}
    {entries : List Timing}
    (holds : tree.HoldsTimings scene.workingDir path entries) :
    (readExport path).Ensures scene.world (fun _ => True)
      (fun result last => last = tree ∧ result = .ok entries) tree := by
  obtain ⟨place, text, executable, leads, read⟩ := holds
  rw [← FileTree.find_eq_ok_iff] at leads
  have content_eq : tree.read scene.workingDir path = .ok text.toUTF8 := by
    rw [FileTree.read, leads]
    rfl
  rw [readExport, readExportAt, Action.ensures_bind]
  refine (ensures_readText content_eq).mono ?_
  rintro _ _ ⟨rfl, rfl⟩
  simp only [read]
  exact ⟨rfl, rfl⟩

/-- Files that all hold timings are read as tables, in order. -/
theorem ensures_readTables
    (dir : Path)
    {names : List String}
    (each : ∀ name ∈ names, ∃ entries,
      tree.HoldsTimings scene.workingDir (dir.join name) entries) :
    (readTables dir (names.map .text)).Ensures scene.world (fun _ => True)
      (fun result _ => ∃ tables, result = .ok tables ∧
        List.Forall₂ (Tabulates tree scene.workingDir dir) names tables)
      tree := by
  induction names with
  | nil => exact ⟨[], rfl, .nil⟩
  | cons name rest inductionHypothesis =>
      rw [List.forall_mem_cons] at each
      obtain ⟨⟨entries, holds⟩, eachRest⟩ := each
      rw [List.map_cons, readTables, Action.ensures_bind]
      apply (ensures_readExport holds).mono
      rintro _ _ ⟨rfl, rfl⟩
      dsimp only
      rw [Action.ensures_bind]
      apply (inductionHypothesis eachRest).mono
      rintro _ _ ⟨tables, rfl, tabulated⟩
      exact ⟨_, rfl, .cons ⟨rfl, holds⟩ tabulated⟩

/-! ## Loading a directory -/

/-- The names that a directory lists are those of all files of timings in it,
among others. -/
theorem mem_filter_listed_iff
    {workingDir : Location}
    {location : Location}
    {listed : List String}
    (leads : tree.Leads workingDir dir location .directory)
    (listed_iff : ∀ name, name ∈ listed ↔
      Path.IsName name ∧ (tree.get? (location ++ [name])).isSome = true)
    (name : String) :
    name ∈ (listed.filter fun name => tree.IsExport workingDir dir name) ↔
      Path.IsName name ∧ tree.IsExport workingDir dir name := by
  rw [List.mem_filter, listed_iff, decide_eq_true_iff, and_assoc]
  refine and_congr_right fun isName => and_iff_right_of_imp ?_
  rintro ⟨⟨place, content, executable, leadsTo⟩, _⟩
  have location_eq : location = dir.locationFrom workingDir := leads.place_eq
  have place_eq : place = (dir.join name).locationFrom workingDir :=
    leadsTo.place_eq
  rw [location_eq, ← Path.locationFrom_join workingDir dir isName, ← place_eq,
    leadsTo.present]
  rfl

/-- Texts are sorted as names in the order of the texts. -/
theorem mergeSort_map_text (names : List String) :
    (names.map EntryName.text).mergeSort (· ≤ ·) =
      (names.mergeSort (· ≤ ·)).map .text := by
  refine (List.map_mergeSort fun name _ other _ => ?_).symm
  rw [decide_eq_decide, EntryName.text_le_text_iff]

/-- Sorting texts that are different gives them in ascending order. -/
theorem pairwise_lt_mergeSort
    {names : List String}
    (nodup : names.Nodup) :
    (names.mergeSort (· ≤ ·)).Pairwise (· < ·) := by
  have sorted := EntryName.pairwise_lt_mergeSort
    (nodup.map fun _ _ => EntryName.text.inj)
  rw [mergeSort_map_text, List.pairwise_map] at sorted
  exact sorted.imp (EntryName.text_lt_text_iff _ _).mp

/-- A directory in which every file of timings can be read, and in which there
is one, is loaded as a table for each of them, in order of their names. -/
theorem ensures_load
    (leads : tree.Leads scene.workingDir dir
      (dir.locationFrom scene.workingDir) .directory)
    (each : ∀ name, Path.IsName name ->
      tree.IsExport scene.workingDir dir name ->
        ∃ entries, tree.HoldsTimings scene.workingDir (dir.join name) entries)
    (someExport : ∃ name, Path.IsName name ∧
      tree.IsExport scene.workingDir dir name) :
    (load dir).Ensures scene.world (fun _ => True)
      (fun result _ => ∃ names tables, result = .ok tables ∧
        names.Pairwise (· < ·) ∧
        (∀ name, name ∈ names ↔
          Path.IsName name ∧ tree.IsExport scene.workingDir dir name) ∧
        List.Forall₂ (Tabulates tree scene.workingDir dir) names tables)
      tree := by
  have isDirectory : tree.isDirectory scene.workingDir dir = true :=
    (FileTree.isDirectory_iff _ _ _).mpr ⟨_, leads⟩
  rw [load, Action.ensures_bind]
  refine (ensures_entries tree dir).mono ?_
  rintro (cause | listed) _ ⟨rfl, lists⟩
  · simp [FileTree.Lists, isDirectory] at lists
  obtain ⟨names, rfl, nodup, location, leadsTo, listed_iff⟩ := lists
  dsimp only
  rw [Action.ensures_bind]
  refine (ensures_exportNames _ dir names).mono ?_
  rintro _ _ ⟨rfl, rfl⟩
  rw [mergeSort_map_text]
  have chosen_iff := mem_filter_listed_iff leadsTo listed_iff
  generalize chosen_eq : (names.filter fun name =>
    FileTree.IsExport _ scene.workingDir dir name) = chosen at chosen_iff ⊢
  have sorted_iff : ∀ name, name ∈ chosen.mergeSort (· ≤ ·) ↔
      Path.IsName name ∧ FileTree.IsExport _ scene.workingDir dir name :=
    fun name => List.mem_mergeSort.trans (chosen_iff name)
  have ascending : (chosen.mergeSort (· ≤ ·)).Pairwise (· < ·) :=
    pairwise_lt_mergeSort (chosen_eq ▸ nodup.filter _)
  obtain ⟨name, isName, isExport⟩ := someExport
  have notEmpty : (chosen.mergeSort (· ≤ ·)).map EntryName.text ≠ [] :=
    List.ne_nil_of_mem (List.mem_map_of_mem
      ((sorted_iff name).mpr ⟨isName, isExport⟩))
  split
  · rename_i isEmpty
    exact absurd isEmpty notEmpty
  · apply (ensures_readTables dir fun name member =>
      each name ((sorted_iff name).mp member).1
        ((sorted_iff name).mp member).2).mono
    rintro result last ⟨tables, rfl, tabulated⟩
    exact ⟨_, tables, rfl, ascending, sorted_iff, tabulated⟩

end Report
end LockBench
