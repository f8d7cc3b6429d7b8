import LockBench.Proofs.Host.EntryNames
import LockBench.Proofs.Host.Snapshots
import LockBench.Proofs.Report.Documents
import LockBench.Proofs.Session.Finding
import LockBench.Proofs.Session.Loading

/-!
# Loading in any order

A directory may list what is in it in any order.  The tables that are loaded
from it, and the failure where they cannot be loaded, do not depend on that:
files of timings are read in order of their names, up to the first that cannot
be read.
-/

namespace LockBench

/-! ## Names with an extension -/

namespace Path

variable {dir : Path} {name stem : String}

/-- A name is cut at its last dot, unless that dot is in front. -/
theorem splitName_eq_iff
    [DecidableEq α]
    {dot : α}
    {name stem extension : List α} :
    splitName dot name = (stem, some extension) ↔
      stem ≠ [] ∧ dot ∉ extension ∧ name = stem ++ dot :: extension := by
  constructor
  · intro cut
    have parts := List.takeWhile_append_dropWhile
      (p := fun c => decide (c ≠ dot)) (l := name.reverse)
    have noDot : dot ∉ name.reverse.takeWhile (fun c => decide (c ≠ dot)) := by
      intro member
      simpa using List.mem_takeWhile_imp member
    have stops := List.head?_dropWhile_not (fun c => decide (c ≠ dot))
      name.reverse
    rw [splitName] at cut
    split at cut
    · cases cut
    · cases cut
    · rename_i mark backwards named dropped
      rw [dropped, List.head?_cons] at stops
      have isDot : mark = dot := by simpa using stops
      rw [dropped, isDot] at parts
      cases cut
      refine ⟨fun isEmpty => named (List.reverse_eq_nil_iff.mp isEmpty),
        fun member => noDot (List.mem_reverse.mp member), ?_⟩
      calc
        name = name.reverse.reverse := name.reverse_reverse.symm
        _ = _ := by
          conv_lhs => rw [← parts]
          simp
  · rintro ⟨named, noDot, rfl⟩
    have plain : ∀ c ∈ extension.reverse, decide (c ≠ dot) = true := by
      intro c member
      rw [List.mem_reverse] at member
      exact decide_eq_true (ne_of_mem_of_not_mem member noDot)
    have reverse_eq : (stem ++ dot :: extension).reverse =
        extension.reverse ++ dot :: stem.reverse := by simp
    rw [splitName, reverse_eq, List.dropWhile_append_of_pos plain,
      List.takeWhile_append_of_pos plain, List.dropWhile_cons_of_neg (by simp),
      List.takeWhile_cons_of_neg (by simp)]
    cases backwards : stem.reverse with
    | nil => exact absurd (List.reverse_eq_nil_iff.mp backwards) named
    | cons last others => simp [← backwards]

theorem splitName_json_iff :
    splitName '.' name.toList = (stem.toList, some "json".toList) ↔
      stem ≠ "" ∧ name = stem ++ ".json" := by
  have noDot : '.' ∉ "json".toList := by decide
  have name_iff : name = stem ++ ".json" ↔
      name.toList = stem.toList ++ '.' :: "json".toList := by
    rw [← String.toList_inj, String.toList_append]
    rfl
  rw [splitName_eq_iff, and_iff_right noDot, name_iff, ne_eq, ne_eq,
    String.toList_eq_nil_iff]

/-- Timings are in files with a name in front of the extension. -/
theorem extension?_join_iff
    (isName : IsName name) :
    (dir.join name).extension? = some "json" ↔
      ∃ stem, stem ≠ "" ∧ name = stem ++ ".json" := by
  rw [extension?, fileName?_join dir isName, Option.bind_some]
  constructor
  · intro isJson
    obtain ⟨extension, cut, isJson⟩ := Option.map_eq_some_iff.mp isJson
    have extension_eq : extension = "json".toList := by
      rw [← isJson, String.toList_ofList]
    refine ⟨String.ofList (splitName '.' name.toList).1,
      splitName_json_iff.mp ?_⟩
    rw [String.toList_ofList, ← extension_eq, ← cut]
  · rintro ⟨stem, named⟩
    rw [splitName_json_iff.mpr named]
    rfl

theorem stem?_join
    (isName : IsName (stem ++ ".json"))
    (named : stem ≠ "") :
    (dir.join (stem ++ ".json")).stem? = some stem := by
  rw [stem?, fileName?_join dir isName, Option.map_some,
    splitName_json_iff.mpr ⟨named, rfl⟩, String.ofList_toList]

end Path

/-- A name that is no text is cut in the same way, by its bytes. -/
theorem RawName.splitName_json_iff
    {name : RawName}
    {stem : List UInt8} :
    Path.splitName RawName.dot name.bytes = (stem, some (Text.bytes "json")) ↔
      stem ≠ [] ∧ name.bytes = stem ++ Text.bytes ".json" := by
  have noDot : RawName.dot ∉ Text.bytes "json" := by decide +kernel
  have ending : Text.bytes ".json" = RawName.dot :: Text.bytes "json" := by
    decide +kernel
  rw [Path.splitName_eq_iff, and_iff_right noDot, ending]

namespace EntryName

/-- The name of a file of timings: its title, which is not empty, and the
extension.  The title of a name that is no text is as it is shown. -/
inductive IsTitled : EntryName -> String -> Prop
  | text
      {stem : String}
      (named : stem ≠ "") : IsTitled (.text (stem ++ ".json")) stem
  | raw
      {name : RawName}
      {stem : List UInt8}
      (named : stem ≠ [])
      (bytes_eq : name.bytes = stem ++ Text.bytes ".json") :
      IsTitled (.raw name) (Text.decodeLossy stem.toByteArray)

/-- Where a name is a text, it is that of an entry. -/
def IsProper : EntryName -> Prop
  | .text name => Path.IsName name
  | .raw _ => True

instance : DecidablePred IsProper
  | .text name => inferInstanceAs (Decidable (Path.IsName name))
  | .raw _ => .isTrue trivial

end EntryName

namespace Report

/-- The files of timings are those with a title. -/
theorem hasExtension_iff
    {dir : Path}
    {name : EntryName}
    (isProper : name.IsProper) :
    hasExtension dir name = true ↔ ∃ title, name.IsTitled title := by
  cases name with
  | text name =>
      rw [hasExtension, decide_eq_true_iff, extension,
        Path.extension?_join_iff isProper]
      constructor
      · rintro ⟨stem, named, rfl⟩
        exact ⟨stem, .text named⟩
      · rintro ⟨_, titled⟩
        cases titled with
        | text named => exact ⟨_, named, rfl⟩
  | raw name =>
      rw [hasExtension, decide_eq_true_iff, extension, RawName.extension?]
      constructor
      · intro cut
        obtain ⟨named, bytes_eq⟩ :=
          RawName.splitName_json_iff.mp (Prod.ext rfl cut)
        exact ⟨_, .raw named bytes_eq⟩
      · rintro ⟨_, titled⟩
        cases titled with
        | raw named bytes_eq =>
            rw [RawName.splitName_json_iff.mpr ⟨named, bytes_eq⟩]

/-- The operation of a file is its title. -/
theorem operationName_eq
    {dir : Path}
    {name : EntryName}
    {title : String}
    (isProper : name.IsProper)
    (titled : name.IsTitled title) : operationName dir name = title := by
  cases titled with
  | text named => rw [operationName, Path.stem?_join isProper named]; rfl
  | raw named bytes_eq =>
      rw [operationName, RawName.stem,
        RawName.splitName_json_iff.mpr ⟨named, bytes_eq⟩]

end Report

/-! ## Files of timings -/

namespace Snapshot

/-- A file holds the timings that its text tells. -/
def HoldsTimings
    (snapshot : Snapshot)
    (path : EntryPath)
    (entries : List Timing) : Prop :=
  ∃ text : String, snapshot.contentAt path = .ok text.toUTF8 ∧
    Timing.TextTells text entries

/-- Why there are no timings in a file: it cannot be read, or it holds no text,
or its text does not tell any. -/
inductive LacksTimings
    (snapshot : Snapshot)
    (path : EntryPath) : Report.Failure -> Prop
  | refused
      {cause : OsError}
      (content_eq : snapshot.contentAt path = .error cause) :
      LacksTimings snapshot path (.read path.shown cause)
  | notText
      {content : ByteArray}
      (content_eq : snapshot.contentAt path = .ok content)
      (noText : String.fromUTF8? content = none) :
      LacksTimings snapshot path (.read path.shown .notText)
  | unreadable
      {text : String}
      (content_eq : snapshot.contentAt path = .ok text.toUTF8)
      (noTimings : ∀ entries, ¬Timing.TextTells text entries) :
      LacksTimings snapshot path (.unreadable path.shown)

/-- A table tells the timings of a file under its title. -/
structure Tabulates
    (snapshot : Snapshot)
    (dir : Path)
    (name : EntryName)
    (table : TimingTable) : Prop where
  /-- The operation is the title of the file. -/
  titled : name.IsTitled table.operation
  /-- The entries are those that the file holds. -/
  holds : snapshot.HoldsTimings (dir.entry name) table.entries

variable {snapshot other : Snapshot} {path : EntryPath} {dir : Path}
  {entries : List Timing} {failure : Report.Failure}

theorem holds_or_lacks
    (snapshot : Snapshot)
    (path : EntryPath) :
    (∃ entries, snapshot.HoldsTimings path entries) ∨
      ∃ failure, snapshot.LacksTimings path failure := by
  cases content_eq : snapshot.contentAt path with
  | error cause => exact .inr ⟨_, .refused content_eq⟩
  | ok content =>
      cases isText : String.fromUTF8? content with
      | none => exact .inr ⟨_, .notText content_eq isText⟩
      | some text =>
          obtain rfl := Text.eq_toUTF8_of_fromUTF8? isText
          by_cases tells : ∃ entries, Timing.TextTells text entries
          · obtain ⟨entries, tells⟩ := tells
            exact .inl ⟨entries, text, content_eq, tells⟩
          · exact .inr ⟨_, .unreadable content_eq (not_exists.mp tells)⟩

/-- What a file holds depends on its content only. -/
theorem HoldsTimings.of_content_eq
    (holds : snapshot.HoldsTimings path entries)
    (same : other.contentAt path = snapshot.contentAt path) :
    other.HoldsTimings path entries := by
  obtain ⟨text, content_eq, tells⟩ := holds
  exact ⟨text, same.trans content_eq, tells⟩

theorem LacksTimings.of_content_eq
    (lacks : snapshot.LacksTimings path failure)
    (same : other.contentAt path = snapshot.contentAt path) :
    other.LacksTimings path failure := by
  cases lacks with
  | refused content_eq => exact .refused (same.trans content_eq)
  | notText content_eq noText => exact .notText (same.trans content_eq) noText
  | unreadable content_eq noTimings =>
      exact .unreadable (same.trans content_eq) noTimings

/-- A file of a machine holds what it holds in the machine's files. -/
theorem holdsTimings_iff_tree
    (machine : Machine)
    (path : Path) :
    machine.snapshot.HoldsTimings (.text path) entries ↔
      machine.tree.HoldsTimings machine.workingDir path entries := by
  have content_eq : machine.snapshot.contentAt (.text path) =
      machine.tree.read machine.workingDir path := rfl
  constructor
  · rintro ⟨text, found, tells⟩
    exact FileTree.holdsTimings_of_read (content_eq.symm.trans found)
      (Timing.ofText?_eq_some_iff.mpr tells)
  · rintro ⟨place, text, executable, leads, read⟩
    rw [← FileTree.find_eq_ok_iff] at leads
    refine ⟨text, ?_, Timing.ofText?_eq_some_iff.mp read⟩
    rw [content_eq, FileTree.read, leads]
    rfl

/-- A table of a machine's file is one of the file in the machine's files. -/
theorem tabulates_iff_tree
    (machine : Machine)
    {stem : String}
    {table : TimingTable}
    (isName : Path.IsName (stem ++ ".json"))
    (named : stem ≠ "") :
    machine.snapshot.Tabulates dir (.text (stem ++ ".json")) table ↔
      Report.Tabulates machine.tree machine.workingDir dir (stem ++ ".json")
        table := by
  have isProper : EntryName.IsProper (.text (stem ++ ".json")) := isName
  have operation_eq : Report.operationName dir (.text (stem ++ ".json")) =
      stem := Report.operationName_eq isProper (.text named)
  constructor
  · rintro ⟨titled, holds⟩
    refine ⟨?_, (holdsTimings_iff_tree machine _).mp holds⟩
    exact (Report.operationName_eq isProper titled).symm
  · rintro ⟨same, holds⟩
    have table_eq : table.operation = stem := same.trans operation_eq
    refine ⟨?_, (holdsTimings_iff_tree machine _).mpr holds⟩
    rw [table_eq]
    exact .text named

end Snapshot

namespace Report

variable {snapshot other : Snapshot} {alike : EntryPath -> Prop}
  {path : EntryPath} {dir : Path} {entries : List Timing} {failure : Failure}
  {listed names : List EntryName}

/-! ## Reading the files -/

theorem seen_readExportAt_of_holds
    (holds : snapshot.HoldsTimings path entries) :
    (readExportAt path).seen snapshot = .ok entries := by
  obtain ⟨text, content_eq, tells⟩ := holds
  rw [readExportAt, Action.seen_bind, Action.readTextAt, Action.seen_bind,
    Action.seen_readAt, content_eq]
  simp [Timing.ofText?_eq_some_iff.mpr tells]

theorem seen_readExportAt_of_lacks
    (lacks : snapshot.LacksTimings path failure) :
    (readExportAt path).seen snapshot = .error failure := by
  rw [readExportAt, Action.seen_bind, Action.readTextAt, Action.seen_bind,
    Action.seen_readAt]
  cases lacks with
  | refused content_eq => rw [content_eq]; rfl
  | notText content_eq noText => simp only [content_eq, noText, Action.seen_pure]
  | unreadable content_eq noTimings =>
      simp [content_eq, Timing.ofText?_eq_none_iff.mpr noTimings]

/-- Files that all hold timings are read as tables, in order. -/
theorem seen_readTables_of_tabulates
    {tables : List TimingTable}
    (areProper : ∀ name ∈ names, name.IsProper)
    (tabulated : List.Forall₂ (snapshot.Tabulates dir) names tables) :
    (readTables dir names).seen snapshot = .ok tables := by
  induction tabulated with
  | nil => rfl
  | @cons name table rest others tabulates _ inductionHypothesis =>
      rw [List.forall_mem_cons] at areProper
      obtain ⟨isProper, areProperRest⟩ := areProper
      rw [readTables, Action.seen_bind,
        seen_readExportAt_of_holds tabulates.holds]
      dsimp only
      rw [Action.seen_bind, inductionHypothesis areProperRest,
        operationName_eq isProper tabulates.titled]
      rfl

/-- Reading stops at the first file without timings. -/
theorem seen_readTables_of_lacks
    {early late : List EntryName}
    {name : EntryName}
    (parses : ∀ earlier ∈ early, ∃ entries,
      snapshot.HoldsTimings (dir.entry earlier) entries)
    (lacks : snapshot.LacksTimings (dir.entry name) failure) :
    (readTables dir (early ++ name :: late)).seen snapshot =
      .error failure := by
  induction early with
  | nil =>
      rw [List.nil_append, readTables, Action.seen_bind,
        seen_readExportAt_of_lacks lacks]
      rfl
  | cons first rest inductionHypothesis =>
      rw [List.forall_mem_cons] at parses
      obtain ⟨⟨entries, holds⟩, parsesRest⟩ := parses
      rw [List.cons_append, readTables, Action.seen_bind,
        seen_readExportAt_of_holds holds]
      dsimp only
      rw [Action.seen_bind, inductionHypothesis parsesRest]
      rfl

theorem looks_exportNames
    (dir : Path)
    (names : List EntryName) :
    (exportNames dir names).AsksOnly Request.IsLook := by
  induction names with
  | nil => exact Action.asksOnly_pure _
  | cons name rest inductionHypothesis =>
      have looks : (isExport dir name).AsksOnly Request.IsLook :=
        (asksOnly_isFileAt .kind .rawKind _).bind fun _ =>
          Action.asksOnly_pure _
      exact looks.bind fun _ =>
        inductionHypothesis.bind fun _ => Action.asksOnly_pure _

theorem looks_readExportAt (path : EntryPath) :
    (readExportAt path).AsksOnly Request.IsLook := by
  have reads : (Action.readAt path).AsksOnly Request.IsLook := by
    cases path with
    | text path => exact Action.asksOnly_request (.read path)
    | raw path => exact Action.asksOnly_request (.rawRead path)
  have looks : (Action.readTextAt path).AsksOnly Request.IsLook := by
    refine reads.bind ?_
    rintro (cause | content)
    · exact Action.asksOnly_pure _
    · dsimp only
      split <;> exact Action.asksOnly_pure _
  refine looks.bind ?_
  rintro (cause | text)
  · exact Action.asksOnly_pure _
  · dsimp only
    split <;> exact Action.asksOnly_pure _

theorem looks_readTables
    (dir : Path)
    (names : List EntryName) :
    (readTables dir names).AsksOnly Request.IsLook := by
  induction names with
  | nil => exact Action.asksOnly_pure _
  | cons name rest inductionHypothesis =>
      refine (looks_readExportAt _).bind ?_
      rintro (failure | entries)
      · exact Action.asksOnly_pure _
      · refine inductionHypothesis.bind ?_
        rintro (failure | tables) <;> exact Action.asksOnly_pure _

/-- Loading a directory only looks at files. -/
theorem looks_load (dir : Path) : (load dir).AsksOnly Request.IsLook := by
  refine .bind (Action.asksOnly_request (.entries dir)) ?_
  rintro (cause | listed)
  · exact Action.asksOnly_pure _
  · refine (looks_exportNames dir listed).bind fun chosen => ?_
    split
    · exact Action.asksOnly_pure _
    · exact looks_readTables dir _

/-- Every file holds timings, or there is a first one that does not. -/
theorem tabulates_or_lacks
    (snapshot : Snapshot)
    (dir : Path)
    (titled : ∀ name ∈ names, ∃ title, name.IsTitled title) :
    (∃ tables, List.Forall₂ (snapshot.Tabulates dir) names tables) ∨
      ∃ early name late failure, names = early ++ name :: late ∧
        (∀ earlier ∈ early, ∃ entries,
          snapshot.HoldsTimings (dir.entry earlier) entries) ∧
        snapshot.LacksTimings (dir.entry name) failure := by
  induction names with
  | nil => exact .inl ⟨[], .nil⟩
  | cons first rest inductionHypothesis =>
      rw [List.forall_mem_cons] at titled
      obtain ⟨⟨title, isTitled⟩, titledRest⟩ := titled
      rcases snapshot.holds_or_lacks (dir.entry first) with
        ⟨entries, holds⟩ | ⟨failure, lacks⟩
      · obtain ⟨tables, tabulated⟩ |
            ⟨early, name, late, failure, rest_eq, parses, lacks⟩ :=
          inductionHypothesis titledRest
        · exact .inl ⟨⟨title, entries⟩ :: tables,
            .cons ⟨isTitled, holds⟩ tabulated⟩
        · refine .inr ⟨first :: early, name, late, failure, by rw [rest_eq]; rfl,
            ?_, lacks⟩
          rw [List.forall_mem_cons]
          exact ⟨⟨entries, holds⟩, parses⟩
      · exact .inr ⟨[], first, rest, failure, rfl, by simp, lacks⟩

/-! ## Loading a listed directory -/

/-- The names that are chosen of those that a directory lists, in order. -/
def sortedExports
    (snapshot : Snapshot)
    (dir : Path)
    (listed : List EntryName) : List EntryName :=
  (listed.filter fun name => snapshot.IsFileAt (dir.entry name) ∧
    hasExtension dir name).mergeSort (· ≤ ·)

@[simp] theorem seen_exportNames
    (snapshot : Snapshot)
    (dir : Path)
    (names : List EntryName) :
    (exportNames dir names).seen snapshot =
      names.filter fun name => snapshot.IsFileAt (dir.entry name) ∧
        hasExtension dir name := by
  induction names with
  | nil => rfl
  | cons name rest inductionHypothesis =>
      rw [exportNames, Action.seen_bind, Action.seen_bind,
        inductionHypothesis, isExport, Action.seen_bind, Action.seen_isFileAt,
        List.filter_cons]
      simp only [Action.seen_pure, decide_eq_true_eq]

theorem seen_load
    (lists : snapshot.entries dir = .ok listed) :
    (load dir).seen snapshot =
      if sortedExports snapshot dir listed = [] then .error (.noResults dir)
      else (readTables dir (sortedExports snapshot dir listed)).seen snapshot := by
  rw [load, Action.seen_bind, Action.seen_entries, lists]
  dsimp only
  rw [Action.seen_bind, seen_exportNames, ← sortedExports]
  cases sortedExports snapshot dir listed <;> rfl

/-- The chosen names are the same, and in the same order, in whatever order the
directory lists them. -/
theorem sortedExports_of_reorders
    {others : List EntryName}
    (reorders : snapshot.Reorders alike other)
    (perm : listed.Perm others) :
    sortedExports other dir others = sortedExports snapshot dir listed := by
  have sorted : ∀ names : List EntryName,
      (names.mergeSort (· ≤ ·)).Pairwise (· ≤ ·) :=
    List.pairwise_mergeSort' (· ≤ ·)
  unfold sortedExports
  simp only [reorders.isFileAt_iff]
  refine List.Perm.eq_of_pairwise' (sorted _) (sorted _) ?_
  exact (List.mergeSort_perm _ _).trans
    ((perm.symm.filter _).trans (List.mergeSort_perm _ _).symm)

theorem mem_sortedExports
    {name : EntryName}
    (areProper : ∀ name ∈ listed, name.IsProper) :
    name ∈ sortedExports snapshot dir listed ↔
      name ∈ listed ∧ snapshot.IsFileAt (dir.entry name) ∧
        ∃ title, name.IsTitled title := by
  rw [sortedExports, List.mem_mergeSort, List.mem_filter, decide_eq_true_iff]
  refine and_congr_right fun isListed => and_congr_right fun _ => ?_
  exact hasExtension_iff (areProper name isListed)

/-! ## What is loaded -/

/-- What some files of a directory are loaded as, given their names in order,
and the names of those that are read: tables of all files, or the failure of
the first that has no timings. -/
inductive Loaded
    (snapshot : Snapshot)
    (dir : Path) :
    List EntryName -> List EntryName -> Except Failure (List TimingTable) -> Prop
  | nothing : Loaded snapshot dir [] [] (.error (.noResults dir))
  | tables
      {exports : List EntryName}
      {tables : List TimingTable}
      (someExport : exports ≠ [])
      (tabulated : List.Forall₂ (snapshot.Tabulates dir) exports tables) :
      Loaded snapshot dir exports exports (.ok tables)
  | failed
      {early late : List EntryName}
      {name : EntryName}
      {failure : Failure}
      (parses : ∀ earlier ∈ early, ∃ entries,
        snapshot.HoldsTimings (dir.entry earlier) entries)
      (lacks : snapshot.LacksTimings (dir.entry name) failure) :
      Loaded snapshot dir (early ++ name :: late) (early ++ [name])
        (.error failure)

variable {exports consulted : List EntryName}
  {result : Except Failure (List TimingTable)}

/-- Files with names are loaded in one of these ways. -/
theorem exists_loaded
    (snapshot : Snapshot)
    (dir : Path)
    (titled : ∀ name ∈ exports, ∃ title, name.IsTitled title) :
    ∃ consulted result, Loaded snapshot dir exports consulted result := by
  by_cases someExport : exports = []
  · subst someExport
    exact ⟨_, _, .nothing⟩
  obtain ⟨tables, tabulated⟩ |
      ⟨early, name, late, failure, rfl, parses, lacks⟩ :=
    tabulates_or_lacks snapshot dir titled
  · exact ⟨_, _, .tables someExport tabulated⟩
  · exact ⟨_, _, .failed parses lacks⟩

/-- A directory is loaded as its files of timings are. -/
theorem Loaded.seen_eq
    (areProper : ∀ name ∈ listed, name.IsProper)
    (lists : snapshot.entries dir = .ok listed)
    (loaded : Loaded snapshot dir exports consulted result)
    (exports_eq : sortedExports snapshot dir listed = exports) :
    (load dir).seen snapshot = result := by
  rw [seen_load lists, exports_eq]
  cases loaded with
  | nothing => rfl
  | tables someExport tabulated =>
      rw [if_neg someExport]
      subst exports_eq
      refine seen_readTables_of_tabulates (fun name member => ?_) tabulated
      exact areProper name ((mem_sortedExports areProper).mp member).1
  | failed parses lacks =>
      rw [if_neg (by simp)]
      exact seen_readTables_of_lacks parses lacks

/-- Only what is in the files that are read makes a difference. -/
theorem Loaded.of_content_eq
    (loaded : Loaded snapshot dir exports consulted result)
    (same : ∀ name ∈ consulted, other.contentAt (dir.entry name) =
      snapshot.contentAt (dir.entry name)) :
    Loaded other dir exports consulted result := by
  cases loaded with
  | nothing => exact .nothing
  | tables someExport tabulated =>
      refine .tables someExport ?_
      refine ((List.forall₂_and_left _ _).mpr ⟨same, tabulated⟩).imp ?_
      rintro name table ⟨content_eq, tabulates⟩
      exact ⟨tabulates.titled, tabulates.holds.of_content_eq content_eq⟩
  | failed parses lacks =>
      refine .failed (fun earlier member => ?_)
        (lacks.of_content_eq (same _ (by simp)))
      obtain ⟨entries, holds⟩ := parses earlier member
      exact ⟨entries, holds.of_content_eq (same _ (by simp [member]))⟩

/-- A directory that lists its names in another order is loaded in the same
way. -/
theorem Loaded.seen_of_reorders
    (areProper : ∀ name ∈ listed, name.IsProper)
    (lists : snapshot.entries dir = .ok listed)
    (loaded : Loaded snapshot dir (sortedExports snapshot dir listed) consulted
      result)
    (reorders : snapshot.Reorders alike other)
    (areAlike : ∀ name ∈ consulted, alike (dir.entry name)) :
    (load dir).seen other = result := by
  have loadedThere : Loaded other dir _ consulted result :=
    loaded.of_content_eq fun name member =>
      reorders.content_eq _ (areAlike name member)
  have permuted := reorders.entries dir
  rw [lists] at permuted
  generalize others_eq : other.entries dir = answer at permuted
  cases permuted with
  | names perm =>
      have areProperThere := fun name member =>
        areProper name (perm.mem_iff.mpr member)
      exact loadedThere.seen_eq areProperThere others_eq
        (sortedExports_of_reorders reorders perm)

/-- Without any file of timings, and only then, the failure says so. -/
theorem Loaded.noResults_iff
    (loaded : Loaded snapshot dir exports consulted result) :
    result = .error (.noResults dir) ↔ exports = [] := by
  cases loaded with
  | nothing => simp
  | tables someExport tabulated => simp [someExport]
  | failed parses lacks => cases lacks <;> simp

/-- A directory that lists some names is loaded from the files of timings among
them, of which some are read. -/
structure LoadedFrom
    (snapshot : Snapshot)
    (dir : Path)
    (listed exports consulted : List EntryName) : Prop where
  /-- The files are in ascending order of the bytes of their names. -/
  ascending : exports.Pairwise (· < ·)
  /-- They are the regular files with the extension of timings. -/
  mem_iff : ∀ name, name ∈ exports ↔
    name ∈ listed ∧ snapshot.IsFileAt (dir.entry name) ∧
      ∃ title, name.IsTitled title
  /-- They are loaded in this order. -/
  loaded : Loaded snapshot dir exports consulted ((load dir).seen snapshot)
  /-- It fails for want of files where there is none. -/
  noResults_iff :
    (load dir).seen snapshot = .error (.noResults dir) ↔ exports = []
  /-- The result is the same in whatever order directories list what is in
  them, and whatever is in the files that are not read. -/
  same : ∀ alike other, snapshot.Reorders alike other ->
    (∀ name ∈ consulted, alike (dir.entry name)) ->
      (load dir).seen other = (load dir).seen snapshot
  /-- Machines load the directory as it is shown, and stay as they are. -/
  runs : ∀ machine : Machine, machine.snapshot = snapshot ->
    (load dir).runOn machine = ((load dir).seen snapshot, machine)

/-- What is loaded from a directory does not depend on the order in which it
lists what is in it. -/
theorem load_any_order
    (areProper : ∀ name ∈ listed, name.IsProper)
    (nodup : listed.Nodup)
    (lists : snapshot.entries dir = .ok listed) :
    ∃ exports consulted, LoadedFrom snapshot dir listed exports consulted := by
  have mem_iff : ∀ name, name ∈ sortedExports snapshot dir listed ↔ _ :=
    fun _ => mem_sortedExports areProper
  obtain ⟨consulted, result, loaded⟩ := exists_loaded snapshot dir
    fun name member => ((mem_iff name).mp member).2.2
  have result_eq := loaded.seen_eq areProper lists rfl
  rw [← result_eq] at loaded
  refine ⟨sortedExports snapshot dir listed, consulted,
    { ascending := EntryName.pairwise_lt_mergeSort (nodup.filter _)
      mem_iff
      loaded
      noResults_iff := loaded.noResults_iff
      same := fun _ _ reorders areAlike =>
        loaded.seen_of_reorders areProper lists reorders areAlike
      runs := ?_ }⟩
  rintro machine rfl
  exact (looks_load dir).runOn_eq machine

namespace Shuffled

/-- A document with the timing of one command. -/
def document (command mean : String) : String :=
  "\x7b\"results\": [\x7b\"command\": \"" ++ command ++ "\", \"mean\": " ++
    mean ++ ", \"stddev\": null\x7d]\x7d"

/-- A document that was not written to its end. -/
def unfinished : String :=
  "\x7b\"results\": [\x7b\"command\": \"uv sync\""

def file (text : String) : Node :=
  .file text.toUTF8 false

/-- A directory with files of timings among others, one of them unfinished. -/
def machine : Machine where
  tree := ⟨[(["out"], .directory),
    (["out", "b.json"], file (document "uv lock" "1.5")),
    (["out", "notes.txt"], file unfinished),
    (["out", "c.json"], file unfinished),
    (["out", "a.json"], file (document "pipenv lock" "12.25")),
    (["out", ".json"], file unfinished),
    (["out", "d.json"], .directory)]⟩
  workingDir := []
  environment := []
  behavior _ := none
  time := "12:00"
  freshNames := []

/-- What the directory lists. -/
def inside : List String :=
  ["b.json", "notes.txt", "c.json", "a.json", ".json", "d.json"]

end Shuffled

open Shuffled in
theorem load_any_order_shuffled :
    ((∀ name ∈ inside.map EntryName.text, name.IsProper) ∧
      (inside.map EntryName.text).Nodup ∧
      machine.snapshot.entries ⟨"/out"⟩ = .ok (inside.map EntryName.text)) ∧
    ((Timing.ofText? (document "uv lock" "1.5")).isSome ∧
      (Timing.ofText? (document "pipenv lock" "12.25")).isSome ∧
      (Timing.ofText? unfinished).isNone) ∧
    ∃ exports consulted, LoadedFrom machine.snapshot ⟨"/out"⟩
      (inside.map EntryName.text) exports consulted := by
  have areProper : ∀ name ∈ inside.map EntryName.text, name.IsProper := by
    decide
  have different : inside.Nodup := by decide
  have nodup : (inside.map EntryName.text).Nodup :=
    different.map fun _ _ same => EntryName.text.inj same
  have lists : machine.snapshot.entries ⟨"/out"⟩ =
      .ok (inside.map EntryName.text) := by rfl
  exact ⟨⟨areProper, nodup, lists⟩, by decide +kernel,
    load_any_order areProper nodup lists⟩

end Report
end LockBench
