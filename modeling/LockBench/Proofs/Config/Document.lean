import LockBench.Config.Document
import LockBench.Proofs.Toml.Tables

/-!
# Configurations read back as they were written

A configuration is written as at most two tables, in which every value that is
set has an entry under its own key.  A key is looked up among the entries of
others, so what it has to give back is its own value or nothing.
-/

namespace LockBench
namespace Config

open Toml

/-! ## Entries -/

/-- The entries of the values that are set, for some keys. -/
def entriesOf
    (config : Config)
    (keys : List Key) : Entries :=
  plainEntries (keys.flatMap fun key => plainEntry key (config.plain key))

/-- The entries of the tools that have binaries. -/
def binariesOf (paths : ToolPaths) : Entries :=
  plainEntries (listEntry "ripenv" paths.ripenv) ++
    (plainEntries (listEntry "pipenv" paths.pipenv) ++
      plainEntries (listEntry "uv" paths.uv))

/-- The entry of the tools, unless none has a binary. -/
def toolsEntry (config : Config) : Entries :=
  if config.tools.isEmpty then []
  else [("tools", .table .header (binariesOf config.tools))]

variable (config : Config)

theorem placed_tables :
    config.tables.flatMap PlainTable.placed =
      config.entriesOf Key.all ++ config.toolsEntry := by
  rw [tables, List.flatMap_cons, toolsEntry]
  split <;> simp [PlainTable.placed, entriesOf, binariesOf, plainEntries]

theorem entriesOf_cons
    (key : Key)
    (keys : List Key) :
    config.entriesOf (key :: keys) =
      ((config.plain key).map fun plain => (key.name, plain.toValue)).toList ++
        config.entriesOf keys := by
  cases value : config.plain key <;>
    simp [entriesOf, plainEntries, plainEntry, value]

/-- Only keys of the list have entries, and each at most one. -/
theorem keys_entriesOf_sublist
    (list : List Key) :
    (keys (config.entriesOf list)).Sublist (list.map Key.name) := by
  induction list with
  | nil => exact .slnil
  | cons key others inductionHypothesis =>
      rw [entriesOf_cons, keys_append]
      cases config.plain key with
      | none => exact .cons _ inductionHypothesis
      | some plain => exact .cons_cons _ inductionHypothesis

theorem name_injective
    {key other : Key}
    (same : key.name = other.name) : key = other := by
  revert same
  cases key <;> cases other <;> decide

/-- A key of the list has its own value, whatever other entries there are. -/
theorem find?_entriesOf
    (key : Key)
    (list : List Key)
    (others : Entries)
    (absent : find? key.name others = none) :
    find? key.name (config.entriesOf list ++ others) =
      if key ∈ list then (config.plain key).map Plain.toValue else none := by
  induction list with
  | nil => simpa [entriesOf, plainEntries] using absent
  | cons first rest inductionHypothesis =>
      rw [entriesOf_cons, List.append_assoc]
      by_cases isFirst : first = key
      · subst isFirst
        cases value : config.plain first with
        | none => simpa [value] using inductionHypothesis
        | some plain => simp [find?]
      · have differs : first.name ≠ key.name := fun same =>
          isFirst (name_injective same)
        simp only [List.mem_cons, Ne.symm isFirst, false_or]
        rw [← inductionHypothesis]
        cases config.plain first with
        | none => rfl
        | some plain => simp [find?, differs]

theorem tools_not_mem :
    "tools" ∉ keys (config.entriesOf Key.all) := fun member =>
  absurd ((config.keys_entriesOf_sublist Key.all).subset member) (by decide)

theorem find?_toolsEntry (key : Key) :
    find? key.name config.toolsEntry = none := by
  have differs : ∀ key : Key, "tools" ≠ key.name := by
    intro key
    cases key <;> decide
  rw [toolsEntry]
  split <;> simp [find?, differs]

theorem find?_placed (key : Key) :
    find? key.name (config.entriesOf Key.all ++ config.toolsEntry) =
      (config.plain key).map Plain.toValue := by
  rw [find?_entriesOf _ _ _ _ (config.find?_toolsEntry key),
    if_pos key.mem_all]

theorem keys_listEntry
    (name : String)
    (items : List String) :
    keys (plainEntries (listEntry name items)) =
      if items.isEmpty then [] else [name] := by
  rw [listEntry]
  split <;> rfl

/-! ## Writing -/

theorem isBareName_name (key : Key) : IsBareName key.name := by
  cases key <;> decide

theorem isBare_tables :
    ∀ table ∈ config.tables, table.IsBare := by
  rw [tables, List.forall_mem_cons]
  refine ⟨⟨by simp, ?_⟩, ?_⟩
  · intro entry member
    obtain ⟨key, -, member⟩ := List.mem_flatMap.mp member
    obtain ⟨plain, -, rfl⟩ : ∃ plain, config.plain key = some plain ∧
        (key.name, plain) = entry := by
      simpa [plainEntry] using member
    exact isBareName_name key
  · split
    · simp
    · rw [List.forall_mem_singleton]
      refine ⟨?_, ?_⟩
      · rintro name ⟨⟩
        decide
      · intro entry member
        have named : entry.1 ∈ ["ripenv", "pipenv", "uv"] := by
          simp only [listEntry, List.mem_append] at member
          grind
        have areBare : ∀ name ∈ ["ripenv", "pipenv", "uv"],
            IsBareName name := by decide
        exact areBare _ named

theorem areTables_tables : AreTables config.tables where
  named := by
    rw [tables]
    split <;> simp
  keys := by
    rw [tables, List.forall_mem_cons]
    refine ⟨?_, ?_⟩
    · exact (config.keys_entriesOf_sublist Key.all).nodup (by decide)
    · split
      · simp
      · rw [List.forall_mem_singleton]
        have named : (keys (binariesOf config.tools)).Sublist
            (["ripenv"] ++ (["pipenv"] ++ ["uv"])) := by
          have each : ∀ name items,
              (keys (plainEntries (listEntry name items))).Sublist
                [name] := by
            intro name items
            rw [keys_listEntry]
            split <;> simp
          rw [binariesOf, keys_append, keys_append]
          exact (each _ _).append ((each _ _).append (each _ _))
        have areKeys := named.nodup (by decide)
        simpa [binariesOf, plainEntries] using areKeys
  tops := by
    have named : (keys config.toolsEntry).Sublist ["tools"] := by
      rw [toolsEntry]
      split <;> simp [keys]
    rw [placed_tables, keys_append]
    exact ((config.keys_entriesOf_sublist Key.all).append named).nodup
      (by decide)

/-- The text of a configuration is read as these entries. -/
theorem read?_toText :
    read? config.toText =
      some (config.entriesOf Key.all ++ config.toolsEntry) := by
  rw [← placed_tables]
  exact read?_eq_some (holds_writeDocument .pretty config.isBare_tables
    config.areTables_tables)

/-! ## Reading -/

theorem count?_toNat (count : UInt32) : count? count.toNat = some count := by
  rw [count?, if_pos count.toNat_lt_size]
  simp

theorem readCount?_eq_some
    {entries : Entries}
    {key : Key}
    {value : Option UInt32}
    (found : find? key.name entries =
      (value.map fun count => Plain.count count.toNat).map Plain.toValue) :
    readCount? entries key = some value := by
  rw [readCount?, found]
  cases value with
  | none => rfl
  | some count => simp [Plain.toValue, count?_toNat]

theorem readText?_eq_some
    {entries : Entries}
    {key : Key}
    {value : Option String}
    (found : find? key.name entries =
      (value.map Plain.text).map Plain.toValue) :
    readText? entries key = some value := by
  rw [readText?, found]
  cases value <;> rfl

theorem strings?_texts (items : List String) :
    strings? (.array (items.map .text)) = some items := by
  rw [strings?]
  induction items with
  | nil => rfl
  | cons item others inductionHypothesis =>
      rw [List.map_cons, List.mapM_cons, inductionHypothesis]
      rfl

/-- The lists of all tools are read, the empty ones from no entry. -/
theorem readList?_binariesOf (paths : ToolPaths) :
    readList? (binariesOf paths) "ripenv" = some paths.ripenv ∧
      readList? (binariesOf paths) "pipenv" = some paths.pipenv ∧
      readList? (binariesOf paths) "uv" = some paths.uv := by
  obtain ⟨ripenv, pipenv, uv⟩ := paths
  have read : ∀ item others, strings? (.array
      (.text item :: others.map .text)) = some (item :: others) :=
    fun item others => strings?_texts (item :: others)
  cases ripenv <;> cases pipenv <;> cases uv <;>
    simp [readList?, binariesOf, listEntry, plainEntries, find?,
      Plain.toValue, read]

theorem fits_texts (items : List String) :
    (Plain.texts items).toValue.fits = true := by
  simp [Plain.toValue, Value.fits]

theorem fits_count (count : UInt32) :
    (Plain.count count.toNat).toValue.fits = true := by
  have small := count.toNat_lt
  have wide : 2 ^ 32 ≤ Nat.pow 2 128 := by decide
  simp only [Plain.toValue, Value.fits, fitsWord, Bool.decide_and,
    Bool.and_eq_true, decide_eq_true_eq]
  exact ⟨by omega, by omega⟩

theorem fits_plain
    {key : Key}
    {value : Plain}
    (isSet : config.plain key = some value) : value.toValue.fits = true := by
  cases key with
  | warmup | minRuns | runs =>
      obtain ⟨count, -, rfl⟩ := Option.map_eq_some_iff.mp isSet
      exact fits_count count
  | resultsDir | fixturesDir | hyperfinePath | requiresPython | projectName =>
      obtain ⟨text, -, rfl⟩ := Option.map_eq_some_iff.mp isSet
      simp [Plain.toValue, Value.fits]

theorem entriesFit_binariesOf (paths : ToolPaths) :
    entriesFit (binariesOf paths) = true := by
  have each : ∀ name items,
      entriesFit (plainEntries (listEntry name items)) = true := by
    intro name items
    rw [listEntry]
    split
    · simp [plainEntries]
    · simp [plainEntries, fits_texts]
  simp only [entriesFit_eq_all, binariesOf, List.all_append, Bool.and_eq_true]
    at each ⊢
  exact ⟨each _ _, each _ _, each _ _⟩

theorem guard_eq_some
    {fits : Bool}
    (fit : fits = true) : (guard (fits = true) : Option Unit) = some () :=
  if_pos fit

theorem readTools?_placed :
    readTools? (config.entriesOf Key.all ++ config.toolsEntry) =
      some config.tools := by
  have found : find? "tools" (config.entriesOf Key.all ++ config.toolsEntry) =
      if config.tools.isEmpty then none
      else some (.table .header (binariesOf config.tools)) := by
    rw [find?_append_of_not_mem config.tools_not_mem, toolsEntry]
    split <;> simp [find?]
  rw [readTools?, found]
  by_cases isEmpty : config.tools.isEmpty = true
  · rw [if_pos isEmpty]
    simp only [ToolPaths.isEmpty, Bool.and_eq_true, List.isEmpty_iff]
      at isEmpty
    cases paths : config.tools
    simp_all
  · obtain ⟨ripenv, pipenv, uv⟩ := readList?_binariesOf config.tools
    rw [if_neg isEmpty]
    dsimp only
    rw [guard_eq_some (entriesFit_binariesOf config.tools), ripenv, pipenv, uv]
    rfl

/-- What is checked beside the tools are the entries of keys, of which every
number is small. -/
theorem entriesFit_placed :
    entriesFit ((config.entriesOf Key.all ++ config.toolsEntry).filter
      fun entry => entry.1 ≠ "tools") = true := by
  rw [entriesFit_eq_all, List.all_eq_true]
  intro entry member
  obtain ⟨member, noTools⟩ := List.mem_filter.mp member
  rcases List.mem_append.mp member with isKeys | isTools
  · obtain ⟨_, stated, rfl⟩ := List.mem_map.mp isKeys
    obtain ⟨key, -, stated⟩ := List.mem_flatMap.mp stated
    obtain ⟨value, isSet, rfl⟩ : ∃ value, config.plain key = some value ∧
        (key.name, value) = _ := by
      simpa [plainEntry] using stated
    exact config.fits_plain isSet
  · rw [toolsEntry] at isTools
    split at isTools
    · simp at isTools
    · simp_all

theorem ofEntries?_placed :
    ofEntries? (config.entriesOf Key.all ++ config.toolsEntry) =
      some config := by
  rw [ofEntries?, guard_eq_some config.entriesFit_placed]
  simp only [readCount?_eq_some (config.find?_placed .warmup),
    readCount?_eq_some (config.find?_placed .minRuns),
    readCount?_eq_some (config.find?_placed .runs),
    readText?_eq_some (config.find?_placed .resultsDir),
    readText?_eq_some (config.find?_placed .fixturesDir),
    readText?_eq_some (config.find?_placed .hyperfinePath),
    readText?_eq_some (config.find?_placed .requiresPython),
    readText?_eq_some (config.find?_placed .projectName),
    readTools?_placed]
  rfl

/-- A configuration is what its text is read as. -/
theorem ofText?_toText : ofText? config.toText = some config := by
  rw [ofText?, read?_toText]
  exact config.ofEntries?_placed

end Config
end LockBench
