import LockBench.Proofs.Toml.Reading
import LockBench.Proofs.Toml.Writing

/-!
# What is written reads back

The statements of a table are carried out one by one; each adds to the end of
the table that is open.  So tables with different names and different keys come
back as they are, and a document that is written holds nothing else.
-/

namespace LockBench
namespace Toml

open Grammar

/-! ## Entries -/

/-- The keys of some entries. -/
def keys (entries : Entries) : List String :=
  entries.map Prod.fst

@[simp] theorem keys_append (entries others : Entries) :
    keys (entries ++ others) = keys entries ++ keys others := by
  simp [keys]

theorem find?_append_of_not_mem
    {key : String}
    {entries : Entries}
    (isNew : key ∉ keys entries)
    (others : Entries) : find? key (entries ++ others) = find? key others := by
  induction entries with
  | nil => rfl
  | cons entry rest inductionHypothesis =>
      obtain ⟨different, isNew⟩ := by simpa [keys] using isNew
      rw [List.cons_append, find?, if_neg (Ne.symm different)]
      exact inductionHypothesis (by simpa [keys] using isNew)

theorem find?_eq_none
    {key : String}
    {entries : Entries}
    (isNew : key ∉ keys entries) : find? key entries = none := by
  have found := find?_append_of_not_mem isNew []
  rwa [List.append_nil] at found

theorem put_append_of_not_mem
    {key : String}
    {entries : Entries}
    (isNew : key ∉ keys entries)
    (old value : Value) :
    put key value (entries ++ [(key, old)]) = entries ++ [(key, value)] := by
  induction entries with
  | nil => simp [put]
  | cons entry rest inductionHypothesis =>
      obtain ⟨different, isNew⟩ := by simpa [keys] using isNew
      rw [List.cons_append, put, if_neg (Ne.symm different),
        inductionHypothesis (by simpa [keys] using isNew)]
      rfl

/-! ## Steps -/

section Steps

variable {key name : String} {value : Value} {entries inner : Entries}

/-- An assignment before the first header adds to the table of the
document. -/
theorem add?_assign_top
    (isNew : key ∉ keys entries) :
    Draft.add? ⟨⟨.header, entries⟩, []⟩ (.assign [key] value) =
      some ⟨⟨.header, entries ++ [(key, value)]⟩, []⟩ := by
  simp [Draft.add?, descend?, assign?, setNew?, find?_eq_none isNew]

/-- A header opens a table at the end. -/
theorem add?_table
    (isNew : name ∉ keys entries)
    (current : List String) :
    Draft.add? ⟨⟨.header, entries⟩, current⟩ (.table [name]) =
      some ⟨⟨.header, entries ++ [(name, .table .header [])]⟩, [name]⟩ := by
  simp [Draft.add?, header?, descend?, openTable?, find?_eq_none isNew]

/-- An assignment after it adds to this table. -/
theorem add?_assign_table
    (isLast : name ∉ keys entries)
    (isNew : key ∉ keys inner) :
    Draft.add? ⟨⟨.header, entries ++ [(name, .table .header inner)]⟩, [name]⟩
        (.assign [key] value) =
      some ⟨⟨.header,
        entries ++ [(name, .table .header (inner ++ [(key, value)]))]⟩,
        [name]⟩ := by
  simp [Draft.add?, descend?, assign?, setNew?,
    find?_append_of_not_mem isLast, put_append_of_not_mem isLast, find?,
    find?_eq_none isNew]

end Steps

/-! ## Tables -/

/-- The entries that keys and plain values stand for. -/
def plainEntries (entries : List (String × Plain)) : Entries :=
  entries.map fun (key, value) => (key, value.toValue)

/-- The statements that set them. -/
def assignments (entries : List (String × Plain)) : List Statement :=
  entries.map fun (key, value) => .assign [key] value.toValue

/-- What a table adds to the document. -/
def PlainTable.placed (table : PlainTable) : Entries :=
  match table.name with
  | none => plainEntries table.entries
  | some name => [(name, .table .header (plainEntries table.entries))]

theorem foldlM_assignments_top
    (before : Entries)
    (entries : List (String × Plain))
    (areNew : (keys (before ++ plainEntries entries)).Nodup) :
    (assignments entries).foldlM Draft.add? ⟨⟨.header, before⟩, []⟩ =
      some ⟨⟨.header, before ++ plainEntries entries⟩, []⟩ := by
  induction entries generalizing before with
  | nil => simp [assignments, plainEntries]
  | cons entry others inductionHypothesis =>
      obtain ⟨key, value⟩ := entry
      have split_eq : before ++ plainEntries ((key, value) :: others) =
          before ++ [(key, value.toValue)] ++ plainEntries others := by
        simp [plainEntries]
      rw [split_eq] at areNew ⊢
      have isNew : key ∉ keys before := by
        simp only [keys_append, List.nodup_append] at areNew
        exact fun member => areNew.1.2.2 key member key (by simp [keys]) rfl
      rw [assignments, List.map_cons, List.foldlM_cons]
      simp only [add?_assign_top isNew, Option.bind_eq_bind, Option.bind_some]
      exact inductionHypothesis _ areNew

theorem foldlM_assignments_table
    {name : String}
    {before : Entries}
    (isLast : name ∉ keys before)
    (inner : Entries)
    (entries : List (String × Plain))
    (areNew : (keys (inner ++ plainEntries entries)).Nodup) :
    (assignments entries).foldlM Draft.add?
        ⟨⟨.header, before ++ [(name, .table .header inner)]⟩, [name]⟩ =
      some ⟨⟨.header,
        before ++ [(name, .table .header (inner ++ plainEntries entries))]⟩,
        [name]⟩ := by
  induction entries generalizing inner with
  | nil => simp [assignments, plainEntries]
  | cons entry others inductionHypothesis =>
      obtain ⟨key, value⟩ := entry
      have split_eq : inner ++ plainEntries ((key, value) :: others) =
          inner ++ [(key, value.toValue)] ++ plainEntries others := by
        simp [plainEntries]
      rw [split_eq] at areNew ⊢
      have isNew : key ∉ keys inner := by
        simp only [keys_append, List.nodup_append] at areNew
        exact fun member => areNew.1.2.2 key member key (by simp [keys]) rfl
      rw [assignments, List.map_cons, List.foldlM_cons]
      simp only [add?_assign_table isLast isNew, Option.bind_eq_bind,
        Option.bind_some]
      exact inductionHypothesis _ areNew

/-- The tables of a document: only the first one may lack a name, and no name
and no key is used twice at one place. -/
structure AreTables (tables : List PlainTable) : Prop where
  /-- All but the first table have names. -/
  named : ∀ table ∈ tables.tail, ∃ name, table.name = some name
  /-- The keys of each table differ. -/
  keys : ∀ table ∈ tables, (keys (plainEntries table.entries)).Nodup
  /-- What stands at the top of the document differs. -/
  tops : (Toml.keys (tables.flatMap PlainTable.placed)).Nodup

theorem foldlM_statements
    {table : PlainTable}
    {name : String}
    (named : table.name = some name)
    (areKeys : (keys (plainEntries table.entries)).Nodup)
    {before : Entries}
    (isNew : name ∉ keys before)
    (current : List String) :
    table.statements.foldlM Draft.add? ⟨⟨.header, before⟩, current⟩ =
      some ⟨⟨.header, before ++ table.placed⟩, [name]⟩ := by
  have assigned := foldlM_assignments_table isNew [] table.entries
    (by simpa using areKeys)
  rw [PlainTable.statements, PlainTable.placed, named]
  simp only [Option.map_some, Option.toList_some, List.singleton_append,
    List.foldlM_cons, add?_table isNew, Option.bind_eq_bind, Option.bind_some]
  exact assigned

theorem foldlM_named
    {tables : List PlainTable}
    (named : ∀ table ∈ tables, ∃ name, table.name = some name)
    (areKeys : ∀ table ∈ tables, (keys (plainEntries table.entries)).Nodup)
    (before : Entries)
    (areNew : (keys (before ++ tables.flatMap PlainTable.placed)).Nodup)
    (current : List String) :
    ∃ last,
      (tables.flatMap PlainTable.statements).foldlM Draft.add?
          ⟨⟨.header, before⟩, current⟩ =
        some ⟨⟨.header, before ++ tables.flatMap PlainTable.placed⟩,
          last⟩ := by
  induction tables generalizing before current with
  | nil => exact ⟨current, by simp⟩
  | cons table others inductionHypothesis =>
      obtain ⟨name, table_name⟩ := named table List.mem_cons_self
      rw [List.flatMap_cons, ← List.append_assoc] at areNew
      have isNew : name ∉ keys before := by
        simp only [keys_append, List.nodup_append] at areNew
        exact fun member => areNew.1.2.2 name member name
          (by simp [PlainTable.placed, table_name, keys]) rfl
      obtain ⟨last, carriedOut⟩ := inductionHypothesis
        (fun table member => named table (List.mem_cons_of_mem _ member))
        (fun table member => areKeys table (List.mem_cons_of_mem _ member))
        _ areNew [name]
      refine ⟨last, ?_⟩
      rw [List.flatMap_cons, List.foldlM_append,
        foldlM_statements table_name (areKeys table List.mem_cons_self) isNew,
        List.flatMap_cons, ← List.append_assoc]
      exact carriedOut

/-- The statements of tables make these tables. -/
theorem entriesOf?_statements
    {tables : List PlainTable}
    (areTables : AreTables tables) :
    entriesOf? (tables.flatMap PlainTable.statements) =
      some (tables.flatMap PlainTable.placed) := by
  have carriedOut : ∃ last,
      (tables.flatMap PlainTable.statements).foldlM Draft.add?
          ⟨⟨.header, []⟩, []⟩ =
        some ⟨⟨.header, tables.flatMap PlainTable.placed⟩, last⟩ := by
    cases tables with
    | nil => exact ⟨[], rfl⟩
    | cons top others =>
        cases top_name : top.name with
        | some name =>
            exact foldlM_named
              (List.forall_mem_cons.mpr ⟨⟨name, top_name⟩, areTables.named⟩)
              areTables.keys [] areTables.tops []
        | none =>
            have statements_eq : top.statements = assignments top.entries := by
              simp [PlainTable.statements, assignments, top_name]
            have placed_eq : top.placed = plainEntries top.entries := by
              simp [PlainTable.placed, top_name]
            have first := foldlM_assignments_top [] top.entries
              (areTables.keys top List.mem_cons_self)
            have others := foldlM_named areTables.named
              (fun table member =>
                areTables.keys table (List.mem_cons_of_mem _ member))
              top.placed areTables.tops []
            rw [List.flatMap_cons, List.foldlM_append, statements_eq, first,
              List.flatMap_cons]
            rw [placed_eq] at others ⊢
            exact others
  obtain ⟨last, carriedOut⟩ := carriedOut
  rw [entriesOf?, carriedOut]
  rfl

/-- What is written is a document of the grammar, and it holds the tables. -/
theorem holds_writeDocument
    (layout : Layout)
    {tables : List PlainTable}
    (areBare : ∀ table ∈ tables, table.IsBare)
    (areTables : AreTables tables) :
    Holds (writeDocument layout tables) (tables.flatMap PlainTable.placed) :=
  ⟨_, document_writeDocument layout areBare, entriesOf?_statements areTables⟩

end Toml
end LockBench
