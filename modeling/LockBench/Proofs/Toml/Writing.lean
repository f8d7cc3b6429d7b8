import LockBench.Proofs.Toml.Quoting

/-!
# Documents are written as the grammar has it

Everything that is written ends where the grammar says, whatever follows it.
So a document is derived back to front: from what follows a line, by what the
line states.
-/

namespace LockBench
namespace Toml

open Grammar

/-! ## Values -/

/-- A positive number starts with no zero. -/
theorem head?_toDigits_ne
    {value : Nat}
    (positive : 0 < value) : (Nat.toDigits 10 value).head? ≠ some '0' := by
  induction value using Nat.strongRecOn with
  | ind value inductionHypothesis =>
      by_cases small : value < 10
      · have digits : ∀ value < 10, 0 < value -> value.digitChar ≠ '0' := by
          decide
        simpa [Nat.toDigits_of_lt_base small] using digits value small positive
      · have leading := inductionHypothesis (value / 10) (by omega) (by omega)
        rw [Nat.toDigits_of_base_le (by decide) (by omega)]
        cases digits : Nat.toDigits 10 (value / 10) with
        | nil => exact absurd digits Nat.toDigits_ne_nil
        | cons first others =>
            rw [digits] at leading
            simpa using leading

theorem count_toString
    (value : Nat)
    (rest : List Char) : Count ((toString value).toList ++ rest) value rest := by
  have noZero : Nat.toDigits 10 value = ['0'] ∨
      (Nat.toDigits 10 value).head? ≠ some '0' := by
    rcases Nat.eq_zero_or_pos value with rfl | positive
    · exact .inl (Nat.toDigits_zero 10)
    · exact .inr (head?_toDigits_ne positive)
  have areDigits : ∀ c ∈ Nat.toDigits 10 value, c.isDigit = true :=
    fun c member => Nat.isDigit_of_mem_toDigits (by decide) (by decide) member
  have count := Count.digits Nat.toDigits_ne_nil areDigits noZero rest
  rw [Nat.ofDigitChars_ten_toDigits] at count
  rwa [Nat.toString_eq_ofList_toDigits, String.toList_ofList]

theorem breaks_trans
    {before middle after : List Char}
    (first : Breaks before middle)
    (others : Breaks middle after) : Breaks before after := by
  induction first with
  | none rest => exact others
  | space isSpace breaks inductionHypothesis =>
      exact .space isSpace (inductionHypothesis others)
  | lineEnd ends breaks inductionHypothesis =>
      exact .lineEnd ends (inductionHypothesis others)

/-- What separates items may stand before the first one. -/
theorem items_of_breaks
    {before middle after : List Char}
    {values : List Value}
    (breaks : Breaks before middle)
    (items : Items middle values after) : Items before values after := by
  cases items with
  | close closing => exact .close (breaks_trans breaks closing)
  | last others item closing =>
      exact .last (breaks_trans breaks others) item closing
  | item others item comma rest =>
      exact .item (breaks_trans breaks others) item comma rest

theorem breaks_space (rest : List Char) : Breaks (' ' :: rest) rest :=
  .space (.inl rfl) (.none rest)

theorem breaks_lineFeed (rest : List Char) : Breaks ('\n' :: rest) rest :=
  .lineEnd (.lineFeed rest) (.none rest)

theorem scalar_writeString
    (text : String)
    (rest : List Char) :
    Scalar ((writeString text).toList ++ rest) (.text text) rest := by
  have scalar := Scalar.text (text_writeString text rest)
  rwa [String.ofList_toList] at scalar

theorem items_compact
    (items : List String)
    (rest : List Char) :
    Items ((", ".intercalate (items.map writeString)).toList ++ ']' :: rest)
      (items.map .text) rest := by
  induction items with
  | nil => exact .close (.none _)
  | cons item others inductionHypothesis =>
      cases others with
      | nil =>
          exact .last (.none _) (scalar_writeString item _) (.none _)
      | cons next others =>
          have comma := items_of_breaks (breaks_space _) inductionHypothesis
          have written := Items.item (.none _) (scalar_writeString item _)
            (.none _) comma
          simpa [String.intercalate_cons_cons] using written

/-- Items of which each has a line of its own. -/
theorem items_pretty
    (items : List String)
    (rest : List Char) :
    Items
      ((String.join (items.map fun item =>
        "    " ++ writeString item ++ ",\n")).toList ++ ']' :: rest)
      (items.map .text) rest := by
  induction items with
  | nil => exact .close (.none _)
  | cons item others inductionHypothesis =>
      have following := items_of_breaks (breaks_lineFeed _) inductionHypothesis
      have written := Items.item (.none _) (scalar_writeString item _) (.none _)
        following
      have indented := items_of_breaks
        (breaks_trans (breaks_space _) (breaks_trans (breaks_space _)
          (breaks_trans (breaks_space _) (breaks_space _)))) written
      simpa [String.join_cons] using indented

theorem val_writeStrings
    (layout : Layout)
    (items : List String)
    (rest : List Char) :
    Val ((writeStrings layout items).toList ++ rest)
      (.array (items.map .text)) rest := by
  rw [writeStrings.eq_def]
  split
  · rename_i first second others
    have lines := items_of_breaks (breaks_lineFeed _)
      (items_pretty (first :: second :: others) rest)
    simpa using Val.array lines
  · simpa using Val.array (items_compact items rest)

theorem val_write
    (layout : Layout)
    (plain : Plain)
    (rest : List Char) :
    Val ((plain.write layout).toList ++ rest) plain.toValue rest := by
  cases plain with
  | text value => exact .scalar (scalar_writeString value rest)
  | count value => exact .scalar (.integer (count_toString value rest))
  | texts items => exact val_writeStrings layout items rest

/-! ## Documents -/

/-- A name that may stand without quotes. -/
def IsBareName (name : String) : Prop :=
  name.toList ≠ [] ∧ ∀ c ∈ name.toList, IsKeyCharacter c

instance : DecidablePred IsKeyCharacter := fun _ =>
  inferInstanceAs (Decidable (_ ∨ _))

instance : DecidablePred IsBareName := fun name =>
  decidable_of_iff
    (name.toList ≠ [] ∧ name.toList.all (fun c => IsKeyCharacter c) = true)
    (by simp [IsBareName])

/-- A table whose name and keys need no quotes. -/
structure PlainTable.IsBare (table : PlainTable) : Prop where
  /-- The name is bare, if there is one. -/
  name : ∀ name ∈ table.name, IsBareName name
  /-- So are the keys. -/
  keys : ∀ entry ∈ table.entries, IsBareName entry.1

theorem key_append
    {name : String}
    (isBare : IsBareName name)
    (rest : List Char) : Key (name.toList ++ rest) name rest := by
  have key := Key.bare isBare.1 isBare.2 rest
  rwa [String.ofList_toList] at key

theorem document_nil : Document [] [] :=
  .last (.blank (.none []))

theorem document_blank
    {rest : List Char}
    {statements : List Statement}
    (document : Document rest statements) :
    Document ('\n' :: rest) statements :=
  .more (.blank (.none _)) (.lineFeed rest) document

theorem document_line
    {before rest : List Char}
    {statement : Statement}
    {statements : List Statement}
    (stated : Stated before statement ('\n' :: rest))
    (document : Document rest statements) :
    Document before (statement :: statements) :=
  .more (.stated (.none _) stated (.none _)) (.lineFeed rest) document

theorem document_writeEntries
    (layout : Layout)
    {entries : List (String × Plain)}
    (areBare : ∀ entry ∈ entries, IsBareName entry.1)
    {rest : List Char}
    {statements : List Statement}
    (document : Document rest statements) :
    Document
      ((String.join (entries.map fun (key, value) =>
        key ++ " = " ++ value.write layout ++ "\n")).toList ++ rest)
      ((entries.map fun (key, value) => .assign [key] value.toValue) ++
        statements) := by
  induction entries with
  | nil => simpa using document
  | cons entry others inductionHypothesis =>
      obtain ⟨key, value⟩ := entry
      have others := inductionHypothesis fun entry member =>
        areBare entry (List.mem_cons_of_mem _ member)
      have isBare : IsBareName key := areBare (key, value) List.mem_cons_self
      have line := document_line
        (.assign (key_append isBare _) (.more (.inl rfl) (.none _))
          (.more (.inl rfl) (.none _)) (val_write layout value _)) others
      simpa [String.join_cons] using line

theorem document_writeTable
    (layout : Layout)
    {table : PlainTable}
    (isBare : table.IsBare)
    {rest : List Char}
    {statements : List Statement}
    (document : Document rest statements) :
    Document ((table.write layout).toList ++ rest)
      (table.statements ++ statements) := by
  have entries := document_writeEntries layout isBare.keys document
  rw [PlainTable.write, PlainTable.statements, PlainTable.writeEntries]
  cases named : table.name with
  | none => simpa using entries
  | some name =>
      have header := document_line
        (.table (.none _) (key_append (isBare.name name named) _) (.none _))
        entries
      simpa using header

/-- A table of which nothing is written states nothing. -/
theorem statements_eq_nil
    {layout : Layout}
    {table : PlainTable}
    (isEmpty : table.write layout = "") : table.statements = [] := by
  have noCharacter := congrArg String.toList isEmpty
  rw [PlainTable.write, PlainTable.writeEntries] at noCharacter
  rw [PlainTable.statements]
  cases named : table.name with
  | some name => simp [named] at noCharacter
  | none =>
      cases stated : table.entries with
      | nil => rfl
      | cons entry others => simp [named, stated, String.join_cons] at noCharacter

/-- What is written is a document with the statements of the tables. -/
theorem document_writeDocument
    (layout : Layout)
    {tables : List PlainTable}
    (areBare : ∀ table ∈ tables, table.IsBare) :
    Document (writeDocument layout tables).toList
      (tables.flatMap PlainTable.statements) := by
  rw [writeDocument]
  induction tables with
  | nil => exact document_nil
  | cons table others inductionHypothesis =>
      have isBare := areBare table List.mem_cons_self
      have document := inductionHypothesis fun table member =>
        areBare table (List.mem_cons_of_mem _ member)
      by_cases isEmpty : table.write layout = ""
      · simpa [isEmpty, statements_eq_nil isEmpty] using document
      · by_cases isLast :
            (others.map (·.write layout)).filter (· ≠ "") = []
        · have written := document_writeTable layout isBare document
          rw [isLast] at written
          rw [List.map_cons, List.filter_cons_of_pos (by simpa using isEmpty),
            isLast, String.intercalate_singleton]
          simpa using written
        · have written := document_writeTable layout isBare
            (document_blank document)
          rw [List.map_cons, List.filter_cons_of_pos (by simpa using isEmpty),
            String.intercalate_cons_of_ne_nil isLast]
          simpa using written

end Toml
end LockBench
