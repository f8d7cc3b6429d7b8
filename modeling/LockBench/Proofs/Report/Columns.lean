import LockBench.Report
import Mathlib.Data.List.Forall2
import Mathlib.Data.String.Basic

/-!
# Columns of a report

The column of the names is as wide as the longest of them is in bytes, but it
is filled up by characters.  Since a text has no more characters than bytes,
every name fits, and all timings of a report begin at the same offset.
-/

namespace LockBench
namespace Report

/-! ## What a report should look like -/

/-- The names of all commands, in order. -/
def commandNames (tables : List TimingTable) : List String :=
  tables.flatMap fun table => table.entries.map Timing.command

/-- A width is the greatest length of a command's name, in bytes. -/
structure IsWidest
    (tables : List TimingTable)
    (width : Nat) : Prop where
  /-- No name is longer. -/
  holdsAll : ∀ name ∈ commandNames tables, name.utf8ByteSize ≤ width
  /-- Some name is as long, if there is any. -/
  attained : commandNames tables ≠ [] ->
    ∃ name ∈ commandNames tables, name.utf8ByteSize = width

/-- A part stands in a row from an offset on, counted in characters. -/
def StandsAt
    (row : String)
    (offset : Nat)
    (part : String) : Prop :=
  ∃ front back, row = front ++ part ++ back ∧ front.length = offset

/-- A text of some spaces. -/
def blanks (count : Nat) : String :=
  String.ofList (List.replicate count ' ')

/-- A text of some bar characters. -/
def blocks (count : Nat) : String :=
  String.ofList (List.replicate count '█')

/-- A row shows a command's name, its timing and a bar, with the timing in a
column of its own. -/
structure IsRow
    (width : Nat)
    (entry : Timing)
    (row : String) : Prop where
  /-- The name stands after the margin, in full. -/
  name_at : StandsAt row 2 entry.command
  /-- The timing stands in its column, whatever the name is. -/
  timing_at : StandsAt row (4 + width) (timingText entry)
  /-- There are only spaces between them, two at least, and only a bar comes
  after them. -/
  parts_eq : ∃ gap bar, 2 + entry.command.length + gap = 4 + width ∧ 2 ≤ gap ∧
    1 ≤ bar ∧
    row = "  " ++ entry.command ++ blanks gap ++ timingText entry ++ "  " ++
      blocks bar ++ "\n"

/-- A text is the table of an operation: the line of its name, a row for every
entry in order, and an empty line. -/
def IsTable
    (width : Nat)
    (table : TimingTable)
    (text : String) : Prop :=
  ∃ rows, List.Forall₂ (IsRow width) table.entries rows ∧
    text = table.operation ++ "\n" ++ String.join rows ++ "\n"

/-- A text is the report of some tables: one after another, in order. -/
def IsReport
    (width : Nat)
    (tables : List TimingTable)
    (text : String) : Prop :=
  ∃ texts, List.Forall₂ (IsTable width) tables texts ∧
    text = String.join texts

/-! ## The width of the names -/

/-- Every character takes a byte at least. -/
theorem length_le_utf8ByteSize (text : String) :
    text.length ≤ text.utf8ByteSize := by
  rw [← String.length_toList, ← String.utf8Len_toList]
  induction text.toList with
  | nil => rfl
  | cons c rest inductionHypothesis =>
      rw [List.length_cons, String.utf8Len_cons]
      exact Nat.add_le_add inductionHypothesis c.utf8Size_pos

theorem nameWidth_eq (tables : List TimingTable) :
    nameWidth tables =
      ((commandNames tables).map String.utf8ByteSize).foldl max 0 := by
  simp only [nameWidth, commandNames, List.map_flatMap, List.map_map]
  rfl

theorem isWidest_nameWidth (tables : List TimingTable) :
    IsWidest tables (nameWidth tables) := by
  have greatest : (0 :: (commandNames tables).map String.utf8ByteSize).max? =
      some (nameWidth tables) := by
    rw [nameWidth_eq, List.max?_cons']
  obtain ⟨isLength, isBound⟩ := List.max?_eq_some_iff.mp greatest
  have holdsAll : ∀ name ∈ commandNames tables,
      name.utf8ByteSize ≤ nameWidth tables := fun name member =>
    isBound _ (List.mem_cons_of_mem 0 (List.mem_map_of_mem member))
  refine ⟨holdsAll, fun someName => ?_⟩
  rcases List.mem_cons.mp isLength with isZero | isName
  · -- Where all names are empty, any of them is as long as the longest.
    obtain ⟨name, member⟩ := List.exists_mem_of_ne_nil _ someName
    have bounded := holdsAll name member
    exact ⟨name, member, by omega⟩
  · exact List.mem_map.mp isName

/-! ## Rows -/

/-- Without colours, a row is made of its parts. -/
theorem row_eq
    (width : Nat)
    (slowest : Float)
    (entry : Timing) :
    row false width slowest entry =
      "  " ++ entry.command ++ blanks (width - entry.command.length + 2) ++
        timingText entry ++ "  " ++ blocks (barLength slowest entry.mean) ++
          "\n" := by
  have gap_eq : blanks (width - entry.command.length + 2) =
      String.ofList (List.replicate (width - entry.command.length) ' ') ++
        "  " := by
    rw [blanks, List.replicate_add, String.ofList_append]
    rfl
  simp only [row, padRight, bar, Style.paint_false, blocks, gap_eq,
    String.append_assoc]

theorem barLength_pos (slowest mean : Float) : 1 ≤ barLength slowest mean := by
  rw [barLength]
  split
  · exact Nat.le_max_left _ _
  · exact Nat.le_refl 1

/-- Where a name fits, the timing of its row begins behind the column of the
names. -/
theorem isRow_row
    {width : Nat}
    (slowest : Float)
    {entry : Timing}
    (fits : entry.command.utf8ByteSize ≤ width) :
    IsRow width entry (row false width slowest entry) := by
  have length_le := (length_le_utf8ByteSize entry.command).trans fits
  refine ⟨?_, ?_, _, _, ?_, Nat.le_add_left 2 _,
    barLength_pos slowest entry.mean, row_eq width slowest entry⟩
  · rw [row_eq]
    simp only [String.append_assoc]
    exact ⟨"  ", _, String.append_assoc.symm, rfl⟩
  · rw [row_eq]
    refine ⟨"  " ++ entry.command ++ blanks (width - entry.command.length + 2),
      _, by simp only [String.append_assoc]; rfl, ?_⟩
    have margin : "  ".length = 2 := rfl
    simp only [String.length_append, blanks, String.length_ofList,
      List.length_replicate, margin]
    omega
  · omega

/-- Where all names of a table fit, its rows are as they should be. -/
theorem isTable_tableText
    {width : Nat}
    (slowest : Float)
    {table : TimingTable}
    (fits : ∀ entry ∈ table.entries, entry.command.utf8ByteSize ≤ width) :
    IsTable width table (tableText false width slowest table) := by
  refine ⟨table.entries.map (row false width slowest), ?_, rfl⟩
  rw [List.forall₂_map_right_iff, List.forall₂_same]
  exact fun entry member => isRow_row slowest (fits entry member)

/-! ## The report as a whole -/

/-- Without colours a report is made of a table for every operation, in order
and with nothing else.  In all rows of all tables the timings begin at the same
offset, which the length of the longest name in bytes decides. -/
theorem timings_line_up (tables : List TimingTable) :
    IsWidest tables (nameWidth tables) ∧
      IsReport (nameWidth tables) tables (render false tables) := by
  have widest := isWidest_nameWidth tables
  refine ⟨widest, tables.map (tableText false (nameWidth tables)
    (slowest tables)), ?_, rfl⟩
  rw [List.forall₂_map_right_iff, List.forall₂_same]
  intro table isTable
  refine isTable_tableText _ fun entry isEntry => widest.holdsAll _ ?_
  exact List.mem_flatMap.mpr ⟨table, isTable, List.mem_map_of_mem isEntry⟩

/-- A name of two bytes takes one place of a column that two characters
share. -/
example : padRight (nameWidth [⟨"lock-cold", [⟨"é", 0, none⟩]⟩,
    ⟨"sync-cold", [⟨"a", 0, none⟩]⟩]) "é" = "é " := by decide

end Report
end LockBench
