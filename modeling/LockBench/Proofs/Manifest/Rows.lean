import LockBench.Manifest.Pipfile
import Mathlib.Data.List.TakeWhile
import Mathlib.Tactic.SplitIfs

/-!
# Rows of a Pipfile

A row is what stands between two line feeds, without the blanks at either end.
Every row is in the section of the nearest header before it, so to scan some
rows after others is to go on from the section that is open there.  Rows that
are empty or a comment can be left out.
-/

namespace LockBench

/-! ## Marks and blanks -/

namespace Text

section Mark

variable {mark : Char} {front : List Char} (noMark : mark ∉ front)

include noMark

/-- A text without a mark stands in front of the mark as a whole. -/
theorem takeWhile_ne_eq_self : front.takeWhile (· ≠ mark) = front := by
  rw [List.takeWhile_eq_self_iff]
  intro c present
  rw [decide_eq_true_eq]
  rintro rfl
  exact noMark present

/-- What stands in front of the first mark ends there. -/
theorem takeWhile_ne_append (rest : List Char) :
    (front ++ mark :: rest).takeWhile (· ≠ mark) = front := by
  rw [List.takeWhile_append_of_pos
      (List.takeWhile_eq_self_iff.mp (takeWhile_ne_eq_self noMark)),
    List.takeWhile_cons_of_neg (by simp), List.append_nil]

end Mark

/-- A blank in front is trimmed. -/
theorem trimBlank_cons
    {c : Char}
    (blank : isBlank c = true)
    (line : List Char) : trimBlank (c :: line) = trimBlank line := by
  simp [trimBlank, dropBlank, blank]

/-- A blank at the end is trimmed. -/
theorem trimBlank_concat
    {c : Char}
    (blank : isBlank c = true)
    (line : List Char) : trimBlank (line ++ [c]) = trimBlank line := by
  have dropped : (line ++ [c]).dropWhile isBlank =
      if (line.dropWhile isBlank).isEmpty then [c].dropWhile isBlank
      else line.dropWhile isBlank ++ [c] := List.dropWhile_append
  cases kept : line.dropWhile isBlank with
  | nil => simp [trimBlank, dropBlank, dropped, kept, blank]
  | cons first others => simp [trimBlank, dropBlank, dropped, kept, blank]

end Text

/-! ## Sections -/

/-- The header that opens a section. -/
def Section.header : Section -> List Char
  | .packages => "[packages]".toList
  | .devPackages => "[dev-packages]".toList

/-- A section is opened by its header alone. -/
theorem Section.ofHeader?_eq_some_iff
    {line : List Char}
    {here : Section} :
    ofHeader? line = some here ↔ line = here.header := by
  have apart : header .packages ≠ header .devPackages := by decide
  have opened : ofHeader? line =
      if line = header .packages then some .packages
      else if line = header .devPackages then some .devPackages
      else none := rfl
  rw [opened]
  cases here <;> split_ifs <;> simp_all

namespace Pipfile

/-- The requirements of a section. -/
def requirements (pipfile : Pipfile) : Section -> List Requirement
  | .packages => pipfile.packages
  | .devPackages => pipfile.devPackages

/-- The requirements of one Pipfile and then those of another, in either
section. -/
instance : Append Pipfile where
  append first second :=
    ⟨first.packages ++ second.packages, first.devPackages ++ second.devPackages⟩

@[simp] theorem packages_append (first second : Pipfile) :
    (first ++ second).packages = first.packages ++ second.packages := rfl

@[simp] theorem devPackages_append (first second : Pipfile) :
    (first ++ second).devPackages =
      first.devPackages ++ second.devPackages := rfl

@[simp] theorem requirements_append
    (first second : Pipfile)
    (here : Section) :
    (first ++ second).requirements here =
      first.requirements here ++ second.requirements here := by
  cases here <;> rfl

@[simp] theorem requirements_empty (here : Section) :
    requirements {} here = [] := by
  cases here <;> rfl

@[simp] theorem empty_append (pipfile : Pipfile) :
    ({} : Pipfile) ++ pipfile = pipfile := rfl

theorem append_assoc (first second third : Pipfile) :
    first ++ second ++ third = first ++ (second ++ third) :=
  Pipfile.mk.injEq .. |>.mpr ⟨List.append_assoc .., List.append_assoc ..⟩

@[simp] theorem cons_append
    (requirement : Requirement)
    (first second : Pipfile)
    (here : Section) :
    cons requirement first here ++ second =
      cons requirement (first ++ second) here := by
  cases here <;> rfl

theorem requirements_cons
    (requirement : Requirement)
    (pipfile : Pipfile)
    (here other : Section) :
    (cons requirement pipfile here).requirements other =
      if here = other then requirement :: pipfile.requirements other
      else pipfile.requirements other := by
  cases here <;> cases other <;> rfl

/-! ## Kinds of rows -/

/-- Whether a row opens a section. -/
def isHeader (row : List Char) : Bool :=
  row.head? = some '['

/-- Whether a row says nothing: it is empty, or a comment. -/
def isIdle (row : List Char) : Bool :=
  row.isEmpty || row.head? = some '#'

/-- A row that says nothing opens no section. -/
theorem isHeader_of_isIdle
    {row : List Char}
    (idle : isIdle row = true) : isHeader row = false := by
  cases row with
  | nil => rfl
  | cons c rest =>
      obtain rfl : c = '#' := by simpa [isIdle] using idle
      simp [isHeader]

/-- The last header among some rows. -/
def nearestHeader? (rows : List (List Char)) : Option (List Char) :=
  (rows.filter isHeader).getLast?

/-- The section that is open after some rows. -/
def sectionAfter
    (current : Option Section)
    (rows : List (List Char)) : Option Section :=
  (nearestHeader? rows).elim current Section.ofHeader?

@[simp] theorem sectionAfter_nil (current : Option Section) :
    sectionAfter current [] = current := rfl

theorem sectionAfter_append
    (current : Option Section)
    (left right : List (List Char)) :
    sectionAfter current (left ++ right) =
      sectionAfter (sectionAfter current left) right := by
  rw [sectionAfter, nearestHeader?, List.filter_append, List.getLast?_append]
  cases nearest : (right.filter isHeader).getLast? <;>
    simp [sectionAfter, nearestHeader?, nearest]

theorem sectionAfter_singleton_of_isHeader
    (current : Option Section)
    {row : List Char}
    (header : isHeader row = true) :
    sectionAfter current [row] = Section.ofHeader? row := by
  simp [sectionAfter, nearestHeader?, header]

theorem sectionAfter_singleton_of_not_isHeader
    (current : Option Section)
    {row : List Char}
    (noHeader : isHeader row = false) :
    sectionAfter current [row] = current := by
  simp [sectionAfter, nearestHeader?, noHeader]

/-- Outside of everything a section is open after its header alone. -/
theorem sectionAfter_none_eq_some_iff
    {rows : List (List Char)}
    {here : Section} :
    sectionAfter none rows = some here ↔
      nearestHeader? rows = some here.header := by
  cases nearest : nearestHeader? rows <;>
    simp [sectionAfter, nearest, Section.ofHeader?_eq_some_iff]

/-! ## Scanning one row -/

/-- Whether a row may declare a requirement. -/
def isPlain (row : List Char) : Bool :=
  !isHeader row && !isIdle row

theorem ofTrimmed_cons_of_isHeader
    (current : Option Section)
    {row : List Char}
    (header : isHeader row = true)
    (rest : List (List Char)) :
    ofTrimmed current (row :: rest) =
      ofTrimmed (Section.ofHeader? row) rest := by
  have opens : row.head? = some '[' := by simpa [isHeader] using header
  rw [ofTrimmed.eq_def]
  simp only [opens, if_true]

theorem ofTrimmed_cons_of_isIdle
    (current : Option Section)
    {row : List Char}
    (idle : isIdle row = true)
    (rest : List (List Char)) :
    ofTrimmed current (row :: rest) = ofTrimmed current rest := by
  have noHeader : row.head? ≠ some '[' := by
    simpa [isHeader] using isHeader_of_isIdle idle
  rw [isIdle] at idle
  cases current <;> simp [ofTrimmed, noHeader, idle]

theorem ofTrimmed_none_cons
    {row : List Char}
    (plain : isPlain row = true)
    (rest : List (List Char)) :
    ofTrimmed none (row :: rest) = ofTrimmed none rest := by
  have noHeader : row.head? ≠ some '[' := by
    simp_all [isPlain, isHeader]
  rw [ofTrimmed, if_neg noHeader]

theorem ofTrimmed_some_cons
    (here : Section)
    {row : List Char}
    (plain : isPlain row = true)
    (rest : List (List Char)) :
    ofTrimmed (some here) (row :: rest) =
      (requirement? row).elim (ofTrimmed (some here) rest) fun requirement =>
        cons requirement (ofTrimmed (some here) rest) here := by
  obtain ⟨noHeader, notIdle⟩ : isHeader row = false ∧ isIdle row = false := by
    simpa [isPlain] using plain
  have notOpening : row.head? ≠ some '[' := by simpa [isHeader] using noHeader
  rw [isIdle] at notIdle
  rw [ofTrimmed, if_neg notOpening]
  cases requirement? row <;> simp [notIdle]

/-- Rows are headers, idle or plain. -/
theorem isHeader_or_isIdle_or_isPlain (row : List Char) :
    isHeader row = true ∨ isIdle row = true ∨ isPlain row = true := by
  cases header : isHeader row <;> cases idle : isIdle row <;>
    simp [isPlain, header, idle]

/-! ## Scanning rows after others -/

/-- What a row adds stands in front of what the rows after it add. -/
theorem ofTrimmed_cons
    (current : Option Section)
    (row : List Char)
    (rest : List (List Char)) :
    ofTrimmed current (row :: rest) =
      ofTrimmed current [row] ++
        ofTrimmed (sectionAfter current [row]) rest := by
  rcases isHeader_or_isIdle_or_isPlain row with header | idle | plain
  · rw [sectionAfter_singleton_of_isHeader current header,
      ofTrimmed_cons_of_isHeader current header,
      ofTrimmed_cons_of_isHeader current header, ofTrimmed_nil, empty_append]
  · have noHeader := isHeader_of_isIdle idle
    rw [sectionAfter_singleton_of_not_isHeader current noHeader,
      ofTrimmed_cons_of_isIdle current idle,
      ofTrimmed_cons_of_isIdle current idle, ofTrimmed_nil, empty_append]
  · have noHeader : isHeader row = false := by
      simp_all [isPlain]
    rw [sectionAfter_singleton_of_not_isHeader current noHeader]
    cases current with
    | none =>
        rw [ofTrimmed_none_cons plain, ofTrimmed_none_cons plain,
          ofTrimmed_nil, empty_append]
    | some here =>
        rw [ofTrimmed_some_cons here plain, ofTrimmed_some_cons here plain]
        cases requirement? row <;> simp

/-- Rows after others are scanned from the section that these leave open. -/
theorem ofTrimmed_append
    (current : Option Section)
    (left right : List (List Char)) :
    ofTrimmed current (left ++ right) =
      ofTrimmed current left ++
        ofTrimmed (sectionAfter current left) right := by
  induction left generalizing current with
  | nil => simp
  | cons row rest inductionHypothesis =>
      have later : sectionAfter current (row :: rest) =
          sectionAfter (sectionAfter current [row]) rest :=
        sectionAfter_append current [row] rest
      rw [List.cons_append, ofTrimmed_cons, inductionHypothesis,
        ofTrimmed_cons current row rest, later, append_assoc]

/-- Rows that say nothing can be left out. -/
theorem ofTrimmed_filter
    (current : Option Section)
    (rows : List (List Char)) :
    ofTrimmed current (rows.filter fun row => !isIdle row) =
      ofTrimmed current rows := by
  induction rows generalizing current with
  | nil => rfl
  | cons row rest inductionHypothesis =>
      cases idle : isIdle row with
      | true =>
          rw [List.filter_cons_of_neg (by simp [idle]), inductionHypothesis,
            ofTrimmed_cons_of_isIdle current idle]
      | false =>
          rw [List.filter_cons_of_pos (by simp [idle]), ofTrimmed_cons,
            inductionHypothesis, ← ofTrimmed_cons]

/-! ## Rows of a text -/

/-- The rows of a text. -/
def rows (text : List Char) : List (List Char) :=
  (text.splitOn '\n').map Text.trimBlank

/-- A line feed ends a row. -/
theorem rows_append
    (before after : List Char) :
    rows (before ++ '\n' :: after) = rows before ++ rows after := by
  rw [rows, List.splitOn, List.splitOnP_append_cons before after (by simp),
    List.map_append]
  rfl

/-- A text without line feeds is one row. -/
theorem rows_of_not_mem
    {line : List Char}
    (noEnd : '\n' ∉ line) : rows line = [Text.trimBlank line] := by
  rw [rows]
  have whole : (['\n'].intercalate [line]).splitOn '\n' = [line] :=
    List.splitOn_intercalate '\n' (by simpa using noEnd) (by simp)
  rw [List.intercalate_singleton] at whole
  rw [whole, List.map_singleton]

/-- The carriage return of a line end is trimmed with the blanks. -/
theorem trimBlank_dropReturn (line : List Char) :
    Text.trimBlank (Text.dropReturn line) = Text.trimBlank line := by
  rw [Text.dropReturn]
  split_ifs with ends
  · obtain ⟨front, rfl⟩ := List.getLast?_eq_some_iff.mp ends
    rw [List.dropLast_concat, Text.trimBlank_concat (by decide)]
  · rfl

/-- The rows that say something are those of the lines, given the characters
of the current line in reverse. -/
theorem filter_linesFrom
    {current : List Char}
    (noEnd : '\n' ∉ current)
    (rest : List Char) :
    ((Text.linesFrom current rest).map Text.trimBlank).filter
        (fun row => !isIdle row) =
      (rows (current.reverse ++ rest)).filter fun row => !isIdle row := by
  induction rest generalizing current with
  | nil =>
      rw [List.append_nil, rows_of_not_mem (by simpa using noEnd)]
      cases current <;> simp [Text.linesFrom, isIdle]
  | cons c rest inductionHypothesis =>
      by_cases ends : c = '\n'
      · subst ends
        have later : ((Text.linesFrom [] rest).map Text.trimBlank).filter
              (fun row => !isIdle row) =
            (rows rest).filter fun row => !isIdle row :=
          inductionHypothesis (List.not_mem_nil)
        rw [rows_append, rows_of_not_mem (by simpa using noEnd), Text.linesFrom,
          List.map_cons, trimBlank_dropReturn, List.filter_append, ← later,
          ← List.filter_append, List.singleton_append]
      · have noEndYet : '\n' ∉ c :: current := by simp [noEnd, Ne.symm ends]
        simpa [Text.linesFrom, ends] using inductionHypothesis noEndYet

/-- A Pipfile is what its rows declare, outside of every section at first. -/
theorem ofText_eq (text : String) :
    ofText text = ofTrimmed none (rows text.toList) := by
  have same := filter_linesFrom List.not_mem_nil text.toList
  rw [ofText, Text.lines, ← ofTrimmed_filter, same, ofTrimmed_filter]
  rfl

end Pipfile
end LockBench
