import LockBench.Proofs.Manifest.Rows
import Mathlib.Data.List.Forall2
import Mathlib.Data.List.Induction

/-!
# Entries of a Pipfile

A row is an entry if it can be written as a name, an equals sign and a value
between double quotes.  It may be possible to write it so in several ways; the
longest name counts, and with a name the value is given.  A Pipfile requires,
row by row, what the entries of its dependency sections say.
-/

namespace LockBench
namespace Pipfile

/-! ## How entries are written -/

/-- A text goes on with an equals sign and a value between double quotes, with
blanks around the sign and anything after the second quote. -/
def Assigns
    (text value : List Char) : Prop :=
  ∃ before after rest,
    text = before ++ '=' :: (after ++ '\x22' :: (value ++ '\x22' :: rest)) ∧
      (∀ c ∈ before, Text.isBlank c = true) ∧
      (∀ c ∈ after, Text.isBlank c = true) ∧ '\x22' ∉ value

/-- A row can be written as a name without blanks that a value is assigned
to. -/
structure Written (row name value : List Char) : Prop where
  /-- The name is not empty. -/
  someLetter : name ≠ []
  /-- The name has no blanks. -/
  noBlank : ∀ c ∈ name, Text.isBlank c = false
  /-- The value is assigned right after the name. -/
  assigned : ∃ text, row = name ++ text ∧ Assigns text value

/-- The one way to write a row that counts: the longest name and its value. -/
structure IsEntry (row name value : List Char) : Prop where
  /-- The row can be written so. -/
  written : Written row name value
  /-- No other name is longer. -/
  longest : ∀ other shown, Written row other shown ->
    other.length ≤ name.length
  /-- No other value goes with the name. -/
  only : ∀ shown, Written row name shown -> shown = value

/-- The requirement of a name and a value; an asterisk is no constraint. -/
def declared
    (name value : List Char) : Requirement :=
  ⟨String.ofList name,
    if value = ['*'] then none else some (String.ofList value)⟩

/-! ## Values -/

theorem dropBlank_append
    {blanks : List Char}
    (areBlank : ∀ c ∈ blanks, Text.isBlank c = true)
    {c : Char}
    (notBlank : Text.isBlank c = false)
    (rest : List Char) :
    Text.dropBlank (blanks ++ c :: rest) = c :: rest := by
  rw [Text.dropBlank, List.dropWhile_append_of_pos areBlank,
    List.dropWhile_cons_of_neg (by simp [notBlank])]

/-- The characters in front of the first that is no blank are blanks. -/
theorem eq_blanks_append
    {text rest : List Char}
    (dropped : Text.dropBlank text = rest) :
    ∃ blanks, text = blanks ++ rest ∧
      ∀ c ∈ blanks, Text.isBlank c = true := by
  refine ⟨text.takeWhile Text.isBlank, ?_, fun c => List.mem_takeWhile_imp⟩
  rw [← dropped, Text.dropBlank, List.takeWhile_append_dropWhile]

/-- A value is found exactly where one is assigned. -/
theorem value?_eq_some_iff
    {text value : List Char} :
    value? text = some value ↔ Assigns text value := by
  constructor
  · intro found
    unfold value? at found
    split at found
    case h_2 => cases found
    case h_1 afterSign sign =>
      split at found
      case h_2 => cases found
      case h_1 quoted opened =>
        split_ifs at found with closed
        obtain ⟨before, text_eq, blankBefore⟩ := eq_blanks_append sign
        obtain ⟨after, afterSign_eq, blankAfter⟩ := eq_blanks_append opened
        obtain ⟨shown, rest, quoted_eq, noQuote⟩ :=
          List.eq_append_cons_of_mem closed
        rw [quoted_eq, Text.takeWhile_ne_append noQuote] at found
        obtain rfl : shown = value := Option.some.inj found
        exact ⟨before, after, rest, by rw [text_eq, afterSign_eq, quoted_eq],
          blankBefore, blankAfter, noQuote⟩
  · rintro ⟨before, after, rest, rfl, blankBefore, blankAfter, noQuote⟩
    have sign := dropBlank_append blankBefore (c := '=') (by decide)
    have opened := dropBlank_append blankAfter (c := '\x22') (by decide)
    simp only [value?, sign, opened, Text.takeWhile_ne_append noQuote]
    rw [if_pos (by simp)]

/-- Only one value is assigned. -/
theorem Assigns.unique
    {text value other : List Char}
    (assigns : Assigns text value)
    (assignsOther : Assigns text other) : other = value :=
  Option.some.inj ((value?_eq_some_iff.mpr assignsOther).symm.trans
    (value?_eq_some_iff.mpr assigns))

/-! ## Names -/

/-- A name of one character more is written one character further on, unless
it was empty. -/
theorem written_cons_iff
    {c : Char}
    {rest name value : List Char} :
    Written (c :: rest) (c :: name) value ↔
      Text.isBlank c = false ∧
        (name = [] ∧ Assigns rest value ∨ Written rest name value) := by
  constructor
  · rintro ⟨-, noBlank, text, row_eq, assigned⟩
    obtain rfl : rest = name ++ text := List.tail_eq_of_cons_eq row_eq
    refine ⟨noBlank c List.mem_cons_self, ?_⟩
    by_cases empty : name = []
    · subst empty
      exact .inl ⟨rfl, assigned⟩
    · exact .inr ⟨empty, fun other present =>
        noBlank other (List.mem_cons_of_mem _ present), text, rfl, assigned⟩
  · rintro ⟨notBlank, ⟨rfl, assigned⟩ | written⟩
    · exact ⟨List.cons_ne_nil c [], by simpa using notBlank, rest, rfl,
        assigned⟩
    · obtain ⟨text, rfl, assigned⟩ := written.assigned
      refine ⟨List.cons_ne_nil c name, ?_, text, rfl, assigned⟩
      intro other present
      rcases List.mem_cons.mp present with rfl | later
      · exact notBlank
      · exact written.noBlank other later

/-- A name starts where its row starts. -/
theorem Written.exists_cons
    {row name value : List Char}
    (written : Written row name value) :
    ∃ c rest others, row = c :: rest ∧ name = c :: others := by
  obtain ⟨text, rfl, -⟩ := written.assigned
  obtain ⟨c, others, rfl⟩ := List.exists_cons_of_ne_nil written.someLetter
  exact ⟨c, others ++ text, others, rfl, rfl⟩

/-- An entry has one character more in its name if its row has one more. -/
theorem IsEntry.cons
    {c : Char}
    (notBlank : Text.isBlank c = false)
    {rest name value : List Char}
    (entry : IsEntry rest name value) :
    IsEntry (c :: rest) (c :: name) value where
  written := written_cons_iff.mpr ⟨notBlank, .inr entry.written⟩
  longest other shown written := by
    obtain ⟨_, _, others, row_eq, rfl⟩ := written.exists_cons
    obtain ⟨rfl, rfl⟩ := List.cons.inj row_eq
    rcases (written_cons_iff.mp written).2 with ⟨rfl, -⟩ | later
    · simp
    · simpa using entry.longest others shown later
  only shown written := by
    rcases (written_cons_iff.mp written).2 with ⟨rfl, -⟩ | later
    · exact absurd rfl entry.written.someLetter
    · exact entry.only shown later

/-- A row is an entry by its first character if no way to write it starts
further on. -/
theorem isEntry_singleton
    {c : Char}
    (notBlank : Text.isBlank c = false)
    {rest value : List Char}
    (assigns : Assigns rest value)
    (noneLater : ∀ name shown, ¬Written rest name shown) :
    IsEntry (c :: rest) [c] value where
  written := written_cons_iff.mpr ⟨notBlank, .inl ⟨rfl, assigns⟩⟩
  longest other shown written := by
    obtain ⟨_, _, others, row_eq, rfl⟩ := written.exists_cons
    obtain ⟨rfl, rfl⟩ := List.cons.inj row_eq
    rcases (written_cons_iff.mp written).2 with ⟨rfl, -⟩ | later
    · simp
    · exact absurd later (noneLater others shown)
  only shown written := by
    rcases (written_cons_iff.mp written).2 with ⟨-, assignsOther⟩ | later
    · exact assigns.unique assignsOther
    · exact absurd later (noneLater [] shown)

/-- A row that starts with a blank, or in which nothing is assigned to its
first character or further on, cannot be written. -/
theorem not_written_cons
    {c : Char}
    {rest : List Char}
    (none : Text.isBlank c = false ->
      (∀ shown, ¬Assigns rest shown) ∧ ∀ name shown, ¬Written rest name shown)
    (name shown : List Char) : ¬Written (c :: rest) name shown := by
  intro written
  obtain ⟨_, _, others, row_eq, rfl⟩ := written.exists_cons
  obtain ⟨rfl, rfl⟩ := List.cons.inj row_eq
  obtain ⟨notBlank, ⟨-, assigns⟩ | later⟩ := written_cons_iff.mp written
  · exact (none notBlank).1 shown assigns
  · exact (none notBlank).2 others shown later

/-- The pair of a row is its entry, and a row without a pair cannot be
written. -/
theorem pair?_spec (row : List Char) :
    match pair? row with
    | some (name, value) => IsEntry row name value
    | none => ∀ name value, ¬Written row name value := by
  induction row with
  | nil =>
      intro name value written
      obtain ⟨_, _, _, row_eq, -⟩ := written.exists_cons
      cases row_eq
  | cons c rest inductionHypothesis =>
      rw [pair?]
      cases blank : Text.isBlank c with
      | true =>
          refine not_written_cons fun notBlank => ?_
          exact absurd blank (by simp [notBlank])
      | false =>
          rw [if_neg Bool.false_ne_true]
          cases found : pair? rest with
          | some pair =>
              rw [found] at inductionHypothesis
              exact inductionHypothesis.cons blank
          | none =>
              rw [found] at inductionHypothesis
              cases assigned : value? rest with
              | none =>
                  refine not_written_cons fun _ => ⟨?_, inductionHypothesis⟩
                  intro shown assigns
                  rw [value?_eq_some_iff.mpr assigns] at assigned
                  cases assigned
              | some value =>
                  exact isEntry_singleton blank
                    (value?_eq_some_iff.mp assigned) inductionHypothesis

/-! ## Requirements of rows -/

/-- A row is an entry in one way at most. -/
theorem IsEntry.unique
    {row name value otherName otherValue : List Char}
    (entry : IsEntry row name value)
    (other : IsEntry row otherName otherValue) :
    otherName = name ∧ otherValue = value := by
  have lengths : otherName.length = name.length :=
    Nat.le_antisymm (entry.longest _ _ other.written)
      (other.longest _ _ entry.written)
  obtain ⟨text, row_eq, -⟩ := entry.written.assigned
  obtain ⟨otherText, otherRow_eq, -⟩ := other.written.assigned
  obtain ⟨rfl, -⟩ : otherName = name ∧ otherText = text :=
    List.append_inj (otherRow_eq.symm.trans row_eq) lengths
  exact ⟨rfl, entry.only _ other.written⟩

theorem ofEntry_ofList (name value : List Char) :
    Requirement.ofEntry (String.ofList name) (String.ofList value) =
      declared name value := by
  have wildcard : String.ofList value = Requirement.wildcard ↔ value = ['*'] :=
    String.ofList_inj
  simp only [Requirement.ofEntry, declared, wildcard]

/-- A row declares the requirement of its entry. -/
theorem requirement?_eq_some_iff
    {row : List Char}
    {requirement : Requirement} :
    requirement? row = some requirement ↔
      ∃ name value, IsEntry row name value ∧
        requirement = declared name value := by
  have spec := pair?_spec row
  rw [requirement?]
  cases found : pair? row with
  | none =>
      rw [found] at spec
      simp only [Option.map_none, reduceCtorEq, false_iff]
      rintro ⟨name, value, entry, -⟩
      exact spec name value entry.written
  | some pair =>
      obtain ⟨name, value⟩ := pair
      rw [found] at spec
      simp only [Option.map_some, Option.some.injEq, ofEntry_ofList]
      constructor
      · rintro rfl
        exact ⟨name, value, spec, rfl⟩
      · rintro ⟨other, shown, entry, rfl⟩
        obtain ⟨rfl, rfl⟩ := entry.unique spec
        rfl

/-- The name runs over the first equals sign, as it may. -/
example : requirement? "uv==\"1\" # any".toList = some ⟨"uv=", some "1"⟩ := by
  decide

/-- A row declares nothing where it cannot be written as an entry. -/
theorem requirement?_eq_none_iff
    {row : List Char} :
    requirement? row = none ↔ ¬∃ name value, Written row name value := by
  have spec := pair?_spec row
  rw [requirement?, Option.map_eq_none_iff]
  cases found : pair? row with
  | none =>
      rw [found] at spec
      simpa using spec
  | some pair =>
      rw [found] at spec
      simpa using ⟨_, _, spec.written⟩

/-- What a single row declares in a section: the requirement of its entry, if
the section is open and the row is neither a header nor idle. -/
theorem requirements_ofTrimmed_singleton
    (current : Option Section)
    (row : List Char)
    (here : Section) :
    (ofTrimmed current [row]).requirements here =
      if current = some here ∧ isPlain row = true then
        (requirement? row).toList
      else [] := by
  rcases isHeader_or_isIdle_or_isPlain row with header | idle | plain
  · rw [ofTrimmed_cons_of_isHeader current header]
    simp [isPlain, header]
  · rw [ofTrimmed_cons_of_isIdle current idle]
    simp [isPlain, idle]
  · cases current with
    | none =>
        rw [ofTrimmed_none_cons plain]
        simp
    | some there =>
        rw [ofTrimmed_some_cons there plain]
        cases requirement? row <;>
          simp [plain, requirements_cons]

/-! ## Requirements of a section -/

/-- The place of a row among others in which the row may declare a requirement
of a section: the nearest header before it opens that section, and it is
neither a header nor idle itself. -/
structure StandsIn
    (rows : List (List Char))
    (here : Section)
    (place : Nat)
    (row : List Char) : Prop where
  /-- The row is in that place. -/
  found : rows[place]? = some row
  /-- The section is open there. -/
  header : nearestHeader? (rows.take place) = some here.header
  /-- The row may declare something. -/
  plain : isPlain row = true

/-- The row in a place is an entry that declares a requirement. -/
def DeclaresAt
    (rows : List (List Char))
    (place : Nat)
    (requirement : Requirement) : Prop :=
  ∃ row name value, rows[place]? = some row ∧ IsEntry row name value ∧
    requirement = declared name value

/-- Requirements are those that some rows declare in a section: one for each
place in the section where a row can be written as an entry, in the order of
the places. -/
def Lists
    (rows : List (List Char))
    (here : Section)
    (listed : List Requirement) : Prop :=
  ∃ places : List Nat, places.Pairwise (· < ·) ∧
    (∀ place, place ∈ places ↔
      ∃ row, StandsIn rows here place row ∧
        ∃ name value, Written row name value) ∧
    List.Forall₂ (DeclaresAt rows) places listed

/-- One row more is one place more at the end. -/
theorem standsIn_concat_iff
    {rows : List (List Char)}
    {row other : List Char}
    {here : Section}
    {place : Nat} :
    StandsIn (rows ++ [row]) here place other ↔
      StandsIn rows here place other ∨
        place = rows.length ∧ other = row ∧
          nearestHeader? rows = some here.header ∧ isPlain row = true := by
  constructor
  · rintro ⟨found, header, plain⟩
    rcases Nat.lt_trichotomy place rows.length with before | rfl | beyond
    · rw [List.getElem?_append_left before] at found
      rw [List.take_append_of_le_length before.le] at header
      exact .inl ⟨found, header, plain⟩
    · obtain rfl : row = other := by simpa using found
      exact .inr ⟨rfl, rfl, by simpa using header, plain⟩
    · rw [List.getElem?_eq_none (by simp; omega)] at found
      cases found
  · rintro (⟨found, header, plain⟩ | ⟨rfl, rfl, header, plain⟩)
    · have before : place < rows.length :=
        (List.getElem?_eq_some_iff.mp found).1
      refine ⟨?_, ?_, plain⟩
      · rw [List.getElem?_append_left before, found]
      · rw [List.take_append_of_le_length before.le, header]
    · exact ⟨by simp, by simpa using header, plain⟩

section Concat

variable {rows : List (List Char)} {here : Section}
  {listed : List Requirement} {row : List Char}

/-- What the row in a place declares it also declares where one row more
follows. -/
theorem DeclaresAt.concat
    {place : Nat}
    {requirement : Requirement}
    (declares : DeclaresAt rows place requirement)
    (row : List Char) : DeclaresAt (rows ++ [row]) place requirement := by
  obtain ⟨other, name, value, found, entry⟩ := declares
  have before : place < rows.length := (List.getElem?_eq_some_iff.mp found).1
  exact ⟨other, name, value, by rw [List.getElem?_append_left before, found],
    entry⟩

/-- An entry in the section is listed after the others. -/
theorem Lists.concat_entry
    (lists : Lists rows here listed)
    (header : nearestHeader? rows = some here.header)
    (plain : isPlain row = true)
    {name value : List Char}
    (entry : IsEntry row name value) :
    Lists (rows ++ [row]) here (listed ++ [declared name value]) := by
  obtain ⟨places, increasing, members, matched⟩ := lists
  refine ⟨places ++ [rows.length], ?_, fun place => ?_, ?_⟩
  · rw [List.pairwise_append]
    refine ⟨increasing, List.pairwise_singleton .., ?_⟩
    intro place member last isLast
    obtain rfl := List.mem_singleton.mp isLast
    obtain ⟨other, stands, -⟩ := (members place).mp member
    exact (List.getElem?_eq_some_iff.mp stands.found).1
  · rw [List.mem_append, members place, List.mem_singleton]
    constructor
    · rintro (⟨other, stands, written⟩ | rfl)
      · exact ⟨other, standsIn_concat_iff.mpr (.inl stands), written⟩
      · exact ⟨row, standsIn_concat_iff.mpr (.inr ⟨rfl, rfl, header, plain⟩),
          name, value, entry.written⟩
    · rintro ⟨other, stands, written⟩
      rcases standsIn_concat_iff.mp stands with earlier | ⟨isLast, -⟩
      · exact .inl ⟨other, earlier, written⟩
      · exact .inr isLast
  · have last : DeclaresAt (rows ++ [row]) rows.length (declared name value) :=
      ⟨row, name, value, by simp, entry, rfl⟩
    exact List.rel_append (matched.imp fun _ _ declares => declares.concat row)
      (.cons last .nil)

/-- A row that is no entry in the section lists nothing. -/
theorem Lists.concat_other
    (lists : Lists rows here listed)
    (noEntry : nearestHeader? rows = some here.header -> isPlain row = true ->
      ¬∃ name value, Written row name value) :
    Lists (rows ++ [row]) here listed := by
  obtain ⟨places, increasing, members, matched⟩ := lists
  refine ⟨places, increasing, fun place => ?_,
    matched.imp fun _ _ declares => declares.concat row⟩
  rw [members place]
  constructor
  · rintro ⟨other, stands, written⟩
    exact ⟨other, standsIn_concat_iff.mpr (.inl stands), written⟩
  · rintro ⟨other, stands, written⟩
    rcases standsIn_concat_iff.mp stands with earlier |
      ⟨-, rfl, header, plain⟩
    · exact ⟨other, earlier, written⟩
    · exact absurd written (noEntry header plain)

/-- What one row more declares is listed after the others. -/
theorem Lists.concat
    (lists : Lists rows here listed)
    (row : List Char) :
    Lists (rows ++ [row]) here
      (listed ++
        (ofTrimmed (sectionAfter none rows) [row]).requirements here) := by
  rw [requirements_ofTrimmed_singleton]
  split_ifs with stands
  · have header := sectionAfter_none_eq_some_iff.mp stands.1
    cases declares : requirement? row with
    | none =>
        simpa using lists.concat_other fun _ _ =>
          requirement?_eq_none_iff.mp declares
    | some requirement =>
        obtain ⟨name, value, entry, rfl⟩ :=
          requirement?_eq_some_iff.mp declares
        exact lists.concat_entry header stands.2 entry
  · simpa using lists.concat_other fun header plain =>
      absurd ⟨sectionAfter_none_eq_some_iff.mpr header, plain⟩ stands

end Concat

/-- Scanning lists the entries of either section. -/
theorem lists_ofTrimmed
    (rows : List (List Char))
    (here : Section) :
    Lists rows here ((ofTrimmed none rows).requirements here) := by
  induction rows using List.reverseRecOn with
  | nil =>
      refine ⟨[], .nil, fun place => ?_, by simp⟩
      simp only [List.not_mem_nil, false_iff]
      rintro ⟨row, stands, -⟩
      exact absurd stands.found (by simp)
  | append_singleton rows row inductionHypothesis =>
      rw [ofTrimmed_append, requirements_append]
      exact inductionHypothesis.concat row

/-- A Pipfile requires, in either section, what the entries of that section
say: row by row, a row in the section that is neither a header nor empty nor a
comment counts if and only if it can be written as an entry, and then by its
longest name. -/
theorem requirements_are_entries
    (text : String)
    (here : Section) :
    Lists (rows text.toList) here ((ofText text).requirements here) := by
  rw [ofText_eq]
  exact lists_ofTrimmed (rows text.toList) here

end Pipfile
end LockBench
