import LockBench.Proofs.Manifest.Rows
import Mathlib.Logic.Relation

/-!
# Pipfiles in parts, and their layout

Of the rows of a text only those count that are neither empty nor a comment,
and what blanks stand around a row does not matter.  So a Pipfile may be laid
out in many ways.  It may also be cut in front of any header: what the parts
declare, one after the other, is what the whole declares.
-/

namespace LockBench

namespace Text

/-- Blanks in front are trimmed. -/
theorem trimBlank_append
    {blanks : List Char}
    (areBlank : ∀ c ∈ blanks, isBlank c = true)
    (line : List Char) : trimBlank (blanks ++ line) = trimBlank line := by
  induction blanks with
  | nil => rfl
  | cons c rest inductionHypothesis =>
      rw [List.cons_append, trimBlank_cons (areBlank c List.mem_cons_self),
        inductionHypothesis fun other present =>
          areBlank other (List.mem_cons_of_mem _ present)]

/-- What starts with no blank starts so when it is trimmed, too. -/
theorem head?_trimBlank_cons
    {c : Char}
    (notBlank : isBlank c = false)
    (rest : List Char) : (trimBlank (c :: rest)).head? = some c := by
  have kept : dropBlank (c :: rest) = c :: rest := by
    rw [dropBlank, List.dropWhile_cons_of_neg (by simp [notBlank])]
  rw [trimBlank, kept, List.reverse_cons, dropBlank, List.dropWhile_append]
  split_ifs <;> simp [notBlank]

end Text

namespace Pipfile

/-! ## The rows that count -/

/-- The rows of a text that are neither empty nor a comment. -/
def tellingRows (text : List Char) : List (List Char) :=
  (rows text).filter fun row => !isIdle row

/-- Nothing but the rows that count matters. -/
theorem ofText_congr
    {text other : String}
    (same : tellingRows other.toList = tellingRows text.toList) :
    ofText other = ofText text := by
  have ofRows : ∀ content : String,
      ofText content = ofTrimmed none (tellingRows content.toList) := by
    intro content
    rw [ofText_eq, tellingRows, ofTrimmed_filter]
  rw [ofRows, ofRows, same]

theorem tellingRows_append
    (before after : List Char) :
    tellingRows (before ++ '\n' :: after) =
      tellingRows before ++ tellingRows after := by
  rw [tellingRows, rows_append, List.filter_append]
  rfl

/-- A text without line feeds is judged by what is left of it trimmed. -/
theorem tellingRows_of_not_mem
    {line : List Char}
    (noEnd : '\n' ∉ line) :
    tellingRows line =
      [Text.trimBlank line].filter fun row => !isIdle row := by
  rw [tellingRows, rows_of_not_mem noEnd]

@[simp] theorem tellingRows_nil : tellingRows [] = [] := rfl

/-- A text is one line, or a line and what follows its end. -/
theorem eq_line_or_line_append (text : List Char) :
    '\n' ∉ text ∨
      ∃ line rest, text = line ++ '\n' :: rest ∧ '\n' ∉ line := by
  by_cases ends : '\n' ∈ text
  · exact .inr (List.eq_append_cons_of_mem ends)
  · exact .inl ends

/-- A text is one line, or a line after the end of another. -/
theorem eq_line_or_append_line (text : List Char) :
    '\n' ∉ text ∨
      ∃ front line, text = front ++ '\n' :: line ∧ '\n' ∉ line := by
  rcases eq_line_or_line_append text.reverse with noEnd |
    ⟨line, rest, text_eq, noEnd⟩
  · exact .inl (by simpa using noEnd)
  · refine .inr ⟨rest.reverse, line.reverse, ?_, by simpa using noEnd⟩
    rw [← List.reverse_reverse text, text_eq]
    simp

/-- A blank at the start of a text does not count. -/
theorem tellingRows_cons
    {c : Char}
    (blank : Text.isBlank c = true)
    (text : List Char) : tellingRows (c :: text) = tellingRows text := by
  by_cases ends : c = '\n'
  · subst ends
    exact tellingRows_append [] text
  have ofLine : ∀ line, '\n' ∉ line ->
      tellingRows (c :: line) = tellingRows line := by
    intro line noEnd
    rw [tellingRows_of_not_mem noEnd,
      tellingRows_of_not_mem (by simp [noEnd, Ne.symm ends]),
      Text.trimBlank_cons blank]
  rcases eq_line_or_line_append text with noEnd | ⟨line, rest, rfl, noEnd⟩
  · exact ofLine text noEnd
  · rw [← List.cons_append, tellingRows_append, tellingRows_append,
      ofLine line noEnd]

/-- A blank at the end of a text does not count. -/
theorem tellingRows_concat
    {c : Char}
    (blank : Text.isBlank c = true)
    (text : List Char) : tellingRows (text ++ [c]) = tellingRows text := by
  by_cases ends : c = '\n'
  · subst ends
    rw [tellingRows_append, tellingRows_nil, List.append_nil]
  have ofLine : ∀ line, '\n' ∉ line ->
      tellingRows (line ++ [c]) = tellingRows line := by
    intro line noEnd
    rw [tellingRows_of_not_mem noEnd,
      tellingRows_of_not_mem (by simp [noEnd, Ne.symm ends]),
      Text.trimBlank_concat blank]
  rcases eq_line_or_append_line text with noEnd | ⟨front, line, rfl, noEnd⟩
  · exact ofLine text noEnd
  · rw [List.append_assoc, List.cons_append, tellingRows_append,
      tellingRows_append, ofLine line noEnd]

section Blanks

variable {blanks : List Char}
  (areBlank : ∀ c ∈ blanks, Text.isBlank c = true)

include areBlank

theorem tellingRows_blanks_append (text : List Char) :
    tellingRows (blanks ++ text) = tellingRows text := by
  induction blanks with
  | nil => rfl
  | cons c rest inductionHypothesis =>
      rw [List.cons_append, tellingRows_cons (areBlank c List.mem_cons_self),
        inductionHypothesis fun other present =>
          areBlank other (List.mem_cons_of_mem _ present)]

theorem tellingRows_append_blanks (text : List Char) :
    tellingRows (text ++ blanks) = tellingRows text := by
  induction blanks generalizing text with
  | nil => rw [List.append_nil]
  | cons c rest inductionHypothesis =>
      rw [List.append_cons, inductionHypothesis fun other present =>
          areBlank other (List.mem_cons_of_mem _ present),
        tellingRows_concat (areBlank c List.mem_cons_self)]

end Blanks

/-! ## Changes of the layout -/

/-- A line starts after a text. -/
def LineStarts (before : List Char) : Prop :=
  before = [] ∨ ∃ front, before = front ++ ['\n']

/-- A line ends in front of a text: at a line feed, which may have a carriage
return before it, or at the end of everything. -/
def LineEnds (after : List Char) : Prop :=
  after = [] ∨ (∃ rest, after = '\n' :: rest) ∨
    ∃ rest, after = '\r' :: '\n' :: rest

/-- A line that is blank, or whose first character that is not blank is a
number sign. -/
structure IdleLine (line : List Char) : Prop where
  /-- It is one line. -/
  noEnd : '\n' ∉ line
  /-- It is blank or a comment. -/
  idle : (∀ c ∈ line, Text.isBlank c = true) ∨
    ∃ blanks rest, line = blanks ++ '#' :: rest ∧
      ∀ c ∈ blanks, Text.isBlank c = true

/-- One change of the layout of a text. -/
inductive Relayout : List Char -> List Char -> Prop
  /-- A line feed becomes a carriage return and a line feed. -/
  | lineEnd (before after : List Char) :
      Relayout (before ++ '\n' :: after) (before ++ '\r' :: '\n' :: after)
  /-- Blanks are added at the start of a line. -/
  | lead
      {before blanks : List Char}
      (starts : LineStarts before)
      (areBlank : ∀ c ∈ blanks, Text.isBlank c = true)
      (after : List Char) :
      Relayout (before ++ after) (before ++ (blanks ++ after))
  /-- Blanks are added at the end of a line. -/
  | trail
      (before : List Char)
      {blanks after : List Char}
      (ends : LineEnds after)
      (areBlank : ∀ c ∈ blanks, Text.isBlank c = true) :
      Relayout (before ++ after) (before ++ (blanks ++ after))
  /-- A blank line or a comment is put in front of a line. -/
  | insert
      {before line : List Char}
      (starts : LineStarts before)
      (idle : IdleLine line)
      (after : List Char) :
      Relayout (before ++ after) (before ++ (line ++ '\n' :: after))
  /-- A blank line or a comment is put after the last line. -/
  | append
      (before : List Char)
      {line : List Char}
      (idle : IdleLine line) :
      Relayout before (before ++ '\n' :: line)
  /-- A blank line or a comment without an end of its own is put after the end
  of the last line. -/
  | finish
      {before line : List Char}
      (starts : LineStarts before)
      (idle : IdleLine line) :
      Relayout before (before ++ line)

/-- Where a line starts, what stands before it and what follows are apart. -/
theorem LineStarts.tellingRows_append
    {before : List Char}
    (starts : LineStarts before)
    (after : List Char) :
    tellingRows (before ++ after) =
      tellingRows before ++ tellingRows after := by
  rcases starts with rfl | ⟨front, rfl⟩
  · simp
  · rw [List.append_assoc, List.singleton_append, Pipfile.tellingRows_append,
      tellingRows_concat (by decide)]

/-- A line that is blank or a comment does not count. -/
theorem IdleLine.tellingRows_eq_nil
    {line : List Char}
    (idle : IdleLine line) : tellingRows line = [] := by
  rcases idle.idle with allBlank | ⟨blanks, rest, line_eq, areBlank⟩
  · simpa using tellingRows_append_blanks allBlank []
  · have comment := Text.head?_trimBlank_cons (c := '#') (by decide) rest
    have isIdle : isIdle (Text.trimBlank line) = true := by
      rw [line_eq, Text.trimBlank_append areBlank]
      simp [Pipfile.isIdle, comment]
    rw [tellingRows_of_not_mem idle.noEnd,
      List.filter_cons_of_neg (by simp [isIdle]), List.filter_nil]

/-- One change of the layout leaves the rows that count. -/
theorem Relayout.tellingRows_eq
    {text changed : List Char}
    (change : Relayout text changed) :
    tellingRows changed = tellingRows text := by
  cases change with
  | lineEnd before after =>
      rw [List.append_cons, tellingRows_append, tellingRows_append,
        tellingRows_concat (by decide)]
  | lead starts areBlank after =>
      rw [starts.tellingRows_append, starts.tellingRows_append,
        tellingRows_blanks_append areBlank]
  | trail before ends areBlank =>
      rw [← List.append_assoc]
      rcases ends with rfl | ⟨rest, rfl⟩ | ⟨rest, rfl⟩
      · rw [List.append_nil, List.append_nil,
          tellingRows_append_blanks areBlank]
      · rw [tellingRows_append, tellingRows_append,
          tellingRows_append_blanks areBlank]
      · rw [List.append_cons, List.append_cons before, tellingRows_append,
          tellingRows_append, tellingRows_concat (by decide),
          tellingRows_concat (by decide), tellingRows_append_blanks areBlank]
  | insert starts idle after =>
      rw [starts.tellingRows_append, starts.tellingRows_append,
        tellingRows_append, idle.tellingRows_eq_nil, List.nil_append]
  | append before idle =>
      rw [tellingRows_append, idle.tellingRows_eq_nil, List.append_nil]
  | finish starts idle =>
      rw [starts.tellingRows_append, idle.tellingRows_eq_nil, List.append_nil]

/-- Any changes of the layout leave the rows that count. -/
theorem tellingRows_eq_of_relayouts
    {text changed : List Char}
    (changes : Relation.ReflTransGen Relayout text changed) :
    tellingRows changed = tellingRows text := by
  induction changes with
  | refl => rfl
  | tail _ change inductionHypothesis =>
      rw [change.tellingRows_eq, inductionHypothesis]

/-! ## Parts -/

/-- The first line of a text is a header. -/
def OpensSection (text : List Char) : Prop :=
  isHeader (Text.trimBlank (text.takeWhile (· ≠ '\n'))) = true

instance (text : List Char) : Decidable (OpensSection text) :=
  inferInstanceAs (Decidable (_ = true))

/-- The first row of a text is its first line, trimmed. -/
theorem rows_eq_cons (text : List Char) :
    ∃ rest, rows text =
      Text.trimBlank (text.takeWhile (· ≠ '\n')) :: rest := by
  rcases eq_line_or_line_append text with noEnd | ⟨line, rest, rfl, noEnd⟩
  · refine ⟨[], ?_⟩
    rw [rows_of_not_mem noEnd, Text.takeWhile_ne_eq_self noEnd]
  · refine ⟨rows rest, ?_⟩
    rw [rows_append, rows_of_not_mem noEnd, Text.takeWhile_ne_append noEnd,
      List.singleton_append]

/-- It does not matter which section is open in front of a header. -/
theorem OpensSection.ofTrimmed_rows
    {text : List Char}
    (opens : OpensSection text)
    (current : Option Section) :
    ofTrimmed current (rows text) = ofTrimmed none (rows text) := by
  obtain ⟨rest, rows_eq⟩ := rows_eq_cons text
  rw [rows_eq, ofTrimmed_cons_of_isHeader current opens,
    ofTrimmed_cons_of_isHeader none opens]

/-- A Pipfile may be cut in front of a header. -/
theorem ofText_append
    (front : String)
    {back : String}
    (opens : OpensSection back.toList) :
    ofText (front ++ "\n" ++ back) = ofText front ++ ofText back := by
  have text_eq : (front ++ "\n" ++ back).toList =
      front.toList ++ '\n' :: back.toList := by simp
  rw [ofText_eq, text_eq, rows_append, ofTrimmed_append, opens.ofTrimmed_rows,
    ← ofText_eq, ← ofText_eq]

/-- What a Pipfile declares is what its parts declare, one after the other, if
it is cut in front of a header, and no changes of its layout make a
difference. -/
theorem parts_and_layout :
    (∀ front back : String, OpensSection back.toList ->
      (ofText (front ++ "\n" ++ back)).packages =
          (ofText front).packages ++ (ofText back).packages ∧
        (ofText (front ++ "\n" ++ back)).devPackages =
          (ofText front).devPackages ++ (ofText back).devPackages) ∧
      ∀ text changed : String,
        Relation.ReflTransGen Relayout text.toList changed.toList ->
        ofText changed = ofText text := by
  refine ⟨fun front back opens => ?_, fun text changed changes => ?_⟩
  · rw [ofText_append front opens]
    exact ⟨packages_append .., devPackages_append ..⟩
  · exact ofText_congr (tellingRows_eq_of_relayouts changes)

/-- A section may be opened again, and blanks, a comment and another line end
make no difference. -/
theorem parts_and_layout_reopened :
    OpensSection "[packages]\nb = \"<2\"".toList ∧
      (ofText ("[packages]\na = \"*\"" ++ "\n" ++
          "[packages]\nb = \"<2\"")).packages =
        [⟨"a", none⟩, ⟨"b", some "<2"⟩] ∧
      Relation.ReflTransGen Relayout "[packages]\na=\"*\"".toList
        "[packages]\r\n# any\n \ta=\"*\"".toList ∧
      ofText "[packages]\r\n# any\n \ta=\"*\"" =
        ofText "[packages]\na=\"*\"" := by
  have opens : OpensSection "[packages]\nb = \"<2\"".toList := by decide
  have joined := (parts_and_layout.1 "[packages]\na = \"*\"" _ opens).1
  have changes : Relation.ReflTransGen Relayout "[packages]\na=\"*\"".toList
      "[packages]\r\n# any\n \ta=\"*\"".toList := by
    have lineEnd := Relayout.lineEnd "[packages]".toList "a=\"*\"".toList
    have starts : LineStarts "[packages]\r\n".toList :=
      .inr ⟨"[packages]\r".toList, by decide⟩
    have areBlank : ∀ c ∈ " \t".toList, Text.isBlank c = true := by
      simp [Text.isBlank]
    have lead := Relayout.lead starts areBlank "a=\"*\"".toList
    have comment : IdleLine "# any".toList :=
      ⟨by decide, .inr ⟨[], " any".toList, by decide, by simp⟩⟩
    have insert := Relayout.insert starts comment " \ta=\"*\"".toList
    exact .tail (.tail (.single lineEnd) lead) insert
  refine ⟨opens, joined.trans ?_, changes, parts_and_layout.2 _ _ changes⟩
  decide

end Pipfile
end LockBench
