import LockBench.Proofs.Shell.Lines
import LockBench.Proofs.Shell.Operators

/-!
# Quoted words are read back

A quoted word is read as that word, and quoted words with blanks between them
as those words.  Nothing else is read on the way: no operator, no character
that calls for an expansion, and no comment.
-/

namespace LockBench
namespace Shell

/-- A line is read as some words and as nothing else. -/
structure Spells
    (line : String)
    (words : List String) : Prop where
  /-- All tokens are words, and without their quotes they are those words. -/
  words_eq : ∃ letters : List (List Letter),
    tokens? line = some (letters.map .word) ∧ letters.map spell = words
  /-- Nothing is expanded. -/
  calm : ∀ tokens, tokens? line = some tokens -> ∀ token ∈ tokens, token.Calm
  /-- The reader is in a comment nowhere in the line. -/
  noComment : ∀ front, front <+: line.toList -> ∀ reading,
    Reading.feed {} front = some reading -> reading.pending ≠ .comment

/-! ## Comments end in an operator -/

namespace Reading

/-- The reader is in a comment, or has read an operator. -/
def Left (reading : Reading) : Prop :=
  reading.pending = .comment ∨
    (∃ marks, reading.pending = .operator marks) ∨
    ∃ marks, .operator marks ∈ reading.tokens

section Step

variable {tokens : List Token} {letters : List Letter} {c : Char}
  {reading next : Reading}

theorem tokens_of_extend
    (extended : extend tokens letters c = some next) :
    next.tokens = tokens := by
  rw [extend] at extended
  split_ifs at extended <;> cases extended <;> rfl

theorem tokens_of_start
    (started : start tokens c = some next) : next.tokens = tokens := by
  rw [start] at started
  split_ifs at started
  · cases started
    rfl
  · cases started
    rfl
  · cases started
    rfl
  · exact tokens_of_extend started

/-- A complete token stays. -/
theorem tokens_subset_of_step
    (read : reading.step c = some next) :
    reading.tokens ⊆ next.tokens := by
  obtain ⟨tokens, pending⟩ := reading
  cases pending with
  | nothing =>
      rw [tokens_of_start read]
      exact List.Subset.refl tokens
  | comment =>
      simp only [Reading.step] at read
      split_ifs at read
      · rw [tokens_of_start read]
        exact List.Subset.refl tokens
      · cases read
        exact List.Subset.refl tokens
  | operator marks =>
      simp only [Reading.step] at read
      split_ifs at read
      · cases read
        exact List.Subset.refl tokens
      · rw [tokens_of_start read]
        exact List.subset_append_left ..
  | word letters mode =>
      cases mode with
      | bare =>
          simp only [Reading.step] at read
          split_ifs at read
          · rw [tokens_of_start read]
            exact List.subset_append_left ..
          · rw [tokens_of_extend read]
            exact List.Subset.refl tokens
      | escaped | single | double | doubleEscaped =>
          simp only [Reading.step] at read
          split_ifs at read <;> cases read <;> exact List.Subset.refl tokens

/-- After a comment or an operator the line holds an operator, or the comment
goes on. -/
theorem Left.step
    (left : reading.Left)
    (read : reading.step c = some next) : next.Left := by
  obtain ⟨tokens, pending⟩ := reading
  rcases left with isComment | ⟨marks, isOperator⟩ | ⟨marks, member⟩
  · obtain rfl : pending = .comment := isComment
    simp only [Reading.step] at read
    split_ifs at read with ends
    · subst ends
      obtain rfl : ⟨tokens, .operator ['\n']⟩ = next := Option.some.inj read
      exact .inr (.inl ⟨_, rfl⟩)
    · cases read
      exact .inl rfl
  · obtain rfl : pending = .operator marks := isOperator
    simp only [Reading.step] at read
    split_ifs at read
    · cases read
      exact .inr (.inl ⟨_, rfl⟩)
    · refine .inr (.inr ⟨marks, ?_⟩)
      rw [tokens_of_start read]
      exact List.mem_append_right _ List.mem_cons_self
  · exact .inr (.inr ⟨marks, tokens_subset_of_step read member⟩)

end Step

/-- So it is after any characters. -/
theorem Left.feed
    {reading last : Reading}
    {text : List Char}
    (left : reading.Left)
    (read : reading.feed text = some last) : last.Left := by
  induction text generalizing reading with
  | nil =>
      obtain rfl : reading = last := Option.some.inj read
      exact left
  | cons c rest inductionHypothesis =>
      rw [feed_cons] at read
      obtain ⟨next, isStep, later⟩ := Option.bind_eq_some_iff.mp read
      exact inductionHypothesis (left.step isStep) later

end Reading

/-- Where a text reads as words, no part of it is a comment. -/
theorem Reads.noComment
    {text : List Char}
    {words : List (List Letter)}
    (reads : Reads text (words.map .word))
    {front : List Char}
    (isFront : front <+: text)
    {reading : Reading}
    (fed : Reading.feed {} front = some reading) :
    reading.pending ≠ .comment := by
  obtain ⟨rest, rfl⟩ := isFront
  obtain ⟨earlier, letters, words_eq, read⟩ := reads
  have last : reading.feed rest =
      some ⟨[] ++ earlier, .word letters .bare⟩ := by
    have whole := read []
    rwa [Reading.feed_append, show Reading.feed ⟨[], .nothing⟩ front =
      some reading from fed, Option.bind_some] at whole
  intro isComment
  rcases Reading.Left.feed (.inl isComment) last with ends | ⟨marks, ends⟩ |
    ⟨marks, member⟩
  · cases ends
  · cases ends
  · have isWord : Token.operator marks ∈ words.map .word := by
      rw [words_eq]
      exact List.mem_append_left _ member
    simp at isWord

/-! ## Quoted words -/

/-- A text that reads as words spells them. -/
theorem Reads.spells
    {line : String}
    {words : List (List Letter)}
    (reads : Reads line.toList (words.map .word)) :
    Spells line (words.map spell) where
  words_eq := ⟨words, by simpa using reads.tokens?_eq, rfl⟩
  calm _ := calm_of_tokens?
  noComment _ isFront _ fed := reads.noComment isFront fed

/-- An empty line spells nothing. -/
theorem spells_empty : Spells "" [] where
  words_eq := ⟨[], rfl, rfl⟩
  calm _ := calm_of_tokens?
  noComment front isFront reading fed := by
    obtain rfl : front = [] := List.prefix_nil.mp isFront
    cases fed
    exact Pending.noConfusion

/-- Quoting is undone by reading: a quoted word is read as the word without its
NUL characters, and words without NUL that are quoted and joined are read as
those words. -/
theorem quoting_is_undone :
    (∀ word : String, Spells (quote word)
      [String.ofList (word.toList.filter (· ≠ '\x00'))]) ∧
    ∀ words : List String, (∀ word ∈ words, NulFree word) ->
      Spells (join words) words := by
  refine ⟨fun word => ?_, fun words nulFree => ?_⟩
  · have reads : Reads (quote word).toList
        ([quotedLetters (word.toList.filter (· ≠ '\x00'))].map .word) := by
      rw [quote, String.toList_ofList]
      exact reads_quoteChars _
    simpa [spell] using reads.spells
  · cases words with
    | nil => exact spells_empty
    | cons word rest =>
        have reads := Reads.intercalate (List.cons_ne_nil word rest)
          fun other member => reads_quote (nulFree other member)
        have joined : Reads (join (word :: rest)).toList
            (((word :: rest).map wordLetters).map .word) := by
          simpa [join, Function.comp_def] using reads
        simpa [Function.comp_def] using joined.spells

/-- Empty words, blanks, quotes and characters that mean something to a shell
are read back. -/
theorem quoting_is_undone_awkward :
    (∀ word ∈ ["", "a b", "it's \"$x\"", "#", "~", "^\\\n", "\x7ba,b\x7d", "é"],
        NulFree word) ∧
      Spells
        (join ["", "a b", "it's \"$x\"", "#", "~", "^\\\n", "\x7ba,b\x7d", "é"])
        ["", "a b", "it's \"$x\"", "#", "~", "^\\\n", "\x7ba,b\x7d", "é"] := by
  have nulFree : ∀ word ∈ ["", "a b", "it's \"$x\"", "#", "~", "^\\\n",
      "\x7ba,b\x7d", "é"], NulFree word := by decide
  exact ⟨nulFree, quoting_is_undone.2 _ nulFree⟩

end Shell
end LockBench
