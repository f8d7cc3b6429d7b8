import LockBench.Proofs.Shell.Tokens

/-!
# Quoting is undone by reading

A quoted word is its chunks one after another, each written in its own way of
quoting.  The reader takes every chunk back letter by letter, so a quoted word
reads as one word with the characters it was made from.  The letters that are
not quoted are bare characters, none of which means anything to a shell.
-/

namespace LockBench
namespace Shell
namespace Quoting

/-! ## Chunks -/

/-- The chunks of the rest of a word, given the ways still open to the current
chunk and its characters in reverse. -/
def chunksFrom
    (choices : List Quoting)
    (chunk : List Char) : List Char -> List (Quoting × List Char)
  | [] => [(choices.headD .double, chunk.reverse)]
  | c :: rest =>
    match choices.filter (·.admits c) with
    | [] =>
      (choices.headD .double, chunk.reverse) :: chunksFrom (opening c) [c] rest
    | narrowed => chunksFrom narrowed (c :: chunk) rest

/-- The chunks of a word without NUL. -/
def chunks : List Char -> List (Quoting × List Char)
  | [] => [(.single, [])]
  | c :: rest => chunksFrom (opening c) [c] rest

/-- The rest of a word is written chunk by chunk. -/
theorem quoteFrom_eq_flatMap
    (choices : List Quoting)
    (chunk rest : List Char) :
    quoteFrom choices chunk rest =
      (chunksFrom choices chunk rest).flatMap fun piece =>
        piece.1.write piece.2 := by
  induction rest generalizing choices chunk with
  | nil => simp [quoteFrom, chunksFrom]
  | cons c rest inductionHypothesis =>
      cases narrowed : choices.filter (·.admits c) <;>
        simp [quoteFrom, chunksFrom, narrowed, inductionHypothesis]

/-- A word is written chunk by chunk. -/
theorem quoteChars_eq_flatMap (word : List Char) :
    quoteChars word =
      (chunks word).flatMap fun piece => piece.1.write piece.2 := by
  cases word with
  | nil => simp [chunks, write]
  | cons c rest => exact quoteFrom_eq_flatMap (opening c) [c] rest

/-- Cutting into chunks keeps the characters. -/
theorem flatMap_chunksFrom
    (choices : List Quoting)
    (chunk rest : List Char) :
    (chunksFrom choices chunk rest).flatMap Prod.snd =
      chunk.reverse ++ rest := by
  induction rest generalizing choices chunk with
  | nil => simp [chunksFrom]
  | cons c rest inductionHypothesis =>
      cases narrowed : choices.filter (·.admits c) <;>
        simp [chunksFrom, narrowed, inductionHypothesis]

/-- The chunks of a word make up the word. -/
theorem flatMap_chunks (word : List Char) :
    (chunks word).flatMap Prod.snd = word := by
  cases word with
  | nil => simp [chunks]
  | cons c rest => simpa [chunks] using flatMap_chunksFrom (opening c) [c] rest

/-! ## Chunks suit their quotes -/

/-- Whether a character may be written in a way of quoting.  A caret may be
written in any quotes once it is in a chunk. -/
def Suits : Quoting -> Char -> Prop
  | .bare, c => isBare c = true
  | .single, c => c ≠ '\x27'
  | .double, c => isExpanding c = false

theorem Suits.of_admits
    {quoting : Quoting}
    {c : Char}
    (admitted : quoting.admits c = true) : quoting.Suits c := by
  cases quoting with
  | bare => exact admitted
  | single =>
      rintro rfl
      simp [admits] at admitted
  | double =>
      simp only [admits, Bool.not_eq_true', List.contains_eq_mem,
        decide_eq_false_iff_not] at admitted
      simp only [Suits, isExpanding, List.contains_eq_mem,
        decide_eq_false_iff_not]
      intro expanding
      apply admitted
      rcases List.mem_cons.mp expanding with rfl | backtick
      · decide
      · rw [List.mem_singleton] at backtick
        subst backtick
        decide

/-- What cannot be written in single quotes can be written in double quotes,
a caret aside. -/
theorem admits_double_of_not_single
    {c : Char}
    (notCaret : c ≠ '^')
    (notSingle : admits .single c = false) : admits .double c = true := by
  have quoteOrBackslash : c = '\x27' ∨ c = '\\' := by
    by_cases quote : c = '\x27'
    · exact .inl quote
    · exact .inr (by simpa [admits, notCaret, quote] using notSingle)
  rcases quoteOrBackslash with rfl | rfl <;> decide

/-- Every character may start a chunk in some way. -/
theorem opening_ne_nil (c : Char) : opening c ≠ [] := by
  unfold opening
  split
  case isTrue => simp
  case isFalse notCaret =>
      cases single : admits .single c with
      | true => exact List.ne_nil_of_mem (List.mem_filter.mpr ⟨by decide, single⟩)
      | false =>
          exact List.ne_nil_of_mem (List.mem_filter.mpr
            ⟨by decide, admits_double_of_not_single notCaret single⟩)

theorem suits_of_mem_opening
    {quoting : Quoting}
    {c : Char}
    (member : quoting ∈ opening c) : quoting.Suits c := by
  unfold opening at member
  split at member
  case isTrue caret =>
      rw [List.mem_singleton] at member
      subst member caret
      exact (by decide : '^' ≠ '\x27')
  case isFalse => exact .of_admits (List.mem_filter.mp member).2

/-- A chunk that every open way suits is suited by the plainest of them. -/
theorem suits_headD
    {choices : List Quoting}
    {chunk : List Char}
    (someChoice : choices ≠ [])
    (suits : ∀ quoting ∈ choices, ∀ c ∈ chunk, quoting.Suits c) :
    ∀ c ∈ chunk.reverse, (choices.headD .double).Suits c := by
  cases choices with
  | nil => exact absurd rfl someChoice
  | cons first others =>
      intro c present
      exact suits first (List.mem_cons_self ..) c (List.mem_reverse.mp present)

/-- Every chunk is written in a way that suits its characters. -/
theorem suits_of_mem_chunksFrom
    {choices : List Quoting}
    {chunk rest : List Char}
    (someChoice : choices ≠ [])
    (suits : ∀ quoting ∈ choices, ∀ c ∈ chunk, quoting.Suits c)
    {piece : Quoting × List Char}
    (member : piece ∈ chunksFrom choices chunk rest) :
    ∀ c ∈ piece.2, piece.1.Suits c := by
  induction rest generalizing choices chunk with
  | nil =>
      rw [chunksFrom, List.mem_singleton] at member
      subst member
      exact suits_headD someChoice suits
  | cons c rest inductionHypothesis =>
      cases narrowed : choices.filter (·.admits c) with
      | nil =>
          simp only [chunksFrom, narrowed, List.mem_cons] at member
          rcases member with rfl | later
          · exact suits_headD someChoice suits
          · refine inductionHypothesis (opening_ne_nil c) ?_ later
            intro quoting isOpen other present
            rw [List.mem_singleton.mp present]
            exact suits_of_mem_opening isOpen
      | cons first others =>
          simp only [chunksFrom, narrowed] at member
          refine inductionHypothesis (List.cons_ne_nil first others) ?_ member
          intro quoting isOpen other present
          rw [← narrowed, List.mem_filter] at isOpen
          rcases List.mem_cons.mp present with rfl | earlier
          · exact .of_admits isOpen.2
          · exact suits quoting isOpen.1 other earlier

theorem suits_of_mem_chunks
    {word : List Char}
    {piece : Quoting × List Char}
    (member : piece ∈ chunks word) : ∀ c ∈ piece.2, piece.1.Suits c := by
  cases word with
  | nil =>
      rw [chunks, List.mem_singleton] at member
      subst member
      simp
  | cons c rest =>
      refine suits_of_mem_chunksFrom (opening_ne_nil c) ?_ member
      intro quoting isOpen other present
      rw [List.mem_singleton.mp present]
      exact suits_of_mem_opening isOpen

/-! ## Reading a chunk -/

/-- The letters that a chunk reads as. -/
def letters (piece : Quoting × List Char) : List Letter :=
  piece.2.map fun c => ⟨c, piece.1 ≠ .bare⟩

/-- A bare character is in no list without bare characters. -/
theorem not_contains_of_isBare
    {c : Char}
    (bare : isBare c = true)
    (others : List Char)
    (noneBare : others.all (fun other => !isBare other) = true) :
    others.contains c = false := by
  rw [List.contains_eq_mem, decide_eq_false_iff_not]
  intro member
  have notBare := List.all_eq_true.mp noneBare c member
  simp [bare] at notBare

/-- A bare character that no quote surrounds goes on with a word. -/
theorem extend_of_isBare
    {c : Char}
    (bare : isBare c = true)
    (tokens : List Token)
    (letters : List Letter) :
    Reading.extend tokens letters c =
      some ⟨tokens, .word (letters ++ [⟨c, false⟩]) .bare⟩ := by
  have notQuote := not_contains_of_isBare bare ['\x27', '\x22', '\\']
    (by decide)
  have notActive := not_contains_of_isBare bare
    ['$', '\x60', '*', '?', '[', '~', '{', '}', '!'] (by decide)
  simp_all [Reading.extend, isActive, isExpanding]

/-- A bare character goes on with an open word. -/
theorem step_of_isBare
    {c : Char}
    (bare : isBare c = true)
    (tokens : List Token)
    (letters : List Letter) :
    Reading.step ⟨tokens, .word letters .bare⟩ c =
      some ⟨tokens, .word (letters ++ [⟨c, false⟩]) .bare⟩ := by
  have notSeparator := not_contains_of_isBare bare
    [' ', '\t', '&', '|', ';', '<', '>', '(', ')', '\n'] (by decide)
  have notBlank : isBlank c = false := by
    simp_all [isBlank]
  have notMark : isMark c = false := by
    simp_all [isMark]
  simp [Reading.step, notBlank, notMark, extend_of_isBare bare]

/-- Bare characters are read as they are. -/
theorem feed_bare
    {chunk : List Char}
    (bare : ∀ c ∈ chunk, isBare c = true)
    (tokens : List Token)
    (letters : List Letter) :
    Reading.feed ⟨tokens, .word letters .bare⟩ chunk =
      some ⟨tokens, .word (letters ++ chunk.map (⟨·, false⟩)) .bare⟩ := by
  induction chunk generalizing letters with
  | nil => simp
  | cons c rest inductionHypothesis =>
      rw [Reading.feed_cons, step_of_isBare (bare c (List.mem_cons_self ..)),
        Option.bind_some, inductionHypothesis fun other present =>
          bare other (List.mem_cons_of_mem _ present)]
      simp

/-- Between single quotes everything but a single quote is read as it is. -/
theorem feed_single
    {chunk : List Char}
    (noQuote : ∀ c ∈ chunk, c ≠ '\x27')
    (tokens : List Token)
    (letters : List Letter) :
    Reading.feed ⟨tokens, .word letters .single⟩ (chunk ++ ['\x27']) =
      some ⟨tokens, .word (letters ++ chunk.map (⟨·, true⟩)) .bare⟩ := by
  induction chunk generalizing letters with
  | nil => simp [Reading.step]
  | cons c rest inductionHypothesis =>
      have quoted : Reading.step ⟨tokens, .word letters .single⟩ c =
          some ⟨tokens, .word (letters ++ [⟨c, true⟩]) .single⟩ := by
        simp [Reading.step, noQuote c (List.mem_cons_self ..)]
      rw [List.cons_append, Reading.feed_cons, quoted, Option.bind_some,
        inductionHypothesis fun other present =>
          noQuote other (List.mem_cons_of_mem _ present)]
      simp

/-- Inside double quotes an escaped character is read as itself. -/
theorem feed_escapeDouble
    {c : Char}
    (notExpanding : isExpanding c = false)
    (tokens : List Token)
    (letters : List Letter) :
    Reading.feed ⟨tokens, .word letters .double⟩ (escapeDouble c) =
      some ⟨tokens, .word (letters ++ [⟨c, true⟩]) .double⟩ := by
  by_cases protectedChar : c = '\x22' ∨ c = '\\'
  · have isProtected : isProtected c = true := by
      rcases protectedChar with rfl | rfl <;> decide
    have notNewline : c ≠ '\n' := by
      rintro rfl
      exact absurd isProtected (by decide)
    simp [escapeDouble, protectedChar, Reading.step, isProtected, notNewline]
  · have notQuote : c ≠ '\x22' := fun equal => protectedChar (.inl equal)
    have notBackslash : c ≠ '\\' := fun equal => protectedChar (.inr equal)
    simp [escapeDouble, Reading.step, notQuote, notBackslash, notExpanding]

/-- Double quotes around escaped characters are taken off again. -/
theorem feed_double
    {chunk : List Char}
    (notExpanding : ∀ c ∈ chunk, isExpanding c = false)
    (tokens : List Token)
    (letters : List Letter) :
    Reading.feed ⟨tokens, .word letters .double⟩
        (chunk.flatMap escapeDouble ++ ['\x22']) =
      some ⟨tokens, .word (letters ++ chunk.map (⟨·, true⟩)) .bare⟩ := by
  induction chunk generalizing letters with
  | nil => simp [Reading.step]
  | cons c rest inductionHypothesis =>
      rw [List.flatMap_cons, List.append_assoc, Reading.feed_append,
        feed_escapeDouble (notExpanding c (List.mem_cons_self ..)),
        Option.bind_some, inductionHypothesis fun other present =>
          notExpanding other (List.mem_cons_of_mem _ present)]
      simp

/-- A written chunk goes on with an open word by the letters of the chunk. -/
theorem feed_write
    {piece : Quoting × List Char}
    (suits : ∀ c ∈ piece.2, piece.1.Suits c)
    (tokens : List Token)
    (before : List Letter) :
    Reading.feed ⟨tokens, .word before .bare⟩ (piece.1.write piece.2) =
      some ⟨tokens, .word (before ++ letters piece) .bare⟩ := by
  obtain ⟨quoting, chunk⟩ := piece
  cases quoting with
  | bare => simpa [write, letters] using feed_bare suits tokens before
  | single =>
      have opens : Reading.step ⟨tokens, .word before .bare⟩ '\x27' =
          some ⟨tokens, .word before .single⟩ := rfl
      simpa [write, letters, opens] using feed_single suits tokens before
  | double =>
      have opens : Reading.step ⟨tokens, .word before .bare⟩ '\x22' =
          some ⟨tokens, .word before .double⟩ := rfl
      simpa [write, letters, opens] using feed_double suits tokens before

/-- Written chunks are read one after another. -/
theorem feed_flatMap_write
    {pieces : List (Quoting × List Char)}
    (suits : ∀ piece ∈ pieces, ∀ c ∈ piece.2, piece.1.Suits c)
    (tokens : List Token)
    (before : List Letter) :
    Reading.feed ⟨tokens, .word before .bare⟩
        (pieces.flatMap fun piece => piece.1.write piece.2) =
      some ⟨tokens, .word (before ++ pieces.flatMap letters) .bare⟩ := by
  induction pieces generalizing before with
  | nil => simp
  | cons piece rest inductionHypothesis =>
      rw [List.flatMap_cons, Reading.feed_append,
        feed_write (suits piece (List.mem_cons_self ..)), Option.bind_some,
        inductionHypothesis fun other member =>
          suits other (List.mem_cons_of_mem _ member)]
      simp

end Quoting

open Quoting

/-! ## Reading a quoted word -/

/-- The letters that the quoted form of some characters reads as. -/
def quotedLetters (word : List Char) : List Letter :=
  (chunks word).flatMap letters

/-- The letters spell the characters. -/
@[simp] theorem map_char_quotedLetters (word : List Char) :
    (quotedLetters word).map Letter.char = word := by
  have kept : (fun piece => (letters piece).map Letter.char) = Prod.snd := by
    funext piece
    simp [letters, Function.comp_def]
  rw [quotedLetters, List.map_flatMap, kept, flatMap_chunks]

/-- A letter that is not quoted is a bare character. -/
theorem isBare_of_mem_quotedLetters
    {word : List Char}
    {letter : Letter}
    (member : letter ∈ quotedLetters word)
    (unquoted : letter.quoted = false) : isBare letter.char = true := by
  obtain ⟨⟨quoting, chunk⟩, isChunk, inChunk⟩ := List.mem_flatMap.mp member
  obtain ⟨c, present, rfl⟩ := List.mem_map.mp inChunk
  have bareQuoting : quoting = .bare := by simpa using unquoted
  subst bareQuoting
  exact suits_of_mem_chunks isChunk c present

/-- A quoted word goes on with an open word by its letters. -/
theorem feed_quoteChars
    (word : List Char)
    (tokens : List Token)
    (before : List Letter) :
    Reading.feed ⟨tokens, .word before .bare⟩ (quoteChars word) =
      some ⟨tokens, .word (before ++ quotedLetters word) .bare⟩ := by
  rw [quoteChars_eq_flatMap]
  exact feed_flatMap_write (fun _ member => suits_of_mem_chunks member) ..

/-! ## Where a word starts -/

/-- Whether a character starts a word where a token may start. -/
def StartsWord (c : Char) : Prop :=
  isBlank c = false ∧ isMark c = false ∧ c ≠ '#'

/-- What starts a word is read as if the word had been open before. -/
theorem feed_of_startsWord
    {c : Char}
    (starts : StartsWord c)
    (rest : List Char)
    (tokens : List Token) :
    Reading.feed ⟨tokens, .nothing⟩ (c :: rest) =
      Reading.feed ⟨tokens, .word [] .bare⟩ (c :: rest) := by
  obtain ⟨notBlank, notMark, notHash⟩ := starts
  simp [Reading.step, Reading.start, notBlank, notMark, notHash]

theorem startsWord_of_isBare
    {c : Char}
    (bare : isBare c = true) : StartsWord c := by
  have notSeparator := not_contains_of_isBare bare
    [' ', '\t', '&', '|', ';', '<', '>', '(', ')', '\n', '#'] (by decide)
  simp_all [StartsWord, isBlank, isMark]

/-- A written chunk that is not empty starts a word. -/
theorem write_startsWord
    {piece : Quoting × List Char}
    (suits : ∀ c ∈ piece.2, piece.1.Suits c)
    (notEmpty : piece.2 ≠ []) :
    ∃ c rest, piece.1.write piece.2 = c :: rest ∧ StartsWord c := by
  obtain ⟨quoting, chunk⟩ := piece
  cases quoting with
  | bare =>
      cases chunk with
      | nil => exact absurd rfl notEmpty
      | cons c rest =>
          exact ⟨c, rest, rfl,
            startsWord_of_isBare (suits c (List.mem_cons_self ..))⟩
  | single => exact ⟨'\x27', _, rfl, by decide, by decide, by decide⟩
  | double => exact ⟨'\x22', _, rfl, by decide, by decide, by decide⟩

/-- The first chunk of what is left of a word is not empty. -/
theorem chunksFrom_eq_cons
    (choices : List Quoting)
    {chunk : List Char}
    (rest : List Char)
    (notEmpty : chunk ≠ []) :
    ∃ piece others, chunksFrom choices chunk rest = piece :: others ∧
      piece.2 ≠ [] := by
  induction rest generalizing choices chunk with
  | nil => exact ⟨_, _, rfl, by simpa using notEmpty⟩
  | cons c rest inductionHypothesis =>
      cases narrowed : choices.filter (·.admits c) with
      | nil =>
          exact ⟨(choices.headD .double, chunk.reverse),
            chunksFrom (opening c) [c] rest, by simp [chunksFrom, narrowed],
            by simpa using notEmpty⟩
      | cons first others =>
          obtain ⟨piece, later, equal, nonempty⟩ :=
            inductionHypothesis (first :: others) (List.cons_ne_nil c chunk)
          exact ⟨piece, later, by simp [chunksFrom, narrowed, equal], nonempty⟩

/-- The quoted form of a word starts a word. -/
theorem quoteChars_startsWord (word : List Char) :
    ∃ c rest, quoteChars word = c :: rest ∧ StartsWord c := by
  cases word with
  | nil => exact ⟨'\x27', ['\x27'], rfl, by decide, by decide, by decide⟩
  | cons c rest =>
      obtain ⟨piece, others, equal, notEmpty⟩ :=
        chunksFrom_eq_cons (opening c) rest (List.cons_ne_nil c [])
      have member : piece ∈ chunks (c :: rest) := by
        rw [chunks, equal]
        exact List.mem_cons_self ..
      obtain ⟨first, later, written, starts⟩ :=
        write_startsWord (suits_of_mem_chunks member) notEmpty
      refine ⟨first, later ++ others.flatMap fun other =>
        other.1.write other.2, ?_, starts⟩
      rw [quoteChars_eq_flatMap, chunks, equal, List.flatMap_cons, written,
        List.cons_append]

/-- A quoted word reads as one word. -/
theorem reads_quoteChars (word : List Char) :
    Reads (quoteChars word) [.word (quotedLetters word)] := by
  refine ⟨[], quotedLetters word, rfl, ?_⟩
  intro before
  have asOpenWord : Reading.feed ⟨before, .nothing⟩ (quoteChars word) =
      Reading.feed ⟨before, .word [] .bare⟩ (quoteChars word) := by
    obtain ⟨c, rest, equal, starts⟩ := quoteChars_startsWord word
    rw [equal, feed_of_startsWord starts]
  rw [asOpenWord, feed_quoteChars]
  simp

/-- Bare characters read as one word. -/
theorem reads_bare
    {text : List Char}
    (notEmpty : text ≠ [])
    (bare : ∀ c ∈ text, isBare c = true) :
    Reads text [.word (text.map (⟨·, false⟩))] := by
  cases text with
  | nil => exact absurd rfl notEmpty
  | cons c rest =>
      refine ⟨[], _, rfl, ?_⟩
      intro before
      rw [feed_of_startsWord (startsWord_of_isBare
        (bare c (List.mem_cons_self ..))), feed_bare bare]
      simp

end Shell
end LockBench
