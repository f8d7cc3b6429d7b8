import LockBench.Proofs.Json.Grammar

/-!
# Reading documents

The machine that looks at one character at a time reads every document of the
grammar, and no other.  In each of its modes some characters may follow, and a
mode takes a character where what follows may start with it.
-/

namespace LockBench
namespace Json

/-! ## Inside a token -/

/-- What is left of a string behind some of its pieces, in reverse, and what
comes after it. -/
inductive InText
    (pieces : List Piece) : List Char -> List Token -> Prop
  | intro
      {more : List Piece}
      {inside rest : List Char}
      {content : Option String}
      {tokens : List Token}
      (areWritten : AreWritten more inside)
      (isContent : IsContent (pieces.reverse ++ more) content)
      (lexes : Lexes rest tokens) :
      InText pieces (inside ++ '\x22' :: rest)
        (.scalar (.text content) :: tokens)

/-- What is left of a word behind some of its letters, in reverse, and what
comes after it. -/
inductive InWord
    (letters : List Char) : List Char -> List Token -> Prop
  | intro
      {more rest : List Char}
      {value : Value}
      {tokens : List Token}
      (isWord : IsWord (letters.reverse ++ more) value)
      (areLetters : ∀ c ∈ more, isWordCharacter c = true)
      (isWhole : NoLetter rest)
      (lexes : Lexes rest tokens) :
      InWord letters (more ++ rest) (.scalar value :: tokens)

/-- What is left of the digits of a piece, and what comes after them. -/
inductive InHex
    (pieces : List Piece)
    (missing value : Nat) : List Char -> List Token -> Prop
  | intro
      {digits rest : List Char}
      {values : List Nat}
      {tokens : List Token}
      (areHex : AreHex digits values)
      (areMissing : digits.length = missing + 1)
      (inText : InText (.unit (hexCode value values) :: pieces) rest tokens) :
      InHex pieces missing value (digits ++ rest) tokens

/-- The characters that may follow in a mode, and the tokens that they end. -/
def Mode.GoesOn : Mode -> List Char -> List Token -> Prop
  | .between, chars, tokens => Lexes chars tokens
  | .word letters, chars, tokens => InWord letters chars tokens
  | .text pieces, chars, tokens => InText pieces chars tokens
  | .escape pieces, chars, tokens => InText pieces ('\\' :: chars) tokens
  | .hex pieces missing value, chars, tokens =>
    InHex pieces missing value chars tokens

variable {c : Char} {chars : List Char} {tokens : List Token}
  {pieces : List Piece} {letters : List Char}

/-- A string ends, or it goes on with a piece. -/
theorem inText_iff :
    InText pieces chars tokens ↔
      (∃ rest content others, chars = '\x22' :: rest ∧
        tokens = .scalar (.text content) :: others ∧
        IsContent pieces.reverse content ∧ Lexes rest others) ∨
      ∃ piece written rest, chars = written ++ rest ∧
        piece.IsWritten written ∧ InText (piece :: pieces) rest tokens := by
  constructor
  · rintro ⟨areWritten, isContent, lexes⟩
    cases areWritten with
    | nil =>
        rw [List.append_nil] at isContent
        exact .inl ⟨_, _, _, rfl, rfl, isContent, lexes⟩
    | @cons piece more written inside isWritten areWritten =>
        refine .inr ⟨piece, written, _, List.append_assoc _ _ _, isWritten,
          .intro areWritten ?_ lexes⟩
        rwa [List.reverse_cons, List.append_assoc]
  · rintro (⟨rest, content, others, rfl, rfl, isContent, lexes⟩ |
      ⟨piece, written, rest, rfl, isWritten, inText⟩)
    · rw [← List.append_nil pieces.reverse] at isContent
      exact .intro .nil isContent lexes
    · obtain ⟨areWritten, isContent, lexes⟩ := inText
      rw [List.reverse_cons, List.append_assoc] at isContent
      rw [← List.append_assoc]
      exact .intro (.cons isWritten areWritten) isContent lexes

/-! ## One character -/

/-- What a character outside of strings and words is, or starts. -/
inductive Starts : Char -> List Token -> Mode -> Prop
  | blank
      {c : Char}
      (isBlank : IsBlank c) : Starts c [] .between
  | mark
      {c : Char}
      {token : Token}
      (isMark : IsMark c token) : Starts c [token] .between
  | quote : Starts '\x22' [] (.text [])
  | letter
      {c : Char}
      (isLetter : isWordCharacter c = true) : Starts c [] (.word [c])

theorem start?_eq_some_iff
    {now : List Token}
    {next : Mode} :
    start? c = some (now, next) ↔ Starts c now next := by
  constructor
  · intro starts
    rw [start?] at starts
    split_ifs at starts with isBlank opensArray endsArray opensObject endsObject
      isComma isColon isQuote isLetter <;> cases starts
    · exact .blank isBlank
    · exact opensArray ▸ .mark .beginArray
    · exact endsArray ▸ .mark .endArray
    · exact opensObject ▸ .mark .beginObject
    · exact endsObject ▸ .mark .endObject
    · exact isComma ▸ .mark .comma
    · exact isColon ▸ .mark .colon
    · exact isQuote ▸ .quote
    · exact .letter isLetter
  · intro starts
    cases starts with
    | blank isBlank => exact if_pos isBlank
    | mark isMark => cases isMark <;> rfl
    | quote => rfl
    | letter isLetter =>
        have isOther : ∀ other, isWordCharacter other = false -> c ≠ other := by
          rintro other notLetter rfl
          simp [notLetter] at isLetter
        have notBlank : ¬(c = ' ' ∨ c = '\n' ∨ c = '\t' ∨ c = '\r') := by
          rintro (rfl | rfl | rfl | rfl) <;> cases isLetter
        rw [start?, if_neg notBlank, if_neg (isOther '[' rfl),
          if_neg (isOther ']' rfl), if_neg (isOther '\x7b' rfl),
          if_neg (isOther '\x7d' rfl), if_neg (isOther ',' rfl),
          if_neg (isOther ':' rfl), if_neg (isOther '\x22' rfl),
          if_pos isLetter]

/-- A mode takes a character, and the mode after it goes on. -/
def Mode.Takes
    (mode : Mode)
    (c : Char)
    (chars : List Char)
    (tokens : List Token) : Prop :=
  ∃ now next later, mode.step? c = some (now, next) ∧
    next.GoesOn chars later ∧ tokens = now ++ later

theorem lexes_cons_iff :
    Lexes (c :: chars) tokens ↔ Mode.between.Takes c chars tokens := by
  constructor
  -- The letters of a word are an append, which no case can match with a cons.
  · generalize all_eq : c :: chars = all
    intro lexes
    cases lexes with
    | nil => cases all_eq
    | blank isBlank lexes =>
        cases all_eq
        exact ⟨_, _, _, start?_eq_some_iff.mpr (.blank isBlank), lexes, rfl⟩
    | mark isMark lexes =>
        cases all_eq
        exact ⟨_, _, _, start?_eq_some_iff.mpr (.mark isMark), lexes, rfl⟩
    | text areWritten isContent lexes =>
        cases all_eq
        exact ⟨_, _, _, rfl, .intro areWritten isContent lexes, rfl⟩
    | word isWord isWhole lexes =>
        obtain ⟨first, more, rfl⟩ := List.exists_cons_of_ne_nil isWord.ne_nil
        cases all_eq
        have areLetters := isWord.areLetters
        rw [List.forall_mem_cons] at areLetters
        obtain ⟨isLetter, areLetters⟩ := areLetters
        exact ⟨_, _, _, start?_eq_some_iff.mpr (.letter isLetter),
          .intro isWord areLetters isWhole lexes, rfl⟩
  · rintro ⟨now, next, later, starts, goesOn, rfl⟩
    cases start?_eq_some_iff.mp starts with
    | blank isBlank => exact .blank isBlank goesOn
    | mark isMark => exact .mark isMark goesOn
    | quote =>
        obtain ⟨areWritten, isContent, lexes⟩ := goesOn
        exact .text areWritten isContent lexes
    | letter isLetter =>
        obtain ⟨isWord, _, isWhole, lexes⟩ := goesOn
        rw [← List.cons_append]
        exact .word isWord isWhole lexes

/-- A word goes on with a letter, and ends in front of anything else. -/
theorem inWord_cons_iff :
    InWord letters (c :: chars) tokens ↔
      (Mode.word letters).Takes c chars tokens := by
  constructor
  · generalize all_eq : c :: chars = all
    rintro ⟨isWord, areLetters, isWhole, lexes⟩
    rename_i more rest value others
    cases more with
    | nil =>
        rw [List.append_nil] at isWord
        obtain rfl : c :: chars = rest := all_eq
        have notLetter : ¬isWordCharacter c = true := by simp [isWhole c rfl]
        obtain ⟨now, next, later, starts, goesOn, rfl⟩ :=
          lexes_cons_iff.mp lexes
        refine ⟨.scalar value :: now, next, later, ?_, goesOn, rfl⟩
        rw [Mode.step?] at starts
        rw [Mode.step?, if_neg notLetter, word?_eq_some_iff.mpr isWord, starts]
    | cons d more =>
        cases all_eq
        rw [List.forall_mem_cons] at areLetters
        obtain ⟨isLetter, areLetters⟩ := areLetters
        refine ⟨[], .word (c :: letters), _, if_pos isLetter, ?_, rfl⟩
        refine .intro ?_ areLetters isWhole lexes
        rwa [List.reverse_cons, List.append_assoc]
  · rintro ⟨now, next, later, step, goesOn, rfl⟩
    rw [Mode.step?] at step
    split at step
    · rename_i isLetter
      cases step
      obtain ⟨isWord, areLetters, isWhole, lexes⟩ := goesOn
      rw [List.reverse_cons, List.append_assoc] at isWord
      rw [← List.cons_append]
      refine .intro isWord ?_ isWhole lexes
      exact List.forall_mem_cons.mpr ⟨isLetter, areLetters⟩
    · rename_i notLetter
      split at step
      · rename_i value tokens mode read starts
        cases step
        have isWord := word?_eq_some_iff.mp read
        rw [← List.append_nil letters.reverse] at isWord
        rw [← List.nil_append (c :: chars)]
        refine .intro isWord (by simp) ?_ ?_
        · intro first isFirst
          cases isFirst
          simpa using notLetter
        · exact lexes_cons_iff.mpr ⟨_, _, _, starts, goesOn, rfl⟩
      · cases step

/-- A quote ends a string. -/
theorem inText_quote_iff :
    InText pieces ('\x22' :: chars) tokens ↔
      ∃ content others, tokens = .scalar (.text content) :: others ∧
        IsContent pieces.reverse content ∧ Lexes chars others := by
  rw [inText_iff]
  constructor
  · rintro (⟨rest, content, others, same, rfl, isContent, lexes⟩ |
      ⟨piece, written, rest, same, isWritten, _⟩)
    · cases same
      exact ⟨content, others, rfl, isContent, lexes⟩
    · cases isWritten with
      | plain noQuote => cases same; exact absurd rfl noQuote
      | escaped => cases same
      | unit => cases same
  · rintro ⟨content, others, rfl, isContent, lexes⟩
    exact .inl ⟨_, content, others, rfl, rfl, isContent, lexes⟩

/-- Other characters stand for themselves, unless they are controls. -/
theorem inText_plain_iff
    (noQuote : c ≠ '\x22')
    (noEscape : c ≠ '\\') :
    InText pieces (c :: chars) tokens ↔
      0x20 ≤ c.toNat ∧ InText (.char c :: pieces) chars tokens := by
  rw [inText_iff]
  constructor
  · rintro (⟨rest, content, others, same, _⟩ |
      ⟨piece, written, rest, same, isWritten, inText⟩)
    · cases same
      exact absurd rfl noQuote
    · cases isWritten with
      | plain _ _ visible => cases same; exact ⟨visible, inText⟩
      | escaped => cases same; exact absurd rfl noEscape
      | unit => cases same; exact absurd rfl noEscape
  · rintro ⟨visible, inText⟩
    exact .inr ⟨_, [c], chars, rfl, .plain noQuote noEscape visible, inText⟩

/-- A backslash is in front of the name of a character, or of its code. -/
theorem inText_escape_iff :
    InText pieces ('\\' :: c :: chars) tokens ↔
      (∃ value, IsEscape c value ∧
        InText (.char value :: pieces) chars tokens) ∨
      c = 'u' ∧ InHex pieces 3 0 chars tokens := by
  rw [inText_iff]
  constructor
  · rintro (⟨rest, content, others, same, _⟩ |
      ⟨piece, written, rest, same, isWritten, inText⟩)
    · cases same
    · cases isWritten with
      | plain _ noEscape => cases same; exact absurd rfl noEscape
      | escaped isEscape => cases same; exact .inl ⟨_, isEscape, inText⟩
      | unit areHex areFour =>
          cases same
          exact .inr ⟨rfl, .intro areHex areFour inText⟩
  · rintro (⟨value, isEscape, inText⟩ | ⟨rfl, ⟨areHex, areFour, inText⟩⟩)
    · exact .inr ⟨_, ['\\', c], chars, rfl, .escaped isEscape, inText⟩
    · refine .inr ⟨_, _, _, ?_, .unit areHex areFour, inText⟩
      rfl

/-- A string goes on with a quote, a backslash, or a character that stands for
itself. -/
theorem inText_cons_iff :
    InText pieces (c :: chars) tokens ↔
      (Mode.text pieces).Takes c chars tokens := by
  rw [Mode.Takes, Mode.step?]
  by_cases isQuote : c = '\x22'
  · subst isQuote
    rw [inText_quote_iff, if_pos rfl]
    constructor
    · rintro ⟨content, others, rfl, isContent, lexes⟩
      rw [isContent_iff] at isContent
      subst isContent
      exact ⟨_, _, _, rfl, lexes, rfl⟩
    · rintro ⟨now, next, later, step, goesOn, rfl⟩
      cases step
      exact ⟨_, _, rfl, isContent_iff.mpr rfl, goesOn⟩
  by_cases isEscape : c = '\\'
  · subst isEscape
    rw [if_neg isQuote, if_pos rfl]
    constructor
    · intro inText
      exact ⟨_, _, _, rfl, inText, rfl⟩
    · rintro ⟨now, next, later, step, goesOn, rfl⟩
      cases step
      exact goesOn
  · rw [inText_plain_iff isQuote isEscape, if_neg isQuote, if_neg isEscape]
    constructor
    · rintro ⟨visible, inText⟩
      exact ⟨_, _, _, if_neg (by omega), inText, rfl⟩
    · rintro ⟨now, next, later, step, goesOn, rfl⟩
      split at step
      · cases step
      · cases step
        exact ⟨by omega, goesOn⟩

theorem inEscape_cons_iff :
    InText pieces ('\\' :: c :: chars) tokens ↔
      (Mode.escape pieces).Takes c chars tokens := by
  rw [inText_escape_iff, Mode.Takes, Mode.step?]
  by_cases isUnit : c = 'u'
  · subst isUnit
    rw [if_pos rfl]
    constructor
    · rintro (⟨value, isEscape, _⟩ | ⟨_, inHex⟩)
      · cases isEscape
      · exact ⟨_, _, _, rfl, inHex, rfl⟩
    · rintro ⟨now, next, later, step, goesOn, rfl⟩
      cases step
      exact .inr ⟨rfl, goesOn⟩
  · rw [if_neg isUnit]
    constructor
    · rintro (⟨value, isEscape, inText⟩ | ⟨same, _⟩)
      · refine ⟨[], .text (.char value :: pieces), tokens, ?_, inText, rfl⟩
        rw [escaped?_eq_some_iff.mpr isEscape]
        rfl
      · exact absurd same isUnit
    · rintro ⟨now, next, later, step, goesOn, rfl⟩
      obtain ⟨value, names, same⟩ := Option.map_eq_some_iff.mp step
      cases same
      exact .inl ⟨value, escaped?_eq_some_iff.mp names, goesOn⟩

theorem inHex_cons_iff
    {missing value : Nat} :
    InHex pieces missing value (c :: chars) tokens ↔
      (Mode.hex pieces missing value).Takes c chars tokens := by
  rw [Mode.Takes, Mode.step?]
  constructor
  · generalize all_eq : c :: chars = all
    rintro ⟨areHex, areMissing, inText⟩
    cases areHex with
    | nil => cases areMissing
    | @cons digit code digits values isDigit areHex =>
        cases all_eq
        rw [hexValue?_eq_some_iff.mpr isDigit]
        rw [List.length_cons, Nat.add_right_cancel_iff] at areMissing
        cases missing with
        | zero =>
            obtain rfl := List.length_eq_zero_iff.mp areMissing
            cases areHex
            exact ⟨_, _, _, rfl, inText, rfl⟩
        | succ missing =>
            exact ⟨_, _, _, rfl, .intro areHex areMissing inText, rfl⟩
  · rintro ⟨now, next, later, step, goesOn, rfl⟩
    obtain ⟨code, isValue, same⟩ := Option.map_eq_some_iff.mp step
    have isDigit := hexValue?_eq_some_iff.mp isValue
    cases missing with
    | zero =>
        cases same
        exact .intro (.cons isDigit .nil) rfl goesOn
    | succ missing =>
        cases same
        obtain ⟨areHex, areMissing, inText⟩ := goesOn
        refine .intro (.cons isDigit areHex) ?_ inText
        rw [List.length_cons, areMissing]

/-! ## A whole document -/

/-- What may follow in a mode starts with a character that the mode takes. -/
theorem Mode.goesOn_cons_iff
    {mode : Mode} :
    mode.GoesOn (c :: chars) tokens ↔ mode.Takes c chars tokens := by
  cases mode with
  | between => exact lexes_cons_iff
  | word letters => exact inWord_cons_iff
  | text pieces => exact inText_cons_iff
  | escape pieces => exact inEscape_cons_iff
  | hex pieces missing value => exact inHex_cons_iff

theorem lexes_nil_iff : Lexes [] tokens ↔ tokens = [] := by
  constructor
  · generalize all_eq : [] = all
    intro lexes
    cases lexes with
    | nil => rfl
    | word isWord =>
        exact absurd (List.append_eq_nil_iff.mp all_eq.symm).1 isWord.ne_nil
    | _ => cases all_eq
  · rintro rfl
    exact .nil

theorem inWord_nil_iff :
    InWord letters [] tokens ↔
      ∃ value, IsWord letters.reverse value ∧ tokens = [.scalar value] := by
  constructor
  · generalize all_eq : [] = all
    rintro ⟨isWord, _, _, lexes⟩
    obtain ⟨rfl, rfl⟩ := List.append_eq_nil_iff.mp all_eq.symm
    rw [List.append_nil] at isWord
    rw [lexes_nil_iff.mp lexes]
    exact ⟨_, isWord, rfl⟩
  · rintro ⟨value, isWord, rfl⟩
    rw [← List.append_nil letters.reverse] at isWord
    exact .intro isWord (by simp) (by simp [NoLetter]) .nil

/-- No string ends without a quote. -/
theorem not_inText_of_short
    (short : chars = [] ∨ chars = ['\\']) : ¬InText pieces chars tokens := by
  rw [inText_iff]
  rintro (⟨rest, content, others, rfl, _⟩ |
    ⟨piece, written, rest, rfl, isWritten, _⟩)
  · simp at short
  · cases isWritten with
    | plain _ noEscape => simp [noEscape] at short
    | escaped => simp at short
    | unit => simp at short

/-- A document may end between tokens, or with a word. -/
theorem Mode.goesOn_nil_iff
    {mode : Mode} :
    mode.GoesOn [] tokens ↔ mode.finish? = some tokens := by
  cases mode with
  | between =>
      rw [Mode.GoesOn, Mode.finish?, lexes_nil_iff, Option.some_inj, eq_comm]
  | word letters =>
      rw [Mode.GoesOn, Mode.finish?, inWord_nil_iff, Option.map_eq_some_iff]
      exact exists_congr fun value =>
        and_congr word?_eq_some_iff.symm eq_comm
  | text pieces =>
      exact iff_of_false (not_inText_of_short (.inl rfl)) nofun
  | escape pieces =>
      exact iff_of_false (not_inText_of_short (.inr rfl)) nofun
  | hex pieces missing value =>
      refine iff_of_false ?_ nofun
      rw [Mode.GoesOn]
      generalize all_eq : [] = all
      rintro ⟨_, areMissing, _⟩
      obtain ⟨rfl, _⟩ := List.append_eq_nil_iff.mp all_eq.symm
      cases areMissing

/-- The machine reads exactly what may follow in its mode. -/
theorem tokensFrom?_eq_some_iff
    {mode : Mode} :
    tokensFrom? mode chars = some tokens ↔ mode.GoesOn chars tokens := by
  induction chars generalizing mode tokens with
  | nil => exact Mode.goesOn_nil_iff.symm
  | cons c rest inductionHypothesis =>
      rw [Mode.goesOn_cons_iff, tokensFrom?]
      constructor
      · intro read
        split at read
        · cases read
        · rename_i now next step
          obtain ⟨later, readRest, rfl⟩ := Option.map_eq_some_iff.mp read
          exact ⟨now, next, later, step, inductionHypothesis.mp readRest, rfl⟩
      · rintro ⟨now, next, later, step, goesOn, rfl⟩
        simp only [step, inductionHypothesis.mpr goesOn, Option.map_some]

theorem Lexes.areProper
    (lexes : Lexes chars tokens) : ∀ token ∈ tokens, token.IsProper := by
  induction lexes with
  | nil => simp
  | blank _ _ inductionHypothesis => exact inductionHypothesis
  | mark isMark _ inductionHypothesis =>
      refine List.forall_mem_cons.mpr ⟨?_, inductionHypothesis⟩
      cases isMark <;> trivial
  | text _ _ _ inductionHypothesis =>
      exact List.forall_mem_cons.mpr ⟨trivial, inductionHypothesis⟩
  | word isWord _ _ inductionHypothesis =>
      refine List.forall_mem_cons.mpr ⟨?_, inductionHypothesis⟩
      cases isWord <;> trivial

/-- A document holds the value whose tokens it is written with. -/
theorem Value.ofText?_eq_some_iff
    {document : String}
    {value : Value} :
    ofText? document = some value ↔ Lexes document.toList value.tokens := by
  have lexes_iff : ∀ tokens, tokensFrom? .between document.toList = some tokens ↔
      Lexes document.toList tokens := fun _ => tokensFrom?_eq_some_iff
  rw [ofText?]
  constructor
  · intro held
    split at held
    · cases held
    · rename_i tokens read
      have lexes := (lexes_iff tokens).mp read
      obtain ⟨last, reads, result_eq⟩ := Option.bind_eq_some_iff.mp held
      obtain rfl := Parse.result?_eq_some_iff.mp result_eq
      rwa [← (Parse.reads_initial_iff lexes.areProper).mp reads]
  · intro lexes
    have reads := (Parse.reads_initial_iff lexes.areProper).mpr rfl
    rw [(lexes_iff _).mpr lexes]
    refine Option.bind_eq_some_iff.mpr ⟨_, reads, rfl⟩

end Json
end LockBench
