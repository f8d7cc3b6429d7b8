import LockBench.Proofs.Toml.Grammar
import LockBench.Toml.Writer

/-!
# Texts are written as the grammar has it

A text is written between delimiters of one of four kinds.  The two kinds that
know escapes can hold every text; the other two are only chosen for texts that
need none.
-/

namespace LockBench
namespace Toml

open Grammar

/-! ## Escapes -/

theorem isHex_hexDigit
    {value : Nat}
    (small : value < 16) : IsHex (hexDigit value) value := by
  have digits : ∀ value < 16,
      value < 10 ∧ (hexDigit value).toNat = 0x30 + value ∨
        10 ≤ value ∧ (hexDigit value).toNat = 0x37 + value := by decide
  rcases digits value small with isDigit | isLetter
  · exact .inl isDigit
  · exact .inr ⟨isLetter.1, small, .inl isLetter.2⟩

/-- A number of at most two digits of base sixteen is written with four. -/
theorem hex_hexDigits
    {value : Nat}
    (small : value < 256) :
    Hex 0 ['0', '0', hexDigit (value / 16), hexDigit (value % 16)] value := by
  have zero : IsHex '0' 0 := .inl (by decide)
  have high : IsHex (hexDigit (value / 16)) (value / 16) :=
    isHex_hexDigit (by omega)
  have low : IsHex (hexDigit (value % 16)) (value % 16) :=
    isHex_hexDigit (by omega)
  refine .cons zero (.cons zero (.cons high (.cons low ?_)))
  have value_eq : (((0 * 16 + 0) * 16 + 0) * 16 + value / 16) * 16 +
      value % 16 = value := by omega
  rw [value_eq]
  exact .nil value

theorem isText_of_not_isControl
    {c : Char}
    (noControl : isControl c = false)
    (noLineFeed : c ≠ '\n') : IsText c := by
  by_cases isTab : c = '\t'
  · exact .inl isTab
  · simp only [isControl, isTab, noLineFeed, Bool.or_eq_false_iff,
      Bool.and_eq_false_iff, decide_eq_false_iff_not, ne_eq,
      not_false_eq_true, decide_true, beq_eq_false_iff_ne] at noControl
    exact .inr ⟨by simp at noControl; omega, noControl.2⟩

/-- A character that an escape of its own or by number can name is a piece of
a basic string; others are pieces as they are. -/
theorem basicPiece_escape
    {c : Char}
    (noMark : c ≠ '\x22')
    (noLineFeed : c ≠ '\n')
    (rest : List Char) : BasicPiece (escape c ++ rest) [c] rest := by
  have letter : ∀ letter, (letter, c) ∈ letterEscapes ->
      BasicPiece ('\\' :: letter :: rest) [c] rest := fun _ isEscape =>
    .escaped (.letter isEscape rest)
  rw [escape]
  split
  · exact letter 'b' (by simp_all [letterEscapes])
  split
  · exact letter 't' (by simp_all [letterEscapes])
  split
  · exact letter 'f' (by simp_all [letterEscapes])
  split
  · exact letter 'r' (by simp_all [letterEscapes])
  split
  · exact letter '\\' (by simp_all [letterEscapes])
  split
  · rename_i isControlled
    have small : c.toNat < 128 := by
      simp only [isControl, Bool.or_eq_true, Bool.and_eq_true,
        decide_eq_true_eq, beq_iff_eq] at isControlled
      omega
    exact .escaped (.number (by simp [numberEscapes]) rfl
      (hex_hexDigits (by omega)) rest)
  · rename_i noEscape isControlled
    exact .plain (isText_of_not_isControl (by simpa using isControlled)
      noLineFeed) noMark noEscape rest

/-! ## Bodies -/

theorem line_cons
    {mark c : Char}
    {Piece : List Char -> List Char -> List Char -> Prop}
    {before middle others after : List Char}
    (first : Piece before [c] middle)
    (rest : Line mark Piece middle others after) :
    Line mark Piece before (c :: others) after :=
  .piece first rest

theorem lines_cons
    {mark c : Char}
    {Piece : List Char -> List Char -> List Char -> Prop}
    {marks : Nat}
    {before middle others after : List Char}
    (first : Piece before [c] middle)
    (rest : Lines mark Piece 0 middle others after) :
    Lines mark Piece marks before (c :: others) after :=
  .piece first rest

theorem line_basicBody (chars rest : List Char) :
    Line '\x22' BasicPiece (basicBody chars ++ '\x22' :: rest) chars rest := by
  induction chars with
  | nil => exact .close rest
  | cons c others inductionHypothesis =>
      rw [basicBody, List.flatMap_cons, List.append_assoc]
      refine line_cons ?_ inductionHypothesis
      split
      · rename_i isLineFeed
        exact .escaped (.letter (by simp_all [letterEscapes]) _)
      split
      · rename_i isMark
        exact .escaped (.letter (by simp_all [letterEscapes]) _)
      · rename_i noLineFeed noMark
        exact basicPiece_escape noMark noLineFeed _

theorem line_literal
    {chars : List Char}
    (areText : ∀ c ∈ chars, IsText c ∧ c ≠ '\x27')
    (rest : List Char) :
    Line '\x27' LiteralPiece (chars ++ '\x27' :: rest) chars rest := by
  induction chars with
  | nil => exact .close rest
  | cons c others inductionHypothesis =>
      have first := areText c List.mem_cons_self
      exact line_cons (.plain first.1 first.2 _) (inductionHypothesis
        fun c member => areText c (List.mem_cons_of_mem _ member))

/-- The text of a basic string on several lines never holds three quotes in a
row, for each third one is escaped. -/
theorem lines_multilineBody
    (chars rest : List Char)
    {quotes : Nat}
    (few : quotes ≤ 2) :
    Lines '\x22' BasicPiece quotes
      (multilineBody quotes chars ++ '\x22' :: '\x22' :: '\x22' :: rest) chars
      rest := by
  induction chars generalizing quotes with
  | nil => exact .close quotes rest
  | cons c others inductionHypothesis =>
      rw [multilineBody]
      split
      · rename_i isMark
        subst isMark
        split
        · exact lines_cons (.escaped (.letter (by simp [letterEscapes]) _))
            (inductionHypothesis (Nat.zero_le 2))
        · exact .mark (by omega) (inductionHypothesis (by omega))
      split
      · rename_i isLineFeed
        subst isLineFeed
        exact .lineEnd (.lineFeed _) (inductionHypothesis (Nat.zero_le 2))
      · rename_i noMark noLineFeed
        rw [List.append_assoc]
        exact lines_cons (basicPiece_escape noMark noLineFeed _)
          (inductionHypothesis (Nat.zero_le 2))

theorem le_longestRun
    (mark : Char)
    (current : Nat)
    (chars : List Char) : current ≤ longestRun mark current chars := by
  induction chars generalizing current with
  | nil => exact Nat.le_refl current
  | cons c rest inductionHypothesis =>
      rw [longestRun]
      split
      · exact Nat.le_trans (Nat.le_succ _) (inductionHypothesis (current + 1))
      · exact Nat.le_max_left _ _

theorem not_mem_of_longestRun_eq_zero
    {mark : Char}
    {chars : List Char}
    (noRun : longestRun mark 0 chars = 0) : mark ∉ chars := by
  induction chars with
  | nil => simp
  | cons c rest inductionHypothesis =>
      rw [longestRun] at noRun
      split at noRun
      · have some_run := le_longestRun mark (0 + 1) rest
        omega
      · rename_i noMark
        have rest_run : longestRun mark 0 rest = 0 := by omega
        simp [Ne.symm noMark, inductionHypothesis rest_run]

/-- A text without three quotes in a row can stand in a literal string on
several lines. -/
theorem lines_multilineLiteral
    {chars : List Char}
    (noControl : ∀ c ∈ chars, isControl c = false)
    (rest : List Char)
    {quotes : Nat}
    (few : longestRun '\x27' quotes chars ≤ 2) :
    Lines '\x27' LiteralPiece quotes
      (chars ++ '\x27' :: '\x27' :: '\x27' :: rest) chars rest := by
  induction chars generalizing quotes with
  | nil => exact .close quotes rest
  | cons c others inductionHypothesis =>
      have othersText : ∀ c ∈ others, isControl c = false := fun c member =>
        noControl c (List.mem_cons_of_mem _ member)
      rw [longestRun] at few
      split at few
      · rename_i isMark
        subst isMark
        have atLeast := le_longestRun '\x27' (quotes + 1) others
        exact .mark (by omega) (inductionHypothesis othersText few)
      · rename_i noMark
        have fewer : longestRun '\x27' 0 others ≤ 2 := by omega
        by_cases isLineFeed : c = '\n'
        · subst isLineFeed
          exact .lineEnd (.lineFeed _) (inductionHypothesis othersText fewer)
        · have isText := isText_of_not_isControl
            (noControl c List.mem_cons_self) isLineFeed
          exact lines_cons (.plain isText noMark _)
            (inductionHypothesis othersText fewer)

/-! ## Styles -/

theorem text_basic (chars rest : List Char) :
    Text (StringStyle.basic.write chars ++ rest) chars rest := by
  have line := line_basicBody chars rest
  simpa [StringStyle.write] using Text.basic line

theorem text_literal
    {chars : List Char}
    (areText : ∀ c ∈ chars, IsText c ∧ c ≠ '\x27')
    (rest : List Char) :
    Text (StringStyle.literal.write chars ++ rest) chars rest := by
  have line := line_literal areText rest
  simpa [StringStyle.write] using Text.literal line

theorem not_lineEnd_cons
    {c : Char}
    (noLineFeed : c ≠ '\n')
    (noReturn : c ≠ '\r')
    (rest text after : List Char) : ¬LineEnd (c :: rest) text after := by
  intro ends
  cases ends with
  | lineFeed => exact noLineFeed rfl
  | carriageReturn => exact noReturn rfl

theorem not_lineEnd_escape
    {c : Char}
    (noLineFeed : c ≠ '\n')
    (rest text after : List Char) :
    ¬LineEnd (escape c ++ rest) text after := by
  have noBackslash := not_lineEnd_cons (c := '\\') (by decide) (by decide)
  rw [escape]
  split
  · exact noBackslash _ _ _
  split
  · exact noBackslash _ _ _
  split
  · exact noBackslash _ _ _
  split
  · exact noBackslash _ _ _
  split
  · exact noBackslash _ _ _
  split
  · exact noBackslash _ _ _
  · rename_i noReturn _ _
    exact not_lineEnd_cons noLineFeed noReturn _ _ _

/-- A text without a line feed is not written with a line end at its start. -/
theorem not_lineEnd_multilineBody
    {chars : List Char}
    (noLineFeed : '\n' ∉ chars)
    (rest text after : List Char) :
    ¬LineEnd (multilineBody 0 chars ++ '\x22' :: rest) text after := by
  have noMark := not_lineEnd_cons (c := '\x22') (by decide) (by decide)
  cases chars with
  | nil => exact noMark _ _ _
  | cons c others =>
      have isOther : c ≠ '\n' := by
        rintro rfl
        simp at noLineFeed
      rw [multilineBody]
      split
      · exact noMark _ _ _
      · rw [List.append_assoc]
        exact not_lineEnd_escape isOther _ _ _

/-- Neither does a text that is written as it is. -/
theorem not_lineEnd_literal
    {chars : List Char}
    (noControl : ∀ c ∈ chars, isControl c = false)
    (noLineFeed : '\n' ∉ chars)
    (rest text after : List Char) :
    ¬LineEnd (chars ++ '\x27' :: rest) text after := by
  cases chars with
  | nil => exact not_lineEnd_cons (by decide) (by decide) _ _ _
  | cons c others =>
      have isOther : c ≠ '\n' := by
        rintro rfl
        simp at noLineFeed
      have noReturn : c ≠ '\r' := by
        rintro rfl
        exact absurd (noControl '\r' List.mem_cons_self) (by decide)
      exact not_lineEnd_cons isOther noReturn _ _ _

/-- The line end that a text of several lines starts with is put there by the
writer. -/
theorem opened_of_contains
    {chars body : List Char}
    (noEnd : '\n' ∉ chars -> ∀ text after, ¬LineEnd body text after) :
    Opened ((if chars.contains '\n' then ['\n'] else []) ++ body) body := by
  split
  · exact .trimmed (.lineFeed body)
  · rename_i noLineFeed
    exact .plain (noEnd (by simpa using noLineFeed))

theorem text_multilineBasic (chars rest : List Char) :
    Text (StringStyle.multilineBasic.write chars ++ rest) chars rest := by
  have lines := lines_multilineBody chars rest (Nat.zero_le 2)
  have opened : Opened _ (multilineBody 0 chars ++
      '\x22' :: '\x22' :: '\x22' :: rest) :=
    opened_of_contains fun noLineFeed =>
      not_lineEnd_multilineBody noLineFeed _
  simpa [StringStyle.write] using Text.multilineBasic opened lines

theorem text_multilineLiteral
    {chars : List Char}
    (noControl : ∀ c ∈ chars, isControl c = false)
    (few : longestRun '\x27' 0 chars ≤ 2)
    (rest : List Char) :
    Text (StringStyle.multilineLiteral.write chars ++ rest) chars rest := by
  have lines := lines_multilineLiteral noControl rest few
  have opened : Opened _ (chars ++ '\x27' :: '\x27' :: '\x27' :: rest) :=
    opened_of_contains fun noLineFeed =>
      not_lineEnd_literal noControl noLineFeed _
  simpa [StringStyle.write] using Text.multilineLiteral opened lines

/-- The style that is chosen for a text can hold it. -/
theorem text_style (chars rest : List Char) :
    Text ((StringStyle.of chars).write chars ++ rest) chars rest := by
  have noControls : (Traits.of chars).control = false ->
      ∀ c ∈ chars, isControl c = false := by
    simp [Traits.of]
  rw [StringStyle.of]
  split
  · exact text_basic chars rest
  split
  · exact text_basic chars rest
  split
  · rename_i traits
    simp only [Bool.and_eq_true, Bool.not_eq_true', decide_eq_true_eq]
      at traits
    obtain ⟨⟨noControl, noLineFeed⟩, noRun⟩ := traits
    refine text_literal (fun c member => ⟨?_, ?_⟩) rest
    · refine isText_of_not_isControl (noControls noControl c member) ?_
      rintro rfl
      simp [Traits.of, member] at noLineFeed
    · rintro rfl
      have noRun : longestRun '\x27' 0 chars = 0 := by
        simp only [Traits.of] at noRun
        omega
      exact not_mem_of_longestRun_eq_zero noRun member
  split
  · exact text_multilineBasic chars rest
  split
  · rename_i traits
    simp only [Bool.and_eq_true, Bool.not_eq_true', decide_eq_true_eq]
      at traits
    have few : longestRun '\x27' 0 chars ≤ 2 := by
      have few := traits.2
      simp only [Traits.of] at few
      omega
    exact text_multilineLiteral (noControls traits.1) few rest
  split
  · exact text_multilineBasic chars rest
  · exact text_basic chars rest

theorem text_writeString
    (text : String)
    (rest : List Char) :
    Text ((writeString text).toList ++ rest) text.toList rest := by
  rw [writeString, String.toList_ofList]
  exact text_style text.toList rest

end Toml
end LockBench
