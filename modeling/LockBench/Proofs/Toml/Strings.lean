import LockBench.Proofs.Toml.Grammar
import LockBench.Toml.Scan

/-!
# Strings are read as the grammar says

Whatever the grammar derives as a string is read as that string, if no
delimiter follows it.  The scanners of both kinds of strings on several lines
agree on where such a string ends: at the last of three to five delimiters in
a row.
-/

namespace LockBench
namespace Toml

open Grammar

/-! ## Escapes -/

theorem isPrintable_iff (c : Char) : isPrintable c = true ↔ IsText c := by
  simp [isPrintable, IsText]

theorem hexDigitValue?_eq_some
    {c : Char}
    {value : Nat}
    (isHex : IsHex c value) : hexDigitValue? c = some value := by
  have le_iff : ∀ left right : Char, left ≤ right ↔
      left.toNat ≤ right.toNat := fun _ _ => Iff.rfl
  have isDigit_iff : c.isDigit = true ↔ 48 ≤ c.toNat ∧ c.toNat ≤ 57 := by
    simp [Char.isDigit, UInt32.le_iff_toNat_le]
  have numbers : 'a'.toNat = 97 ∧ 'f'.toNat = 102 ∧ 'A'.toNat = 65 ∧
      'F'.toNat = 70 := by decide
  rw [hexDigitValue?]
  simp only [isDigit_iff, le_iff, numbers]
  rcases isHex with ⟨small, number⟩ | ⟨large, small, number | number⟩
  · rw [if_pos (by omega), number]
    simp
  · rw [if_neg (by omega), if_neg (by omega), if_pos (by omega), number]
    simp
  · rw [if_neg (by omega), if_pos (by omega), number]
    simp

/-- Digits of the grammar have the number that the scanner computes. -/
theorem foldlM_hexDigitValue?
    {before value : Nat}
    {digits : List Char}
    (isNumber : Hex before digits value) :
    digits.foldlM
      (fun value c => (hexDigitValue? c).map (value * 16 + ·)) before =
        some value := by
  induction isNumber with
  | nil value => rfl
  | cons isHex rest inductionHypothesis =>
      rw [List.foldlM_cons, hexDigitValue?_eq_some isHex]
      exact inductionHypothesis

theorem scalar?_eq_some
    {digits : List Char}
    {c : Char}
    (isNumber : Hex 0 digits c.toNat) : scalar? digits = some c := by
  rw [scalar?, foldlM_hexDigitValue? isNumber]
  have valid : c.toNat.isValidChar := c.valid
  simp [valid]

theorem escape?_eq_some
    {before after : List Char}
    {c : Char}
    (escape : Escape before c after) : escape? before = some (c, after) := by
  cases escape with
  | letter isEscape rest =>
      simp only [letterEscapes, List.mem_cons, Prod.mk.injEq, List.not_mem_nil,
        or_false] at isEscape
      rcases isEscape with ⟨rfl, rfl⟩ | ⟨rfl, rfl⟩ | ⟨rfl, rfl⟩ | ⟨rfl, rfl⟩ |
        ⟨rfl, rfl⟩ | ⟨rfl, rfl⟩ | ⟨rfl, rfl⟩ <;> rfl
  | @number mark _ count digits isEscape counted isNumber after =>
      have numbered_eq : escape?.numbered count (digits ++ after) =
          some (c, after) := by
        rw [escape?.numbered, if_neg (by simp [counted]),
          List.take_left' counted, List.drop_left' counted,
          scalar?_eq_some isNumber]
        rfl
      simp only [numberEscapes, List.mem_cons, Prod.mk.injEq, List.not_mem_nil,
        or_false] at isEscape
      rcases isEscape with ⟨rfl, rfl⟩ | ⟨rfl, rfl⟩ <;> exact numbered_eq

theorem length_lt_of_escape
    {before after : List Char}
    {c : Char}
    (escape : Escape before c after) : after.length < before.length := by
  cases escape with
  | letter isEscape rest => simp
  | number isEscape counted isNumber rest =>
      rw [List.length_cons, List.length_append]
      omega

/-! ## Strings on one line -/

theorem length_lt_of_basicPiece
    {before text after : List Char}
    (piece : BasicPiece before text after) :
    after.length < before.length := by
  cases piece with
  | plain isText noMark noEscape rest => simp
  | escaped escape =>
      have shorter := length_lt_of_escape escape
      simp only [List.length_cons]
      omega

/-- A piece of a basic string is read by one step of the scanner. -/
theorem basicRest?_piece
    {before text middle : List Char}
    (piece : BasicPiece before text middle)
    (steps : Nat) :
    basicRest? (steps + 1) before =
      (basicRest? steps middle).map fun (others, after) =>
        (text ++ others, after) := by
  cases piece with
  | plain isText noMark noEscape rest =>
      rw [basicRest?, if_neg noMark, if_neg noEscape,
        if_pos ((isPrintable_iff _).mpr isText)]
      cases basicRest? steps middle <;> rfl
  | escaped escape =>
      rw [basicRest?, if_neg (by decide), if_pos rfl, escape?_eq_some escape]
      simp only [Option.bind_eq_bind, Option.bind_some]
      cases basicRest? steps middle <;> rfl

theorem basicRest?_eq_some
    {before text after : List Char}
    (line : Line '\x22' BasicPiece before text after)
    {steps : Nat}
    (enough : before.length ≤ steps) :
    basicRest? steps before = some (text, after) := by
  induction line generalizing steps with
  | close rest =>
      cases steps with
      | zero => simp at enough
      | succ steps => rw [basicRest?, if_pos rfl]
  | piece first rest inductionHypothesis =>
      have shorter := length_lt_of_basicPiece first
      cases steps with
      | zero => omega
      | succ steps =>
          rw [basicRest?_piece first, inductionHypothesis (by omega)]
          rfl

theorem literalRest?_eq_some
    {before text after : List Char}
    (line : Line '\x27' LiteralPiece before text after) :
    literalRest? before = some (text, after) := by
  induction line with
  | close rest => rw [literalRest?, if_pos rfl]
  | piece first rest inductionHypothesis =>
      cases first with
      | plain isText noMark rest =>
          rw [literalRest?, if_neg noMark,
            if_pos ((isPrintable_iff _).mpr isText), inductionHypothesis]
          rfl

/-! ## Strings on several lines -/

theorem length_lt_of_lineEnd
    {before text after : List Char}
    (ends : LineEnd before text after) : after.length < before.length := by
  cases ends with
  | lineFeed rest => simp
  | carriageReturn rest =>
      simp only [List.length_cons]
      omega

section Closing

variable {mark : Char} {rest : List Char}

theorem closing?_of_head?_ne
    (noMark : rest.head? ≠ some mark) : closing? mark rest = none := by
  match rest with
  | [] | [_] | [_, _] => rfl
  | a :: b :: c :: further =>
      have different : a ≠ mark := by simpa using noMark
      simp [closing?, different]

theorem closing?_three
    (noMark : rest.head? ≠ some mark) :
    closing? mark (mark :: mark :: mark :: rest) = some ([], rest) := by
  match rest with
  | [] => simp [closing?]
  | [d] =>
      have different : d ≠ mark := by simpa using noMark
      simp [closing?, different]
  | d :: e :: further =>
      have different : d ≠ mark := by simpa using noMark
      simp [closing?, different]

theorem closing?_four
    (noMark : rest.head? ≠ some mark) :
    closing? mark (mark :: mark :: mark :: mark :: rest) =
      some ([mark], rest) := by
  match rest with
  | [] => simp [closing?]
  | d :: further =>
      have different : d ≠ mark := by simpa using noMark
      simp [closing?, different]

theorem closing?_five :
    closing? mark (mark :: mark :: mark :: mark :: mark :: rest) =
      some ([mark, mark], rest) := by
  simp [closing?]

/-- Only three delimiters in a row end a string. -/
theorem exists_of_closing?_eq_some
    {chars : List Char}
    {ended : List Char × List Char}
    (closes : closing? mark chars = some ended) :
    ∃ rest, chars = mark :: mark :: mark :: rest := by
  match chars with
  | [] | [_] | [_, _] => simp [closing?] at closes
  | a :: b :: c :: rest =>
      simp only [closing?] at closes
      split at closes
      · rename_i areMarks
        obtain ⟨rfl, rfl, rfl⟩ := areMarks
        exact ⟨rest, rfl⟩
      · cases closes

end Closing

/-- A scanner takes strings on several lines apart as the grammar does: it
looks for the end first, and takes one piece where there is none. -/
structure TakesLines
    (mark : Char)
    (Piece : List Char -> List Char -> List Char -> Prop)
    (scan? : Nat -> List Char -> Option (List Char × List Char)) : Prop where
  /-- The delimiter ends no line. -/
  noLineEnd : mark ≠ '\n' ∧ mark ≠ '\r'
  /-- No piece starts with the delimiter. -/
  noMark : ∀ before text after, Piece before text after ->
    before.head? ≠ some mark
  /-- A piece is not empty. -/
  shorter : ∀ before text after, Piece before text after ->
    after.length < before.length
  /-- The end is looked for first. -/
  closes : ∀ steps chars ended, closing? mark chars = some ended ->
    scan? (steps + 1) chars = some ended
  /-- A delimiter that ends nothing belongs to the text. -/
  mark : ∀ steps rest, closing? mark (mark :: rest) = none ->
    scan? (steps + 1) (mark :: rest) =
      (scan? steps rest).map fun (others, after) => (mark :: others, after)
  /-- A piece is taken in one step. -/
  piece : ∀ steps before text middle, Piece before text middle ->
    scan? (steps + 1) before =
      (scan? steps middle).map fun (others, after) => (text ++ others, after)
  /-- So is a line end. -/
  lineEnd : ∀ steps before text middle, LineEnd before text middle ->
    scan? (steps + 1) before =
      (scan? steps middle).map fun (others, after) => (text ++ others, after)

namespace TakesLines

variable {mark : Char} {Piece : List Char -> List Char -> List Char -> Prop}
  {scan? : Nat -> List Char -> Option (List Char × List Char)}
  {before text after : List Char}

theorem head?_ne_of_lineEnd
    (takes : TakesLines mark Piece scan?)
    (ends : LineEnd before text after) : before.head? ≠ some mark := by
  cases ends with
  | lineFeed rest => simpa using takes.noLineEnd.1.symm
  | carriageReturn rest => simpa using takes.noLineEnd.2.symm

/-- Where two delimiters follow one that belongs to the text, at most one more
of them does. -/
theorem closing?_eq_some
    (takes : TakesLines mark Piece scan?)
    (noMark : after.head? ≠ some mark)
    {marks : Nat}
    (few : marks < 2)
    (lines : Lines mark Piece (marks + 1) (mark :: mark :: before) text
      after) :
    closing? mark (mark :: mark :: mark :: before) =
      some (mark :: text, after) := by
  cases lines with
  | close _ rest => exact closing?_four noMark
  | piece first rest => exact absurd rfl (takes.noMark _ _ _ first)
  | lineEnd ends rest => exact absurd rfl (takes.head?_ne_of_lineEnd ends)
  | mark fewer rest =>
      cases rest with
      | close _ rest => exact closing?_five
      | piece first rest => exact absurd rfl (takes.noMark _ _ _ first)
      | lineEnd ends rest => exact absurd rfl (takes.head?_ne_of_lineEnd ends)
      | mark fewest rest => omega

/-- The scanner reads what the grammar derives. -/
theorem scan?_eq_some
    (takes : TakesLines mark Piece scan?)
    {marks : Nat}
    (lines : Lines mark Piece marks before text after)
    (noMark : after.head? ≠ some mark)
    {steps : Nat}
    (enough : before.length ≤ steps) :
    scan? steps before = some (text, after) := by
  induction lines generalizing steps with
  | close marks rest =>
      cases steps with
      | zero => simp at enough
      | succ steps => exact takes.closes _ _ _ (closing?_three noMark)
  | mark few rest inductionHypothesis =>
      rename_i marks before text after
      cases steps with
      | zero => simp at enough
      | succ steps =>
          cases closes : closing? mark (mark :: before) with
          | none =>
              rw [takes.mark _ _ closes,
                inductionHypothesis noMark (by simpa using enough)]
              rfl
          | some ended =>
              obtain ⟨further, further_eq⟩ := exists_of_closing?_eq_some closes
              obtain rfl : before = mark :: mark :: further := by
                simpa using further_eq
              exact takes.closes _ _ _ (takes.closing?_eq_some noMark few rest)
  | piece first rest inductionHypothesis =>
      have shorter := takes.shorter _ _ _ first
      cases steps with
      | zero => omega
      | succ steps =>
          rw [takes.piece _ _ _ _ first, inductionHypothesis noMark (by omega)]
          rfl
  | lineEnd ends rest inductionHypothesis =>
      have shorter := length_lt_of_lineEnd ends
      cases steps with
      | zero => omega
      | succ steps =>
          rw [takes.lineEnd _ _ _ _ ends,
            inductionHypothesis noMark (by omega)]
          rfl

end TakesLines

/-- A character of a text that starts neither an end nor an escape. -/
theorem multilineBasicRest?_plain
    {c : Char}
    (isText : IsText c ∨ c = '\n')
    (noEscape : c ≠ '\\')
    {rest : List Char}
    (noClosing : closing? '\x22' (c :: rest) = none)
    (steps : Nat) :
    multilineBasicRest? (steps + 1) (c :: rest) =
      (multilineBasicRest? steps rest).map fun (others, after) =>
        (c :: others, after) := by
  have notReturn : c ≠ '\r' := by
    rintro rfl
    simp [IsText] at isText
  rw [← isPrintable_iff] at isText
  rw [multilineBasicRest?.eq_def]
  simp only [noClosing]
  split
  · simp_all
  · simp_all
  · rename_i c' rest' _ _ chars_eq
    obtain ⟨rfl, rfl⟩ := List.cons.inj chars_eq
    rw [if_pos isText]
    cases multilineBasicRest? steps rest <;> rfl
  · simp_all

theorem takesLines_multilineBasicRest? :
    TakesLines '\x22' BasicPiece multilineBasicRest? where
  noLineEnd := by decide
  noMark before text after piece := by
    cases piece with
    | plain isText noMark noEscape rest => simpa using noMark
    | escaped escape => simp
  shorter before text after := length_lt_of_basicPiece
  closes steps chars ended closes := by
    rw [multilineBasicRest?.eq_def]
    simp only [closes]
  mark steps rest noClosing :=
    multilineBasicRest?_plain (.inl (by simp [IsText])) (by decide) noClosing
      steps
  piece steps before text middle piece := by
    cases piece with
    | plain isText noMark noEscape rest =>
        exact multilineBasicRest?_plain (.inl isText) noEscape
          (closing?_of_head?_ne (by simpa using noMark)) steps
    | @escaped c before after escape =>
        have noClosing : closing? '\x22' ('\\' :: before) = none :=
          closing?_of_head?_ne (by simp)
        rw [multilineBasicRest?.eq_def]
        simp only [noClosing, escape?_eq_some escape]
        cases multilineBasicRest? steps middle <;> rfl
  lineEnd steps before text middle ends := by
    cases ends with
    | lineFeed rest =>
        exact multilineBasicRest?_plain (.inr rfl) (by decide)
          (closing?_of_head?_ne (by simp)) steps
    | carriageReturn rest =>
        have noClosing : closing? '\x22' ('\r' :: '\n' :: middle) = none :=
          closing?_of_head?_ne (by simp)
        rw [multilineBasicRest?.eq_def]
        simp only [noClosing]
        cases multilineBasicRest? steps middle <;> rfl

/-- A character of a text that starts no end. -/
theorem multilineLiteralRest?_plain
    {c : Char}
    (isText : IsText c ∨ c = '\n')
    {rest : List Char}
    (noClosing : closing? '\x27' (c :: rest) = none)
    (steps : Nat) :
    multilineLiteralRest? (steps + 1) (c :: rest) =
      (multilineLiteralRest? steps rest).map fun (others, after) =>
        (c :: others, after) := by
  have notReturn : c ≠ '\r' := by
    rintro rfl
    simp [IsText] at isText
  rw [← isPrintable_iff] at isText
  rw [multilineLiteralRest?.eq_def]
  simp only [noClosing]
  split
  · simp_all
  · rename_i c' rest' _ chars_eq
    obtain ⟨rfl, rfl⟩ := List.cons.inj chars_eq
    rw [if_pos isText]
    cases multilineLiteralRest? steps rest <;> rfl
  · simp_all

theorem takesLines_multilineLiteralRest? :
    TakesLines '\x27' LiteralPiece multilineLiteralRest? where
  noLineEnd := by decide
  noMark before text after piece := by
    cases piece with
    | plain isText noMark rest => simpa using noMark
  shorter before text after piece := by
    cases piece with
    | plain isText noMark rest => simp
  closes steps chars ended closes := by
    rw [multilineLiteralRest?.eq_def]
    simp only [closes]
  mark steps rest noClosing :=
    multilineLiteralRest?_plain (.inl (by simp [IsText])) noClosing steps
  piece steps before text middle piece := by
    cases piece with
    | plain isText noMark rest =>
        exact multilineLiteralRest?_plain (.inl isText)
          (closing?_of_head?_ne (by simpa using noMark)) steps
  lineEnd steps before text middle ends := by
    cases ends with
    | lineFeed rest =>
        exact multilineLiteralRest?_plain (.inr rfl)
          (closing?_of_head?_ne (by simp)) steps
    | carriageReturn rest =>
        have noClosing : closing? '\x27' ('\r' :: '\n' :: middle) = none :=
          closing?_of_head?_ne (by simp)
        rw [multilineLiteralRest?.eq_def]
        simp only [noClosing]
        cases multilineLiteralRest? steps middle <;> rfl

/-! ## Strings of any style -/

theorem length_lt_of_line
    {mark : Char}
    {Piece : List Char -> List Char -> List Char -> Prop}
    (shorter : ∀ before text after, Piece before text after ->
      after.length < before.length)
    {before text after : List Char}
    (line : Line mark Piece before text after) :
    after.length < before.length := by
  induction line with
  | close rest => simp
  | piece first rest inductionHypothesis =>
      exact Nat.lt_trans inductionHypothesis (shorter _ _ _ first)

theorem length_lt_of_lines
    {mark : Char}
    {Piece : List Char -> List Char -> List Char -> Prop}
    (shorter : ∀ before text after, Piece before text after ->
      after.length < before.length)
    {marks : Nat}
    {before text after : List Char}
    (lines : Lines mark Piece marks before text after) :
    after.length < before.length := by
  induction lines with
  | close marks rest =>
      simp only [List.length_cons]
      omega
  | mark few rest inductionHypothesis =>
      simp only [List.length_cons]
      omega
  | piece first rest inductionHypothesis =>
      exact Nat.lt_trans inductionHypothesis (shorter _ _ _ first)
  | lineEnd ends rest inductionHypothesis =>
      exact Nat.lt_trans inductionHypothesis (length_lt_of_lineEnd ends)

theorem dropFirstBreak_eq
    {before body : List Char}
    (opened : Opened before body) : dropFirstBreak before = body := by
  cases opened with
  | trimmed ends => cases ends <;> rfl
  | plain noEnd =>
      rw [dropFirstBreak.eq_def]
      split
      · exact absurd (.lineFeed _) (noEnd _ _)
      · exact absurd (.carriageReturn _) (noEnd _ _)
      · rfl

theorem length_le_of_opened
    {before body : List Char}
    (opened : Opened before body) : body.length ≤ before.length := by
  cases opened with
  | trimmed ends => exact Nat.le_of_lt (length_lt_of_lineEnd ends)
  | plain noEnd => exact Nat.le_refl _

theorem length_lt_of_text
    {before text after : List Char}
    (written : Text before text after) : after.length < before.length := by
  cases written with
  | basic line =>
      have shorter := length_lt_of_line
        takesLines_multilineBasicRest?.shorter line
      simp only [List.length_cons]
      omega
  | literal line =>
      have shorter := length_lt_of_line
        takesLines_multilineLiteralRest?.shorter line
      simp only [List.length_cons]
      omega
  | multilineBasic opened lines =>
      have shorter := length_lt_of_lines
        takesLines_multilineBasicRest?.shorter lines
      have notLonger := length_le_of_opened opened
      simp only [List.length_cons]
      omega
  | multilineLiteral opened lines =>
      have shorter := length_lt_of_lines
        takesLines_multilineLiteralRest?.shorter lines
      have notLonger := length_le_of_opened opened
      simp only [List.length_cons]
      omega

/-- Two delimiters at the start of a line are a string that a delimiter
follows. -/
theorem ne_of_line
    {mark : Char}
    {Piece : List Char -> List Char -> List Char -> Prop}
    (noMark : ∀ before text after, Piece before text after ->
      before.head? ≠ some mark)
    {before text after : List Char}
    (line : Line mark Piece before text after)
    (follows : after.head? ≠ some mark)
    (rest : List Char) : before ≠ mark :: mark :: rest := by
  rintro rfl
  cases line with
  | close rest => exact follows rfl
  | piece first rest => exact noMark _ _ _ first rfl

theorem string?_eq_some
    {before text after : List Char}
    (written : Text before text after)
    (noBasic : after.head? ≠ some '\x22')
    (noLiteral : after.head? ≠ some '\x27') :
    string? before = some (text, after) := by
  cases written with
  | multilineBasic opened lines =>
      have shorter := length_le_of_opened opened
      simp only [string?, dropFirstBreak_eq opened]
      exact takesLines_multilineBasicRest?.scan?_eq_some lines noBasic
        (by omega)
  | multilineLiteral opened lines =>
      have shorter := length_le_of_opened opened
      simp only [string?, dropFirstBreak_eq opened]
      exact takesLines_multilineLiteralRest?.scan?_eq_some lines noLiteral
        (by omega)
  | @basic before _ _ line =>
      have noThree := ne_of_line takesLines_multilineBasicRest?.noMark line
        noBasic
      rw [string?.eq_def]
      split
      · rename_i rest chars_eq
        exact absurd (List.cons.inj chars_eq).2 (noThree rest)
      · rename_i chars_eq
        cases chars_eq
      · exact basicRest?_eq_some line (Nat.le_succ _)
  | @literal before _ _ line =>
      have noThree := ne_of_line takesLines_multilineLiteralRest?.noMark line
        noLiteral
      rw [string?.eq_def]
      split
      · rename_i chars_eq
        cases chars_eq
      · rename_i rest chars_eq
        exact absurd (List.cons.inj chars_eq).2 (noThree rest)
      · exact literalRest?_eq_some line

end Toml
end LockBench
