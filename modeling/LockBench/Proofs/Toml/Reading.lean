import LockBench.Proofs.Toml.Strings
import LockBench.Toml.Reader

/-!
# Documents are read as the grammar says

The grammar lets a production stop wherever its rule permits; the reader stops
at one place.  They meet where the next character belongs to no longer token:
`EndsToken` says so of what follows a value, and `StartsToken` of what follows
spaces.  It follows that the grammar derives no document in two ways.
-/

namespace LockBench
namespace Toml

open Grammar

/-! ## Separators -/

/-- What is left is no separator and no comment. -/
def StartsToken (chars : List Char) : Prop :=
  ∀ c ∈ chars.head?,
    c ≠ ' ' ∧ c ≠ '\t' ∧ c ≠ '\n' ∧ c ≠ '\r' ∧ c ≠ '#'

/-- What is left goes on with no value. -/
def EndsToken (chars : List Char) : Prop :=
  ∀ c ∈ chars.head?,
    c = ' ' ∨ c = '\t' ∨ c = '\n' ∨ c = '\r' ∨ c = ',' ∨ c = ']'

theorem isSpace_iff (c : Char) : isSpace c = true ↔ c = ' ' ∨ c = '\t' := by
  simp [isSpace]

theorem skipSpaces_eq_self
    {chars : List Char}
    (starts : StartsToken chars) : skipSpaces chars = chars := by
  cases chars with
  | nil => rfl
  | cons c rest =>
      have noSpace := starts c rfl
      rw [skipSpaces, List.dropWhile_cons_of_neg]
      simp [isSpace_iff, noSpace]

theorem skipSpaces_eq
    {before after : List Char}
    (spaces : Spaces before after) : skipSpaces before = skipSpaces after := by
  induction spaces with
  | none rest => rfl
  | more isSpace spaces inductionHypothesis =>
      rw [skipSpaces, List.dropWhile_cons_of_pos ((isSpace_iff _).mpr isSpace)]
      exact inductionHypothesis

theorem skipBreaks?_eq_some_self
    {chars : List Char}
    (starts : StartsToken chars) : skipBreaks? false chars = some chars := by
  rw [skipBreaks?.eq_def]
  split
  · rfl
  · have := starts _ rfl
    simp_all
  · have := starts _ rfl
    simp_all
  · have := starts _ rfl
    simp_all [isSpace_iff]

theorem skipBreaks?_space
    {c : Char}
    (isSpace : c = ' ' ∨ c = '\t')
    (rest : List Char) :
    skipBreaks? false (c :: rest) = skipBreaks? false rest := by
  rcases isSpace with rfl | rfl <;> simp [skipBreaks?, Toml.isSpace]

theorem skipBreaks?_lineEnd
    {before text after : List Char}
    (ends : LineEnd before text after) :
    skipBreaks? false before = skipBreaks? false after := by
  cases ends <;> simp [skipBreaks?]

theorem skipBreaks?_spaces
    {before after : List Char}
    (spaces : Spaces before after) :
    skipBreaks? false before = skipBreaks? false after := by
  induction spaces with
  | none rest => rfl
  | more isSpace spaces inductionHypothesis =>
      rw [skipBreaks?_space isSpace, inductionHypothesis]

theorem skipBreaks?_breaks
    {before after : List Char}
    (breaks : Breaks before after) :
    skipBreaks? false before = skipBreaks? false after := by
  induction breaks with
  | none rest => rfl
  | space isSpace breaks inductionHypothesis =>
      rw [skipBreaks?_space isSpace, inductionHypothesis]
  | lineEnd ends breaks inductionHypothesis =>
      rw [skipBreaks?_lineEnd ends, inductionHypothesis]

theorem endLine?_space
    {c : Char}
    (isSpace : c = ' ' ∨ c = '\t')
    (rest : List Char) :
    endLine? false (c :: rest) = endLine? false rest := by
  rcases isSpace with rfl | rfl <;> simp [endLine?, Toml.isSpace]

theorem endLine?_spaces
    {before after : List Char}
    (spaces : Spaces before after) :
    endLine? false before = endLine? false after := by
  induction spaces with
  | none rest => rfl
  | more isSpace spaces inductionHypothesis =>
      rw [endLine?_space isSpace, inductionHypothesis]

theorem endLine?_lineEnd
    {before text after : List Char}
    (ends : LineEnd before text after) :
    endLine? false before = some after := by
  cases ends <;> simp [endLine?]

theorem endsToken_of_lineEnd
    {before text after : List Char}
    (ends : LineEnd before text after) : EndsToken before := by
  cases ends <;> simp [EndsToken]

theorem endsToken_of_spaces
    {before after : List Char}
    (spaces : Spaces before after)
    (ends : EndsToken after) : EndsToken before := by
  cases spaces with
  | none rest => exact ends
  | more isSpace spaces =>
      rcases isSpace with rfl | rfl <;> simp [EndsToken]

theorem endsToken_of_breaks
    {before after : List Char}
    (breaks : Breaks before after)
    (ends : EndsToken after) : EndsToken before := by
  cases breaks with
  | none rest => exact ends
  | space isSpace breaks =>
      rcases isSpace with rfl | rfl <;> simp [EndsToken]
  | lineEnd lineEnds breaks => exact endsToken_of_lineEnd lineEnds

/-! ## Counts -/

section Counts

variable {digits : List Char}

theorem digits?_eq_some
    (someDigit : digits ≠ [])
    (areDigits : ∀ c ∈ digits, c.isDigit = true) :
    digits? Char.isDigit digits = some digits := by
  induction digits with
  | nil => exact absurd rfl someDigit
  | cons c rest inductionHypothesis =>
      have isDigit := areDigits c List.mem_cons_self
      have others : ∀ c ∈ rest, c.isDigit = true := fun c member =>
        areDigits c (List.mem_cons_of_mem _ member)
      cases rest with
      | nil => simp [digits?, isDigit]
      | cons next rest =>
          have notUnderscore : next ≠ '_' := by
            rintro rfl
            exact absurd (others '_' List.mem_cons_self) (by decide)
          rw [digits?.eq_def]
          split
          · simp_all
          · simp_all
          · simp_all
          · rename_i chars_eq
            obtain ⟨rfl, rfl⟩ := List.cons.inj chars_eq
            rw [if_pos isDigit, inductionHypothesis (by simp) others]
            rfl

theorem valueIn_ten
    (areDigits : ∀ c ∈ digits, c.isDigit = true) :
    valueIn 10 digits = Nat.ofDigitChars 10 digits 0 := by
  have from_eq : ∀ value, digits.foldl
      (fun value c =>
        value * 10 +
          (if c.isDigit then c.toNat - 48 else c.toLower.toNat - 87)) value =
        Nat.ofDigitChars 10 digits value := by
    induction digits with
    | nil => simp
    | cons c rest inductionHypothesis =>
        intro value
        rw [List.foldl_cons, Nat.ofDigitChars_cons,
          if_pos (areDigits c List.mem_cons_self), Nat.mul_comm]
        exact inductionHypothesis
          (fun c member => areDigits c (List.mem_cons_of_mem _ member)) _
  exact from_eq 0

theorem wholeDigits?_eq_some
    (someDigit : digits ≠ [])
    (areDigits : ∀ c ∈ digits, c.isDigit = true)
    (noZero : digits = ['0'] ∨ digits.head? ≠ some '0') :
    wholeDigits? digits = some digits := by
  rw [wholeDigits?.eq_def]
  split
  · simp at noZero
  · exact digits?_eq_some someDigit areDigits

theorem integer?_eq_some
    (someDigit : digits ≠ [])
    (areDigits : ∀ c ∈ digits, c.isDigit = true)
    (noZero : digits = ['0'] ∨ digits.head? ≠ some '0') :
    integer? digits = some (Nat.ofDigitChars 10 digits 0 : Nat) := by
  have noBase : basedMagnitude? digits = none := by
    rw [basedMagnitude?.eq_def]
    split
    · simp at areDigits
    · simp at areDigits
    · simp at areDigits
    · rfl
  have noSign : splitSign digits = (false, digits) := by
    rw [splitSign.eq_def]
    split
    · simp at areDigits
    · simp at areDigits
    · rfl
  rw [integer?, noBase, noSign]
  simp [wholeDigits?_eq_some someDigit areDigits noZero, valueIn_ten areDigits]

/-- Digits are no date. -/
theorem date?_eq_none
    (areDigits : ∀ c ∈ digits, c.isDigit = true) : date? digits = none := by
  rw [date?]
  cases year : fixedDigits? 4 digits with
  | none => rfl
  | some read =>
      obtain ⟨year, rest⟩ := read
      have rest_eq : rest = digits.drop 4 := by
        rw [fixedDigits?] at year
        grind
      have noDash : ∀ further, rest ≠ '-' :: further := by
        rintro further rfl
        have member : '-' ∈ digits.drop 4 := by simp [← rest_eq]
        exact absurd (areDigits _ (List.mem_of_mem_drop member)) (by decide)
      simp only [Option.bind_eq_bind, Option.bind_some]

theorem scalarValue?_eq_some
    (someDigit : digits ≠ [])
    (areDigits : ∀ c ∈ digits, c.isDigit = true)
    (noZero : digits = ['0'] ∨ digits.head? ≠ some '0') :
    scalarValue? digits =
      some (.integer (Nat.ofDigitChars 10 digits 0 : Nat)) := by
  have notTrue : digits ≠ "true".toList := by
    rintro rfl
    simp at areDigits
  have notFalse : digits ≠ "false".toList := by
    rintro rfl
    simp at areDigits
  rw [scalarValue?, if_neg notTrue, if_neg notFalse,
    integer?_eq_some someDigit areDigits noZero]
  rfl

/-- The word at digits that a separator follows is these digits. -/
theorem scalarWord_eq
    (areDigits : ∀ c ∈ digits, c.isDigit = true)
    {rest : List Char}
    (ends : EndsToken rest) : scalarWord (digits ++ rest) = (digits, rest) := by
  have areScalar : ∀ c ∈ digits, isScalarCharacter c = true := fun c member => by
    simp [isScalarCharacter, Char.isAlphanum, areDigits c member]
  have taken : rest.takeWhile isScalarCharacter = [] ∧
      rest.dropWhile isScalarCharacter = rest := by
    cases rest with
    | nil => simp
    | cons c rest =>
        have noScalar : isScalarCharacter c = false := by
          rcases ends c rfl with rfl | rfl | rfl | rfl | rfl | rfl <;> decide
        simp [noScalar]
  rw [scalarWord, List.takeWhile_append_of_pos areScalar,
    List.dropWhile_append_of_pos areScalar, taken.1, taken.2, List.append_nil]
  split
  · rw [if_neg (by simp [date?_eq_none areDigits])]
  · rfl

end Counts

/-! ## Values -/

/-- The characters of separators end no string. -/
theorem EndsToken.ne_mark
    {chars : List Char}
    (ends : EndsToken chars) :
    chars.head? ≠ some '\x22' ∧ chars.head? ≠ some '\x27' := by
  constructor <;>
  · intro starts
    have := ends _ starts
    simp at this

theorem exists_of_text
    {before text after : List Char}
    (written : Text before text after) :
    ∃ mark rest, before = mark :: rest ∧ (mark = '\x22' ∨ mark = '\x27') := by
  cases written with
  | basic line => exact ⟨_, _, rfl, .inl rfl⟩
  | literal line => exact ⟨_, _, rfl, .inr rfl⟩
  | multilineBasic opened lines => exact ⟨_, _, rfl, .inl rfl⟩
  | multilineLiteral opened lines => exact ⟨_, _, rfl, .inr rfl⟩

theorem exists_of_count
    {before after : List Char}
    {value : Nat}
    (written : Count before value after) :
    ∃ digit rest, before = digit :: rest ∧ digit.isDigit = true := by
  cases written with
  | @digits digits someDigit areDigits noZero =>
      cases digits with
      | nil => exact absurd rfl someDigit
      | cons digit others =>
          exact ⟨digit, others ++ after, rfl, areDigits _ List.mem_cons_self⟩

/-- What starts no scalar. -/
theorem startsToken_of_scalar
    {before after : List Char}
    {value : Value}
    (written : Scalar before value after) :
    StartsToken before ∧ ∃ c rest, before = c :: rest ∧ c ≠ ']' := by
  cases written with
  | text written =>
      obtain ⟨mark, rest, rfl, rfl | rfl⟩ := exists_of_text written <;>
      · exact ⟨by simp [StartsToken], _, _, rfl, by decide⟩
  | integer written =>
      obtain ⟨digit, rest, rfl, isDigit⟩ := exists_of_count written
      have isNot : ∀ c : Char, c.isDigit = false -> digit ≠ c := by
        rintro c noDigit rfl
        exact absurd isDigit (by simp [noDigit])
      refine ⟨fun c starts => ?_, _, _, rfl, isNot _ (by decide)⟩
      obtain rfl : digit = c := by simpa using starts
      exact ⟨isNot _ (by decide), isNot _ (by decide), isNot _ (by decide),
        isNot _ (by decide), isNot _ (by decide)⟩

theorem length_lt_of_scalar
    {before after : List Char}
    {value : Value}
    (written : Scalar before value after) : after.length < before.length := by
  cases written with
  | text written => exact length_lt_of_text written
  | integer written =>
      cases written with
      | digits someDigit areDigits noZero =>
          have someDigits := List.length_pos_iff.mpr someDigit
          rw [List.length_append]
          omega

theorem value?_text
    {before after text : List Char}
    (written : Text before text after)
    (ends : EndsToken after)
    (depth : Nat) :
    value? depth before = some (.text (String.ofList text), after) := by
  have read := string?_eq_some written ends.ne_mark.1 ends.ne_mark.2
  obtain ⟨mark, rest, rfl, isMark⟩ := exists_of_text written
  have noOpening : mark ≠ '[' ∧ mark ≠ '\x7b' := by
    rcases isMark with rfl | rfl <;> decide
  rw [value?]
  · rw [if_pos isMark, read]
    rfl
  · exact noOpening.1
  · exact noOpening.2

theorem value?_count
    {before after : List Char}
    {value : Nat}
    (written : Count before value after)
    (ends : EndsToken after)
    (depth : Nat) : value? depth before = some (.integer value, after) := by
  obtain ⟨digit, rest, before_eq, isDigit⟩ := exists_of_count written
  have noOther : ¬(digit = '\x22' ∨ digit = '\x27') ∧ digit ≠ '[' ∧
      digit ≠ '\x7b' := by
    refine ⟨?_, ?_, ?_⟩
    · rintro (rfl | rfl) <;> simp at isDigit
    · rintro rfl
      simp at isDigit
    · rintro rfl
      simp at isDigit
  rw [before_eq, value?, if_neg noOther.1, ← before_eq]
  · cases written with
    | digits someDigit areDigits noZero =>
        rw [scalarWord_eq areDigits ends]
        simp only [scalarValue?_eq_some someDigit areDigits noZero]
        rfl
  · exact noOther.2.1
  · exact noOther.2.2

/-- A scalar is read at every depth. -/
theorem value?_scalar
    {before after : List Char}
    {value : Value}
    (written : Scalar before value after)
    (ends : EndsToken after)
    (depth : Nat) : value? depth before = some (value, after) := by
  cases written with
  | text written => exact value?_text written ends depth
  | integer written => exact value?_count written ends depth

theorem length_le_of_breaks
    {before after : List Char}
    (breaks : Breaks before after) : after.length ≤ before.length := by
  induction breaks with
  | none rest => exact Nat.le_refl _
  | space isSpace breaks inductionHypothesis =>
      exact Nat.le_trans inductionHypothesis (Nat.le_succ _)
  | lineEnd ends breaks inductionHypothesis =>
      exact Nat.le_trans inductionHypothesis
        (Nat.le_of_lt (length_lt_of_lineEnd ends))

/-- One step of an array: an item, and what decides whether another
follows. -/
theorem arrayRest?_item
    {item : List Char -> Option (Value × List Char)}
    {before start stop : List Char}
    {value : Value}
    (breaks : Breaks before start)
    (scalar : Scalar start value stop)
    (reads : item start = some (value, stop))
    (steps : Nat) :
    arrayRest? item (steps + 1) before = (do
      match ← skipBreaks? false stop with
      | ',' :: further => do
        let (items, after) ← arrayRest? item steps further
        return (value :: items, after)
      | ']' :: after => return ([value], after)
      | _ => none) := by
  obtain ⟨starts, c, rest, rfl, noClosing⟩ := startsToken_of_scalar scalar
  rw [arrayRest?, skipBreaks?_breaks breaks, skipBreaks?_eq_some_self starts]
  simp only [Option.bind_eq_bind, Option.bind_some]
  split
  · rename_i start_eq
    exact absurd (List.cons.inj start_eq).1 noClosing
  · rw [reads]
    rfl

/-- An array is read if its items are. -/
theorem arrayRest?_eq_some
    {item : List Char -> Option (Value × List Char)}
    (reads : ∀ before value after, Scalar before value after ->
      EndsToken after -> item before = some (value, after))
    {before after : List Char}
    {values : List Value}
    (items : Items before values after)
    {steps : Nat}
    (enough : before.length < steps) :
    arrayRest? item steps before = some (values, after) := by
  induction items generalizing steps with
  | close breaks =>
      cases steps with
      | zero => omega
      | succ steps =>
          rw [arrayRest?, skipBreaks?_breaks breaks,
            skipBreaks?_eq_some_self (by simp [StartsToken])]
          rfl
  | last breaks scalar closing =>
      cases steps with
      | zero => omega
      | succ steps =>
          have ends := endsToken_of_breaks closing (by simp [EndsToken])
          rw [arrayRest?_item breaks scalar (reads _ _ _ scalar ends),
            skipBreaks?_breaks closing,
            skipBreaks?_eq_some_self (by simp [StartsToken])]
          rfl
  | item breaks scalar comma rest inductionHypothesis =>
      cases steps with
      | zero => omega
      | succ steps =>
          have ends := endsToken_of_breaks comma (by simp [EndsToken])
          have skipped := length_le_of_breaks breaks
          have shorter := length_lt_of_scalar scalar
          have skippedAfter := length_le_of_breaks comma
          rw [List.length_cons] at skippedAfter
          rw [arrayRest?_item breaks scalar (reads _ _ _ scalar ends),
            skipBreaks?_breaks comma,
            skipBreaks?_eq_some_self (by simp [StartsToken])]
          simp only [Option.bind_eq_bind, Option.bind_some]
          rw [inductionHypothesis (by omega)]
          rfl

theorem value?_eq_some
    {before after : List Char}
    {value : Value}
    (written : Val before value after)
    (ends : EndsToken after)
    (depth : Nat) : value? (depth + 1) before = some (value, after) := by
  cases written with
  | scalar written => exact value?_scalar written ends (depth + 1)
  | array items =>
      rw [value?, arrayRest?_eq_some
        (fun _ _ _ scalar ends => value?_scalar scalar ends depth) items
        (Nat.lt_succ_self _)]
      rfl

theorem length_lt_of_items
    {before after : List Char}
    {values : List Value}
    (items : Items before values after) : after.length < before.length := by
  induction items with
  | close breaks => exact length_le_of_breaks breaks
  | last breaks scalar closing =>
      have skipped := length_le_of_breaks breaks
      have shorter := length_lt_of_scalar scalar
      have skippedAfter := length_le_of_breaks closing
      rw [List.length_cons] at skippedAfter
      omega
  | item breaks scalar comma rest inductionHypothesis =>
      have skipped := length_le_of_breaks breaks
      have shorter := length_lt_of_scalar scalar
      have skippedAfter := length_le_of_breaks comma
      rw [List.length_cons] at skippedAfter
      omega

theorem length_lt_of_val
    {before after : List Char}
    {value : Value}
    (written : Val before value after) : after.length < before.length := by
  cases written with
  | scalar written => exact length_lt_of_scalar written
  | array items => exact Nat.lt_succ_of_lt (length_lt_of_items items)

/-! ## Statements -/

theorem isBareKey_iff (c : Char) : isBareKey c = true ↔ IsKeyCharacter c := by
  simp only [isBareKey, IsKeyCharacter, Bool.or_eq_true, decide_eq_true_eq]
  grind

theorem startsToken_of_isKeyCharacter
    {c : Char}
    (isBare : IsKeyCharacter c)
    (rest : List Char) : StartsToken (c :: rest) := by
  intro head starts
  obtain rfl : c = head := by simpa using starts
  refine ⟨?_, ?_, ?_, ?_, ?_⟩ <;>
  · rintro rfl
    simp [IsKeyCharacter] at isBare

theorem exists_of_key
    {before after : List Char}
    {name : String}
    (key : Key before name after) :
    ∃ c rest, before = c :: rest ∧ IsKeyCharacter c := by
  cases key with
  | @bare name someCharacter areBare =>
      cases name with
      | nil => exact absurd rfl someCharacter
      | cons c others =>
          exact ⟨c, others ++ after, rfl, areBare _ List.mem_cons_self⟩

theorem keyPart?_eq_some
    {before after : List Char}
    {name : String}
    (key : Key before name after)
    (noBare : ∀ c ∈ after.head?, isBareKey c = false) :
    keyPart? before = some (name, after) := by
  cases key with
  | @bare name someCharacter areBare =>
      have areKey : ∀ c ∈ name, isBareKey c = true := fun c member =>
        (isBareKey_iff c).mpr (areBare c member)
      have taken : after.takeWhile isBareKey = [] ∧
          after.dropWhile isBareKey = after := by
        cases after with
        | nil => simp
        | cons c rest => simp [noBare c rfl]
      rw [keyPart?, List.takeWhile_append_of_pos areKey,
        List.dropWhile_append_of_pos areKey, taken.1, taken.2, List.append_nil]
      cases name with
      | nil => exact absurd rfl someCharacter
      | cons c others => rfl

/-- A bare key is read up to the character that follows it. -/
theorem key?_eq_some
    {before start afterKey after : List Char}
    {name : String}
    {c : Char}
    (spacesBefore : Spaces before start)
    (key : Key start name afterKey)
    (spaces : Spaces afterKey (c :: after))
    (follows : c = '=' ∨ c = ']') :
    key? before = some ([name], c :: after) := by
  have startsKey : StartsToken start := by
    obtain ⟨first, rest, rfl, isBare⟩ := exists_of_key key
    exact startsToken_of_isKeyCharacter isBare rest
  have skipped : skipSpaces afterKey = c :: after := by
    rw [skipSpaces_eq spaces]
    apply skipSpaces_eq_self
    rcases follows with rfl | rfl <;> simp [StartsToken]
  have noBare : ∀ first ∈ afterKey.head?, isBareKey first = false := by
    cases spaces with
    | none => rcases follows with rfl | rfl <;> simp [isBareKey]
    | more isSpace => rcases isSpace with rfl | rfl <;> simp [isBareKey]
  rw [key?, depthLimit, keyWithin?, skipSpaces_eq spacesBefore,
    skipSpaces_eq_self startsKey, keyPart?_eq_some key noBare]
  simp only [Option.bind_eq_bind, Option.bind_some, skipped]
  rcases follows with rfl | rfl <;> rfl

theorem exists_of_stated
    {before after : List Char}
    {statement : Statement}
    (stated : Stated before statement after) :
    ∃ c rest, before = c :: rest ∧ (c = '[' ∨ IsKeyCharacter c) := by
  cases stated with
  | assign key sign spaces written =>
      obtain ⟨c, rest, rfl, isBare⟩ := exists_of_key key
      exact ⟨c, rest, rfl, .inr isBare⟩
  | table spaces key closing => exact ⟨_, _, rfl, .inl rfl⟩

theorem startsToken_of_stated
    {before after : List Char}
    {statement : Statement}
    (stated : Stated before statement after) : StartsToken before := by
  obtain ⟨c, rest, rfl, rfl | isBare⟩ := exists_of_stated stated
  · simp [StartsToken]
  · exact startsToken_of_isKeyCharacter isBare rest

theorem startsToken_of_val
    {before after : List Char}
    {value : Value}
    (written : Val before value after) : StartsToken before := by
  cases written with
  | scalar written => exact (startsToken_of_scalar written).1
  | array items => simp [StartsToken]

theorem statement?_eq_some
    {before after : List Char}
    {statement : Statement}
    (stated : Stated before statement after)
    (ends : EndsToken after) :
    statement? before = some (statement, after) := by
  cases stated with
  | assign key sign spaces written =>
      have read := key?_eq_some (.none _) key sign (.inl rfl)
      obtain ⟨c, rest, rfl, isBare⟩ := exists_of_key key
      have noBracket : c ≠ '[' := by
        rintro rfl
        simp [IsKeyCharacter] at isBare
      rw [statement?, read]
      · simp only [Option.bind_eq_bind, Option.bind_some]
        rw [skipSpaces_eq spaces,
          skipSpaces_eq_self (startsToken_of_val written), depthLimit,
          value?_eq_some written ends]
        rfl
      · intro _ start_eq
        exact absurd (List.cons.inj start_eq).1 noBracket
      · intro _ start_eq
        exact absurd (List.cons.inj start_eq).1 noBracket
  | @table inner _ _ _ _ spaces key closing =>
      have read := key?_eq_some spaces key closing (.inr rfl)
      -- A second bracket would be no space and no character of a key.
      have noBracket : ∀ rest, inner ≠ '[' :: rest := by
        rintro rest rfl
        cases spaces with
        | more isSpace => simp at isSpace
        | none =>
            obtain ⟨c, rest, start_eq, isBare⟩ := exists_of_key key
            obtain ⟨rfl, -⟩ := List.cons.inj start_eq
            simp [IsKeyCharacter] at isBare
      rw [statement?, read]
      · rfl
      · exact noBracket

/-! ## Documents -/

theorem length_le_of_spaces
    {before after : List Char}
    (spaces : Spaces before after) : after.length ≤ before.length := by
  induction spaces with
  | none rest => exact Nat.le_refl _
  | more isSpace spaces inductionHypothesis =>
      exact Nat.le_trans inductionHypothesis (Nat.le_succ _)

theorem length_le_of_key
    {before after : List Char}
    {name : String}
    (key : Key before name after) : after.length ≤ before.length := by
  cases key with
  | bare someCharacter areBare => simp

theorem length_lt_of_stated
    {before after : List Char}
    {statement : Statement}
    (stated : Stated before statement after) :
    after.length < before.length := by
  cases stated with
  | assign key sign spaces written =>
      have named := length_le_of_key key
      have signed := length_le_of_spaces sign
      have spaced := length_le_of_spaces spaces
      have shorter := length_lt_of_val written
      rw [List.length_cons] at signed
      omega
  | table spaces key closing =>
      have spaced := length_le_of_spaces spaces
      have named := length_le_of_key key
      have closed := length_le_of_spaces closing
      rw [List.length_cons] at closed ⊢
      omega

/-- An expression that states something is not empty. -/
theorem length_le_of_expression
    {before after : List Char}
    {statement : Option Statement}
    (expression : Expression before statement after) :
    after.length + statement.toList.length ≤ before.length := by
  cases expression with
  | blank spaces => exact length_le_of_spaces spaces
  | stated spaces stated others =>
      have spaced := length_le_of_spaces spaces
      have shorter := length_lt_of_stated stated
      have spacedAfter := length_le_of_spaces others
      simp only [Option.toList_some, List.length_singleton]
      omega

/-- The rest of a document after one of its expressions. -/
theorem statements?_expression
    {before after rest : List Char}
    {statement : Statement}
    (expression : Expression before (some statement) after)
    (ends : EndsToken after)
    (ended : endLine? false after = some rest)
    (steps : Nat) :
    statements? (steps + 1) before =
      (statements? steps rest).map (statement :: ·) := by
  cases expression with
  | stated spaces stated others =>
      rw [statements?, skipBreaks?_spaces spaces,
        skipBreaks?_eq_some_self (startsToken_of_stated stated)]
      obtain ⟨c, first, rfl, -⟩ := exists_of_stated stated
      simp only [Option.bind_eq_bind, Option.bind_some]
      rw [statement?_eq_some stated (endsToken_of_spaces others ends)]
      simp only [Option.bind_some]
      rw [endLine?_spaces others, ended, Option.bind_some]
      cases statements? steps rest <;> rfl

/-- The statements of a document are read. -/
theorem statements?_eq_some
    {document : List Char}
    {statements : List Statement}
    (derived : Document document statements)
    {steps : Nat}
    (enough : document.length < steps) :
    statements? steps document = some statements := by
  induction derived generalizing steps with
  | @last before statement expression =>
      cases steps with
      | zero => omega
      | succ steps =>
          cases statement with
          | none =>
              cases expression with
              | blank spaces =>
                  rw [statements?, skipBreaks?_spaces spaces]
                  rfl
          | some statement =>
              have notLonger := length_le_of_expression expression
              simp only [Option.toList_some, List.length_singleton]
                at notLonger
              obtain ⟨further, rfl⟩ : ∃ further, steps = further + 1 :=
                ⟨steps - 1, by omega⟩
              rw [statements?_expression expression (by simp [EndsToken]) rfl]
              rfl
  | @more before middle text after statement statements expression ends rest
      inductionHypothesis =>
      cases steps with
      | zero => omega
      | succ steps =>
          have shorter := length_lt_of_lineEnd ends
          have notLonger := length_le_of_expression expression
          cases statement with
          | none =>
              cases expression with
              | blank spaces =>
                  -- A blank line is passed over within the step that reads
                  -- what follows it.
                  rw [Option.toList_none, List.nil_append,
                    ← @inductionHypothesis (steps + 1) (by omega),
                    statements?, statements?, skipBreaks?_spaces spaces,
                    skipBreaks?_lineEnd ends]
          | some statement =>
              rw [statements?_expression expression
                (endsToken_of_lineEnd ends) (endLine?_lineEnd ends),
                inductionHypothesis (by omega)]
              rfl

/-- The byte order mark is no space. -/
theorem head?_ne_of_spaces
    {before after : List Char}
    (spaces : Spaces before after)
    (noMark : after.head? ≠ some '\uFEFF') :
    before.head? ≠ some '\uFEFF' := by
  cases spaces with
  | none rest => exact noMark
  | more isSpace spaces => rcases isSpace with rfl | rfl <;> simp

theorem head?_ne_of_expression
    {before after : List Char}
    {statement : Option Statement}
    (expression : Expression before statement after)
    (noMark : after.head? ≠ some '\uFEFF') :
    before.head? ≠ some '\uFEFF' := by
  cases expression with
  | blank spaces => exact head?_ne_of_spaces spaces noMark
  | stated spaces stated others =>
      apply head?_ne_of_spaces spaces
      obtain ⟨c, rest, rfl, rfl | isBare⟩ := exists_of_stated stated
      · simp
      · rintro isMark
        obtain rfl : c = '\uFEFF' := by simpa using isMark
        simp [IsKeyCharacter] at isBare

/-- No document starts with a byte order mark. -/
theorem dropMark_eq_self
    {document : List Char}
    {statements : List Statement}
    (derived : Document document statements) :
    dropMark document = document := by
  have noMark : document.head? ≠ some '\uFEFF' := by
    cases derived with
    | last expression => exact head?_ne_of_expression expression (by simp)
    | more expression ends rest =>
        apply head?_ne_of_expression expression
        cases ends <;> simp
  rw [dropMark.eq_def]
  split
  · simp at noMark
  · rfl

theorem read?_eq_entriesOf?
    {document : String}
    {statements : List Statement}
    (derived : Document document.toList statements) :
    read? document = entriesOf? statements := by
  rw [read?]
  simp only [dropMark_eq_self derived]
  rw [statements?_eq_some derived (Nat.lt_succ_self _)]
  rfl

/-- A document has no other entries than those that are read. -/
theorem read?_eq_some
    {document : String}
    {entries : Entries}
    (holds : Holds document entries) : read? document = some entries := by
  obtain ⟨statements, derived, made⟩ := holds
  rw [read?_eq_entriesOf? derived, made]

end Toml
end LockBench
