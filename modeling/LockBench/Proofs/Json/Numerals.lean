import LockBench.Json.Token
import Mathlib.Data.List.TakeWhile

/-!
# Words of a document

A word is a literal or a numeral.  A numeral is written as a sign where it is
negative, digits without a needless zero in front, digits behind a point, and an
exponent.
-/

namespace LockBench
namespace Json

/-! ## Digits -/

/-- Some digits, and how they are written. -/
structure AreDigits
    (digits : List Nat)
    (chars : List Char) : Prop where
  someDigit : digits ≠ []
  lt_ten : ∀ digit ∈ digits, digit < 10
  chars_eq : chars = digits.map Nat.digitChar

theorem isDigit_digitChar
    {digit : Nat}
    (small : digit < 10) : digit.digitChar.isDigit = true := by
  simp [Nat.isDigit_digitChar, small]

theorem toNat_digitChar
    {digit : Nat}
    (small : digit < 10) : digit.digitChar.toNat - 48 = digit := by
  rw [Nat.toNat_digitChar_of_lt_ten small]
  omega

theorem toNat_of_isDigit
    {c : Char}
    (isDigit : c.isDigit = true) :
    c.toNat - 48 < 10 ∧ (c.toNat - 48).digitChar = c := by
  have bounds : 48 ≤ c.toNat ∧ c.toNat ≤ 57 := by
    simpa [Char.isDigit, UInt32.le_iff_toNat_le] using isDigit
  refine ⟨by omega, Char.toNat_inj.mp ?_⟩
  rw [Nat.toNat_digitChar_of_lt_ten (by omega)]
  omega

/-- Nothing starts with a digit. -/
def NoDigit (chars : List Char) : Prop :=
  ∀ c ∈ chars.head?, c.isDigit = false

/-- The digits in front are taken, up to what is none. -/
theorem takeDigits_eq_iff
    {chars rest : List Char}
    {digits : List Nat} :
    takeDigits chars = (digits, rest) ↔
      (∀ digit ∈ digits, digit < 10) ∧
        chars = digits.map Nat.digitChar ++ rest ∧ NoDigit rest := by
  constructor
  · intro taken
    cases taken
    have areDigits : ∀ c ∈ chars.takeWhile Char.isDigit, c.isDigit = true :=
      fun c member => List.mem_takeWhile_imp member
    refine ⟨?_, ?_, ?_⟩
    · rw [List.forall_mem_map]
      exact fun c member => (toNat_of_isDigit (areDigits c member)).1
    · have written_eq : ((chars.takeWhile Char.isDigit).map
          fun c => c.toNat - 48).map Nat.digitChar =
            chars.takeWhile Char.isDigit := by
        rw [List.map_map]
        refine (List.map_congr_left fun c member => ?_).trans (List.map_id _)
        exact (toNat_of_isDigit (areDigits c member)).2
      rw [written_eq, List.takeWhile_append_dropWhile]
    · intro c isHead
      have stops := List.head?_dropWhile_not Char.isDigit chars
      rw [Option.mem_def.mp isHead] at stops
      simpa using stops
  · rintro ⟨small, rfl, noDigit⟩
    have areDigits : ∀ c ∈ digits.map Nat.digitChar, c.isDigit = true := by
      rw [List.forall_mem_map]
      exact fun digit member => isDigit_digitChar (small digit member)
    have stops : rest.takeWhile Char.isDigit = [] ∧
        rest.dropWhile Char.isDigit = rest := by
      cases rest with
      | nil => exact ⟨rfl, rfl⟩
      | cons c others =>
          have isNone : c.isDigit = false := noDigit c rfl
          simp [isNone]
    have digits_eq : (digits.map Nat.digitChar).map (fun c => c.toNat - 48) =
        digits := by
      rw [List.map_map]
      refine (List.map_congr_left fun digit member => ?_).trans (List.map_id _)
      exact toNat_digitChar (small digit member)
    rw [takeDigits, List.takeWhile_append_of_pos areDigits,
      List.dropWhile_append_of_pos areDigits, stops.1, stops.2,
      List.append_nil, digits_eq]

theorem takeDigits_append
    {digits : List Nat}
    {chars rest : List Char}
    (areDigits : AreDigits digits chars)
    (noDigit : NoDigit rest) : takeDigits (chars ++ rest) = (digits, rest) := by
  rw [takeDigits_eq_iff, areDigits.chars_eq]
  exact ⟨areDigits.lt_ten, rfl, noDigit⟩

theorem exists_of_takeDigits
    {digits : List Nat}
    {chars rest : List Char}
    (taken : takeDigits chars = (digits, rest))
    (someDigit : digits ≠ []) :
    ∃ written, chars = written ++ rest ∧ AreDigits digits written := by
  obtain ⟨small, chars_eq, _⟩ := takeDigits_eq_iff.mp taken
  exact ⟨_, chars_eq, ⟨someDigit, small, rfl⟩⟩

theorem AreDigits.eq_cons
    {digits : List Nat}
    {chars : List Char}
    (areDigits : AreDigits digits chars) :
    ∃ c rest, chars = c :: rest ∧ c.isDigit = true := by
  obtain ⟨someDigit, small, rfl⟩ := areDigits
  obtain ⟨digit, rest, rfl⟩ := List.exists_cons_of_ne_nil someDigit
  exact ⟨_, _, rfl, isDigit_digitChar (small digit List.mem_cons_self)⟩

/-! ## Exponents -/

/-- The sign of an exponent, and whether it makes it negative. -/
inductive IsSign : Bool -> List Char -> Prop
  | absent : IsSign false []
  | plus : IsSign false ['+']
  | minus : IsSign true ['-']

/-- An exponent, and how it is written at the end of a numeral. -/
inductive IsExponent : Option (Bool × List Nat) -> List Char -> Prop
  | absent : IsExponent none []
  | present
      {mark : Char}
      {negative : Bool}
      {digits : List Nat}
      {sign chars : List Char}
      (isMark : mark = 'e' ∨ mark = 'E')
      (isSign : IsSign negative sign)
      (areDigits : AreDigits digits chars) :
      IsExponent (some (negative, digits)) (mark :: (sign ++ chars))

theorem exponentDigits?_eq_some_iff
    {negative : Bool}
    {chars : List Char}
    {exponent : Option (Bool × List Nat)} :
    exponentDigits? negative chars = some exponent ↔
      ∃ digits, exponent = some (negative, digits) ∧ AreDigits digits chars := by
  constructor
  · intro isExponent
    rw [exponentDigits?] at isExponent
    split at isExponent
    · cases isExponent
    · rename_i digits someDigit taken
      cases isExponent
      obtain ⟨written, rfl, areDigits⟩ := exists_of_takeDigits taken someDigit
      exact ⟨digits, rfl, by rwa [List.append_nil]⟩
    · cases isExponent
  · rintro ⟨digits, rfl, areDigits⟩
    rw [exponentDigits?, ← List.append_nil chars,
      takeDigits_append areDigits (by simp [NoDigit])]
    obtain ⟨digit, rest, rfl⟩ := List.exists_cons_of_ne_nil areDigits.someDigit
    rfl

theorem exponent?_eq_some_iff
    {chars : List Char}
    {exponent : Option (Bool × List Nat)} :
    exponent? chars = some exponent ↔ IsExponent exponent chars := by
  constructor
  · intro isExponent
    rw [exponent?.eq_def] at isExponent
    split at isExponent
    · cases isExponent
      exact .absent
    split at isExponent
    · rename_i mark rest isMark
      split at isExponent <;>
        obtain ⟨digits, rfl, areDigits⟩ :=
          exponentDigits?_eq_some_iff.mp isExponent
      · exact .present isMark .plus areDigits
      · exact .present isMark .minus areDigits
      · exact .present isMark .absent areDigits
    · cases isExponent
  · intro isExponent
    cases isExponent with
    | absent => rfl
    | @present mark negative digits sign chars isMark isSign areDigits =>
        have read : exponentDigits? negative chars =
            some (some (negative, digits)) :=
          exponentDigits?_eq_some_iff.mpr ⟨digits, rfl, areDigits⟩
        cases isSign with
        | plus => exact (if_pos isMark).trans read
        | minus => exact (if_pos isMark).trans read
        | absent =>
            refine (if_pos isMark).trans ?_
            obtain ⟨c, rest, rfl, isDigit⟩ := areDigits.eq_cons
            rw [List.nil_append]
            split
            · rename_i same
              cases same
              cases isDigit
            · rename_i same
              cases same
              cases isDigit
            · exact read

/-! ## Numerals -/

/-- The digits behind a point, and how they are written. -/
inductive IsFraction : Option (List Nat) -> List Char -> Prop
  | absent : IsFraction none []
  | present
      {digits : List Nat}
      {chars : List Char}
      (areDigits : AreDigits digits chars) :
      IsFraction (some digits) ('.' :: chars)

namespace Numeral

/-- A numeral without its sign, and how it is written.  No zero is in front of
other digits. -/
inductive IsUnsigned (numeral : Numeral) : List Char -> Prop
  | intro
      {whole fraction exponent : List Char}
      (areDigits : AreDigits numeral.whole whole)
      (noZero : ∀ digit rest, numeral.whole ≠ 0 :: digit :: rest)
      (isFraction : IsFraction numeral.fraction fraction)
      (isExponent : IsExponent numeral.exponent exponent) :
      IsUnsigned numeral (whole ++ (fraction ++ exponent))

/-- A numeral, and how it is written. -/
inductive IsWritten (numeral : Numeral) : List Char -> Prop
  | plain
      {chars : List Char}
      (positive : numeral.negative = false)
      (isUnsigned : numeral.IsUnsigned chars) : IsWritten numeral chars
  | signed
      {chars : List Char}
      (negative : numeral.negative = true)
      (isUnsigned : numeral.IsUnsigned chars) : IsWritten numeral ('-' :: chars)

theorem IsUnsigned.eq_cons
    {numeral : Numeral}
    {chars : List Char}
    (isUnsigned : numeral.IsUnsigned chars) :
    ∃ c rest, chars = c :: rest ∧ c.isDigit = true := by
  obtain ⟨areDigits⟩ := isUnsigned
  obtain ⟨c, rest, rfl, isDigit⟩ := areDigits.eq_cons
  exact ⟨c, _, rfl, isDigit⟩

/-- A numeral starts with its sign or with a digit. -/
theorem IsWritten.eq_cons
    {numeral : Numeral}
    {chars : List Char}
    (isWritten : numeral.IsWritten chars) :
    ∃ c rest, chars = c :: rest ∧ (c = '-' ∨ c.isDigit = true) := by
  obtain ⟨_, isUnsigned⟩ | ⟨_, _⟩ := isWritten
  · obtain ⟨c, rest, rfl, isDigit⟩ := isUnsigned.eq_cons
    exact ⟨c, rest, rfl, .inr isDigit⟩
  · exact ⟨_, _, rfl, .inl rfl⟩

end Numeral

theorem noDigit_of_isExponent
    {exponent : Option (Bool × List Nat)}
    {chars : List Char}
    (isExponent : IsExponent exponent chars) : NoDigit chars := by
  cases isExponent with
  | absent => simp [NoDigit]
  | present isMark isSign areDigits =>
      obtain rfl | rfl := isMark <;> simp [NoDigit]

theorem unsigned?_eq_some_iff
    {negative : Bool}
    {chars : List Char}
    {numeral : Numeral} :
    unsigned? negative chars = some numeral ↔
      numeral.negative = negative ∧ numeral.IsUnsigned chars := by
  constructor
  · intro isNumeral
    rw [unsigned?] at isNumeral
    split at isNumeral
    · cases isNumeral
    · cases isNumeral
    · rename_i whole afterPoint someDigit noZero taken
      obtain ⟨written, rfl, areDigits⟩ := exists_of_takeDigits taken someDigit
      split at isNumeral
      · cases isNumeral
      · rename_i fraction rest someFraction takenFraction
        obtain ⟨writtenFraction, rfl, areFraction⟩ :=
          exists_of_takeDigits takenFraction someFraction
        obtain ⟨exponent, isExponent, rfl⟩ :=
          Option.map_eq_some_iff.mp isNumeral
        rw [← List.cons_append]
        refine ⟨rfl, .intro areDigits noZero (.present areFraction) ?_⟩
        exact exponent?_eq_some_iff.mp isExponent
    · rename_i whole rest someDigit noZero _ taken
      obtain ⟨written, rfl, areDigits⟩ := exists_of_takeDigits taken someDigit
      obtain ⟨exponent, isExponent, rfl⟩ :=
        Option.map_eq_some_iff.mp isNumeral
      rw [← List.nil_append rest]
      refine ⟨rfl, .intro areDigits noZero .absent ?_⟩
      exact exponent?_eq_some_iff.mp isExponent
  · rintro ⟨rfl, isUnsigned⟩
    obtain ⟨negative, digits, fractionDigits, exponentDigits⟩ := numeral
    obtain ⟨areDigits, noZero, isFraction, isExponent⟩ := isUnsigned
    have read := exponent?_eq_some_iff.mpr isExponent
    have noDigit := noDigit_of_isExponent isExponent
    cases isFraction with
    | absent =>
        rw [unsigned?, List.nil_append, takeDigits_append areDigits noDigit]
        split
        · rename_i same
          cases same
          exact absurd rfl areDigits.someDigit
        · rename_i same
          cases same
          exact absurd rfl (noZero _ _)
        · rename_i same
          cases same
          obtain _ | isMark := isExponent
          simp at isMark
        · rename_i same
          cases same
          rw [read]
          rfl
    | present areFraction =>
        rw [unsigned?, List.cons_append,
          takeDigits_append areDigits (by simp [NoDigit])]
        split
        · rename_i same
          cases same
          exact absurd rfl areDigits.someDigit
        · rename_i same
          cases same
          exact absurd rfl (noZero _ _)
        · rename_i same
          cases same
          rw [takeDigits_append areFraction noDigit]
          split
          · rename_i same
            cases same
            exact absurd rfl areFraction.someDigit
          · rename_i same
            cases same
            rw [read]
            rfl
        · rename_i notPoint same
          cases same
          exact absurd rfl (notPoint _)

/-- The numerals are the words that write one. -/
theorem numeral?_eq_some_iff
    {chars : List Char}
    {numeral : Numeral} :
    numeral? chars = some numeral ↔ numeral.IsWritten chars := by
  constructor
  · intro isNumeral
    rw [numeral?.eq_def] at isNumeral
    split at isNumeral
    · obtain ⟨negative, isUnsigned⟩ := unsigned?_eq_some_iff.mp isNumeral
      exact .signed negative isUnsigned
    · obtain ⟨positive, isUnsigned⟩ := unsigned?_eq_some_iff.mp isNumeral
      exact .plain positive isUnsigned
  · rintro (⟨positive, isUnsigned⟩ | ⟨negative, isUnsigned⟩)
    · have read := unsigned?_eq_some_iff.mpr ⟨positive, isUnsigned⟩
      rw [numeral?.eq_def]
      split
      · obtain ⟨c, rest, same, isDigit⟩ := isUnsigned.eq_cons
        cases same
        cases isDigit
      · exact read
    · exact unsigned?_eq_some_iff.mpr ⟨negative, isUnsigned⟩

/-! ## Words -/

/-- A word, and the value that it names. -/
inductive IsWord : List Char -> Value -> Prop
  | null : IsWord "null".toList .null
  | isTrue : IsWord "true".toList (.boolean true)
  | isFalse : IsWord "false".toList (.boolean false)
  | number
      {numeral : Numeral}
      {chars : List Char}
      (isWritten : numeral.IsWritten chars) : IsWord chars (.number numeral)

/-- A value is named by the words that are its own. -/
theorem word?_eq_some_iff
    {chars : List Char}
    {value : Value} :
    word? chars = some value ↔ IsWord chars value := by
  constructor
  · intro isWord
    rw [word?] at isWord
    split at isWord
    · rename_i same
      cases isWord
      exact same ▸ .null
    split at isWord
    · rename_i same
      cases isWord
      exact same ▸ .isTrue
    split at isWord
    · rename_i same
      cases isWord
      exact same ▸ .isFalse
    · obtain ⟨numeral, read, rfl⟩ := Option.map_eq_some_iff.mp isWord
      exact .number (numeral?_eq_some_iff.mp read)
  · intro isWord
    cases isWord with
    | null => rfl
    | isTrue => rfl
    | isFalse => rfl
    | number isWritten =>
        obtain ⟨c, rest, rfl, isFirst⟩ := isWritten.eq_cons
        -- No literal starts with a sign or a digit.
        have isOther : ∀ letter others, letter ≠ '-' ->
            Char.isDigit letter = false -> c :: rest ≠ letter :: others := by
          rintro letter others notMinus notDigit same
          cases same
          simp [notMinus, notDigit] at isFirst
        have notNull : c :: rest ≠ "null".toList :=
          isOther 'n' "ull".toList (by decide) rfl
        have notTrue : c :: rest ≠ "true".toList :=
          isOther 't' "rue".toList (by decide) rfl
        have notFalse : c :: rest ≠ "false".toList :=
          isOther 'f' "alse".toList (by decide) rfl
        rw [word?, if_neg notNull, if_neg notTrue, if_neg notFalse,
          numeral?_eq_some_iff.mpr isWritten]
        rfl

/-! ## Letters of words -/

theorem isWordCharacter_of_isDigit
    {c : Char}
    (isDigit : c.isDigit = true) : isWordCharacter c = true := by
  simp [isWordCharacter, Char.isAlphanum, isDigit]

theorem AreDigits.areLetters
    {digits : List Nat}
    {chars : List Char}
    (areDigits : AreDigits digits chars) :
    ∀ c ∈ chars, isWordCharacter c = true := by
  rw [areDigits.chars_eq, List.forall_mem_map]
  intro digit member
  apply isWordCharacter_of_isDigit
  exact isDigit_digitChar (areDigits.lt_ten digit member)

theorem IsExponent.areLetters
    {exponent : Option (Bool × List Nat)}
    {chars : List Char}
    (isExponent : IsExponent exponent chars) :
    ∀ c ∈ chars, isWordCharacter c = true := by
  cases isExponent with
  | absent => simp
  | present isMark isSign areDigits =>
      have areLetters := areDigits.areLetters
      obtain rfl | rfl := isMark <;> cases isSign <;>
        simpa [isWordCharacter] using areLetters

theorem IsFraction.areLetters
    {fraction : Option (List Nat)}
    {chars : List Char}
    (isFraction : IsFraction fraction chars) :
    ∀ c ∈ chars, isWordCharacter c = true := by
  cases isFraction with
  | absent => simp
  | present areDigits => simpa [isWordCharacter] using areDigits.areLetters

theorem Numeral.IsUnsigned.areLetters
    {numeral : Numeral}
    {chars : List Char}
    (isUnsigned : numeral.IsUnsigned chars) :
    ∀ c ∈ chars, isWordCharacter c = true := by
  obtain ⟨areDigits, _, isFraction, isExponent⟩ := isUnsigned
  rw [List.forall_mem_append, List.forall_mem_append]
  exact ⟨areDigits.areLetters, isFraction.areLetters, isExponent.areLetters⟩

/-- A word is made of the characters of words. -/
theorem IsWord.areLetters
    {chars : List Char}
    {value : Value}
    (isWord : IsWord chars value) : ∀ c ∈ chars, isWordCharacter c = true := by
  cases isWord with
  | null => exact List.all_eq_true.mp rfl
  | isTrue => exact List.all_eq_true.mp rfl
  | isFalse => exact List.all_eq_true.mp rfl
  | number isWritten =>
      obtain ⟨_, isUnsigned⟩ | ⟨_, isUnsigned⟩ := isWritten
      · exact isUnsigned.areLetters
      · simpa [isWordCharacter] using isUnsigned.areLetters

theorem IsWord.ne_nil
    {chars : List Char}
    {value : Value}
    (isWord : IsWord chars value) : chars ≠ [] := by
  cases isWord with
  | null => simp
  | isTrue => simp
  | isFalse => simp
  | number isWritten =>
      obtain ⟨c, rest, rfl, _⟩ := isWritten.eq_cons
      simp

end Json
end LockBench
