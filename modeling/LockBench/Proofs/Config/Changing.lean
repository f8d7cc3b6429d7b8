import LockBench.Config.Store
import LockBench.Proofs.Config.Document

/-!
# What setting a value changes

A text is set under the name of a key.  Under some keys it stands for a count,
which it may be of or not, and under the others for itself.  Where it is set,
the key has that value, and nothing else of the configuration has changed.
-/

namespace LockBench
namespace Config

/-! ## Values of keys -/

/-- A text of a count: between blanks at either end, the decimal digits of the
count with or without a plus sign in front. -/
def IsCount
    (text : String)
    (count : UInt32) : Prop :=
  ∃ sign digits, Text.trimBlank text.toList = sign ++ digits ∧
    (sign = [] ∨ sign = ['+']) ∧ digits ≠ [] ∧
    (∀ c ∈ digits, c.isDigit = true) ∧
    Nat.ofDigitChars 10 digits 0 = count.toNat

/-- Whether the values of a key are counts. -/
def Key.isCount : Key -> Bool
  | .warmup | .minRuns | .runs => true
  | _ => false

/-- The value that a text stands for under a key: a count under some keys, and
the text itself under the others. -/
inductive Key.Means (text : String) : Key -> Toml.Plain -> Prop
  | count
      {key : Key}
      {count : UInt32}
      (isCount : key.isCount = true)
      (reads : IsCount text count) : Means text key (.count count.toNat)
  | text
      {key : Key}
      (isText : key.isCount = false) : Means text key (.text text)

/-- A configuration with the value of one key changed to what a text stands
for, and with nothing else changed. -/
structure SetTo
    (config : Config)
    (key : Key)
    (text : String)
    (changed : Config) : Prop where
  /-- The key has the value. -/
  value : ∃ plain, key.Means text plain ∧ changed.plain key = some plain
  /-- The other keys have the values that they had. -/
  others : ∀ other ≠ key, changed.plain other = config.plain other
  /-- The binaries of the tools are those that they were. -/
  tools : changed.tools = config.tools

theorem natural?_eq_some_iff
    {digits : List Char}
    {value : Nat} :
    natural? digits = some value ↔
      digits ≠ [] ∧ (∀ c ∈ digits, c.isDigit = true) ∧
        Nat.ofDigitChars 10 digits 0 = value := by
  have fold_eq : Nat.ofDigitChars 10 digits 0 =
      digits.foldl (fun value c => value * 10 + (c.toNat - 48)) 0 := by
    simp [Nat.ofDigitChars_eq_foldl, Nat.mul_comm]
  rw [natural?, fold_eq]
  split
  · rename_i isNone
    simp only [reduceCtorEq, false_iff, not_and]
    intro someDigit areDigits
    rcases isNone with isEmpty | isOther
    · exact absurd (by simpa using isEmpty) someDigit
    · obtain ⟨c, present, noDigit⟩ := List.any_eq_true.mp isOther
      simp [areDigits c present] at noDigit
  · rename_i isSome
    simp only [not_or, List.isEmpty_iff, List.any_eq_true, not_exists,
      not_and, Bool.not_eq_true', Bool.not_eq_false] at isSome
    simp only [Option.some.injEq]
    exact ⟨fun value_eq => ⟨isSome.1, isSome.2, value_eq⟩,
      fun ⟨_, _, value_eq⟩ => value_eq⟩

theorem count?_eq_some_iff
    {value : Nat}
    {count : UInt32} :
    count? value = some count ↔ value = count.toNat := by
  constructor
  · intro isCount
    rw [count?] at isCount
    split at isCount
    · rename_i fits
      obtain rfl := Option.some.inj isCount
      exact (UInt32.toNat_ofNat_of_lt fits).symm
    · cases isCount
  · rintro rfl
    exact count?_toNat count

/-- The count that is read from a text is the one that the text is of. -/
theorem countOfText?_eq_some_iff
    {text : String}
    {count : UInt32} :
    countOfText? text = some count ↔ IsCount text count := by
  have reads : ∀ digits, (natural? digits).bind count? = some count ↔
      digits ≠ [] ∧ (∀ c ∈ digits, c.isDigit = true) ∧
        Nat.ofDigitChars 10 digits 0 = count.toNat := by
    intro digits
    simp only [Option.bind_eq_some_iff, natural?_eq_some_iff,
      count?_eq_some_iff]
    exact ⟨fun ⟨_, ⟨someDigit, areDigits, rfl⟩, value_eq⟩ =>
        ⟨someDigit, areDigits, value_eq⟩,
      fun ⟨someDigit, areDigits, value_eq⟩ =>
        ⟨_, ⟨someDigit, areDigits, rfl⟩, value_eq⟩⟩
  rw [countOfText?, IsCount]
  split
  · rename_i digits trimmed_eq
    rw [reads, trimmed_eq]
    constructor
    · intro isNumber
      exact ⟨['+'], digits, rfl, .inr rfl, isNumber⟩
    · rintro ⟨sign, others, same, rfl | rfl, someDigit, areDigits, value_eq⟩
      · -- A plus sign is no digit.
        obtain rfl : '+' :: digits = others := same
        exact absurd (areDigits '+' List.mem_cons_self) (by decide)
      · obtain rfl : digits = others := (List.cons.inj same).2
        exact ⟨someDigit, areDigits, value_eq⟩
  · rename_i noSign
    rw [reads]
    constructor
    · intro isNumber
      exact ⟨[], _, rfl, .inl rfl, isNumber⟩
    · rintro ⟨sign, digits, same, rfl | rfl, isNumber⟩
      · rw [same]
        exact isNumber
      · exact absurd same (noSign digits)

/-! ## Changes of a configuration -/

variable {config changed : Config} {key : Key} {name text : String}

/-- What is set is what the text stands for, and nothing else is changed. -/
theorem setTo_of_set?
    (isSet : config.set? text key = some changed) :
    config.SetTo key text changed := by
  have counts : ∀ {count}, countOfText? text = some count ->
      key.isCount = true -> key.Means text (.count count.toNat) :=
    fun read isCount => .count isCount (countOfText?_eq_some_iff.mp read)
  cases key <;> simp only [set?, Option.map_eq_some_iff, Option.some.injEq]
    at isSet
  case warmup | minRuns | runs =>
    obtain ⟨count, read, rfl⟩ := isSet
    refine ⟨⟨_, counts read rfl, rfl⟩, ?_, rfl⟩
    intro other different
    cases other <;> first | rfl | exact absurd rfl different
  all_goals
    obtain rfl := isSet
    refine ⟨⟨_, .text rfl, rfl⟩, ?_, rfl⟩
    intro other different
    cases other <;> first | rfl | exact absurd rfl different

/-- What cannot be set is a text of no count under a key of counts. -/
theorem isCount_of_set?
    (isNotSet : config.set? text key = none) :
    key.isCount = true ∧ ∀ count, ¬IsCount text count := by
  simp only [← countOfText?_eq_some_iff, ← Option.eq_none_iff_forall_ne_some]
  cases key <;> simp_all [set?, Key.isCount]

/-- Why a value is not set: what is stored cannot be loaded, or it can, and the
key is unknown, or its values are counts and the text is of none. -/
inductive Rejects
    (name text : String) : Except Failure Config -> Failure -> Prop
  | unloaded (failure : Failure) : Rejects name text (.error failure) failure
  | unknownKey
      (config : Config)
      (unknown : ∀ key : Key, key.name ≠ name) :
      Rejects name text (.ok config) (.refused (.unknownKey name))
  | invalidValue
      (config : Config)
      {key : Key}
      (named : key.name = name)
      (isCount : key.isCount = true)
      (noCount : ∀ count, ¬IsCount text count) :
      Rejects name text (.ok config) (.refused (.invalidValue name text))

/-- A value is set under its key, or it is refused for a reason. -/
theorem update_cases
    (config : Config)
    (name text : String) :
    (∃ key changed, config.update name text = .ok changed ∧
      key.name = name ∧ config.SetTo key text changed) ∨
    ∃ refusal, config.update name text = .error refusal ∧
      Rejects name text (.ok config) (.refused refusal) := by
  rw [update, Key.ofName?]
  cases named : Key.all.find? fun key => key.name = name with
  | none =>
      refine .inr ⟨_, rfl, .unknownKey config fun key => ?_⟩
      simpa using List.find?_eq_none.mp named key key.mem_all
  | some key =>
      have name_eq : key.name = name := by
        simpa using List.find?_some named
      dsimp only
      cases isSet : config.set? text key with
      | none =>
          obtain ⟨isCount, noCount⟩ := isCount_of_set? isSet
          exact .inr ⟨_, rfl, .invalidValue config name_eq isCount noCount⟩
      | some changed =>
          exact .inl ⟨key, changed, rfl, name_eq, setTo_of_set? isSet⟩

end Config
end LockBench
