import LockBench.Proofs.Config.Changing
import Mathlib.Algebra.Group.Nat.Defs
import Mathlib.Data.List.Induction

/-!
# Settings one after another

A configuration that values are set in, one after another, has under every key
the value of the last setting of that key that was accepted, or the value that
it started with.  Nothing else of it has changed.  A setting that is refused
changes nothing, and which ones are refused does not depend on what was set
before.
-/

namespace LockBench
namespace Config

/-- A value to be set, as a text, under a name. -/
structure Setting where
  /-- The name of a key, if there is a key of that name. -/
  name : String
  /-- The text of the value. -/
  text : String
  deriving DecidableEq, Repr

/-- A text that a count can be read from: between blanks at either end, a plus
sign if there is one, and decimal digits that are worth less than `2 ^ 32`. -/
def HasCount (text : String) : Prop :=
  ∃ sign digits, Text.trimBlank text.toList = sign ++ digits ∧
    (sign = [] ∨ sign = ['+']) ∧ digits ≠ [] ∧
    (∀ c ∈ digits, c.isDigit = true) ∧ Nat.ofDigitChars 10 digits 0 < 2 ^ 32

/-- A key takes a text: any text, unless its values are counts. -/
def Key.Takes (key : Key) (text : String) : Prop :=
  key.isCount = true -> HasCount text

/-- A setting gives a key a value. -/
def Setting.Sets
    (setting : Setting)
    (key : Key) : Prop :=
  key.name = setting.name ∧ key.Takes setting.text

/-- The text under which the value of a text is shown: a count in its decimal
digits, and any other value as it was given. -/
inductive Key.Shows (text : String) : Key -> String -> Prop
  | count
      {key : Key}
      {count : UInt32}
      (isCount : key.isCount = true)
      (reads : IsCount text count) : Shows text key (toString count.toNat)
  | text
      {key : Key}
      (isText : key.isCount = false) : Shows text key text

/-- The configuration after a setting: as it was, where that is refused. -/
def after
    (config : Config)
    (setting : Setting) : Config :=
  match config.update setting.name setting.text with
  | .ok changed => changed
  | .error _ => config

/-- The configuration after settings, one after another. -/
def afterAll
    (config : Config)
    (settings : List Setting) : Config :=
  settings.foldl after config

/-- The names under which values are listed, in their order. -/
def listedNames : List String :=
  Key.all.map Key.name ++ Tool.all.map fun tool => "tools." ++ tool.name

/-! ## Counts -/

theorem hasCount_iff {text : String} :
    HasCount text ↔ ∃ count, IsCount text count := by
  constructor
  · rintro ⟨sign, digits, trimmed_eq, isSign, someDigit, areDigits, below⟩
    refine ⟨(Nat.ofDigitChars 10 digits 0).toUInt32, sign, digits, trimmed_eq,
      isSign, someDigit, areDigits, ?_⟩
    exact (UInt32.toNat_ofNat_of_lt below).symm
  · rintro ⟨count, sign, digits, trimmed_eq, isSign, someDigit, areDigits,
      value_eq⟩
    refine ⟨sign, digits, trimmed_eq, isSign, someDigit, areDigits, ?_⟩
    rw [value_eq]
    exact count.toNat_lt

/-- Decimal digits are not blank. -/
theorem isBlank_of_isDigit
    {c : Char}
    (isDigit : c.isDigit = true) : Text.isBlank c = false := by
  simp only [Char.isDigit, Bool.and_eq_true, decide_eq_true_eq,
    UInt32.le_iff_toNat_le] at isDigit
  simp only [Text.isBlank, Char.toNat]
  grind

/-- A count is read back from its decimal digits. -/
theorem isCount_toString (count : UInt32) :
    IsCount (toString count.toNat) count := by
  have areDigits : ∀ c ∈ Nat.toDigits 10 count.toNat, c.isDigit = true :=
    fun c member => Nat.isDigit_of_mem_toDigits (by decide) (by decide) member
  have noBlank : ∀ list : List Char, (∀ c ∈ list, c.isDigit = true) ->
      Text.dropBlank list = list := by
    intro list areDigits
    cases list with
    | nil => rfl
    | cons c rest =>
        have notBlank := isBlank_of_isDigit (areDigits c List.mem_cons_self)
        rw [Text.dropBlank, List.dropWhile_cons_of_neg (by simp [notBlank])]
  refine ⟨[], Nat.toDigits 10 count.toNat, ?_, .inl rfl, Nat.toDigits_ne_nil,
    areDigits, Nat.ofDigitChars_ten_toDigits⟩
  rw [Nat.toString_eq_ofList_toDigits, String.toList_ofList, Text.trimBlank,
    noBlank _ areDigits, noBlank _ fun c member =>
      areDigits c (List.mem_reverse.mp member), List.reverse_reverse,
    List.nil_append]

/-! ## Single settings -/

variable {config changed : Config} {key : Key} {setting : Setting}

theorem lookup_name
    (config : Config)
    (key : Key) : config.lookup key.name = config.get key := by
  cases key <;> rfl

/-- What a key takes means something under it. -/
theorem Key.takes_iff {text : String} :
    key.Takes text ↔ ∃ plain, key.Means text plain := by
  constructor
  · intro takes
    cases isCount : key.isCount with
    | false => exact ⟨_, .text isCount⟩
    | true =>
        obtain ⟨count, reads⟩ := hasCount_iff.mp (takes isCount)
        exact ⟨_, .count isCount reads⟩
  · rintro ⟨plain, means⟩ isCount
    cases means with
    | count _ reads => exact hasCount_iff.mpr ⟨_, reads⟩
    | text isText =>
        rw [isText] at isCount
        cases isCount

/-- What is set belongs to the key of the name. -/
theorem setTo_of_update
    (isSet : config.update setting.name setting.text = .ok changed) :
    ∃ key, setting.Sets key ∧ config.SetTo key setting.text changed := by
  rcases config.update_cases setting.name setting.text with
    ⟨key, other, update_eq, named, setTo⟩ | ⟨refusal, refused, -⟩
  · obtain rfl := Except.ok.inj (update_eq.symm.trans isSet)
    obtain ⟨plain, means, -⟩ := setTo.value
    exact ⟨key, ⟨named, Key.takes_iff.mpr ⟨plain, means⟩⟩, setTo⟩
  · rw [refused] at isSet
    cases isSet

/-- A setting is refused where its name is unknown, or where a count cannot be
read from its text although the key needs one. -/
theorem update_eq_error_iff
    (config : Config)
    (name text : String) :
    (∃ refusal, config.update name text = .error refusal) ↔
      name ∉ Key.all.map Key.name ∨
        ∃ key : Key, key.name = name ∧ key.isCount = true ∧
          ¬HasCount text := by
  constructor
  · rintro ⟨refusal, refused⟩
    rcases config.update_cases name text with
      ⟨key, changed, update_eq, -⟩ | ⟨other, -, rejects⟩
    · rw [refused] at update_eq
      cases update_eq
    · cases rejects with
      | unknownKey _ unknown =>
          refine .inl fun known => ?_
          obtain ⟨key, -, named⟩ := List.mem_map.mp known
          exact unknown key named
      | invalidValue _ named isCount noCount =>
          refine .inr ⟨_, named, isCount, fun hasCount => ?_⟩
          obtain ⟨count, reads⟩ := hasCount_iff.mp hasCount
          exact noCount count reads
  · intro refused
    cases update_eq : config.update name text with
    | error refusal => exact ⟨refusal, rfl⟩
    | ok changed =>
        obtain ⟨key, ⟨named, takes⟩, -⟩ :=
          @setTo_of_update config changed ⟨name, text⟩ update_eq
        rcases refused with unknown | ⟨other, otherNamed, isCount, noCount⟩
        · exact absurd (List.mem_map.mpr ⟨key, key.mem_all, named⟩) unknown
        · obtain rfl : key = other :=
            name_injective (named.trans otherNamed.symm)
          exact absurd (takes isCount) noCount

/-- Where a setting is for a key, it is not refused. -/
theorem update_of_sets
    (config : Config)
    (sets : setting.Sets key) :
    ∃ changed, config.update setting.name setting.text = .ok changed ∧
      config.SetTo key setting.text changed := by
  cases update_eq : config.update setting.name setting.text with
  | error refusal =>
      rcases (config.update_eq_error_iff _ _).mp ⟨refusal, update_eq⟩ with
        unknown | ⟨other, named, isCount, noCount⟩
      · exact absurd (List.mem_map.mpr ⟨key, key.mem_all, sets.1⟩) unknown
      · obtain rfl : key = other := name_injective (sets.1.trans named.symm)
        exact absurd (sets.2 isCount) noCount
  | ok changed =>
      obtain ⟨other, ⟨named, -⟩, setTo⟩ := setTo_of_update update_eq
      obtain rfl : key = other := name_injective (sets.1.trans named.symm)
      exact ⟨changed, rfl, setTo⟩

/-! ## Values that are shown -/

/-- A value as it is shown. -/
def shown : Toml.Plain -> String
  | .count value => toString value
  | .text value => value
  | .texts values => ", ".intercalate values

/-- What is shown under a key is its value. -/
theorem get_eq_map_shown
    (config : Config)
    (key : Key) : config.get key = (config.plain key).map shown := by
  cases key <;> simp only [get, plain, Option.map_map] <;>
    first | rfl | exact (congrFun Option.map_id _).symm

theorem Key.Means.shows
    {text : String}
    {plain : Toml.Plain}
    (means : key.Means text plain) : key.Shows text (shown plain) := by
  cases means with
  | count isCount reads => exact .count isCount reads
  | text isText => exact .text isText

/-- A value that is shown is set to itself. -/
theorem set?_of_get
    {text : String}
    (isSet : config.get key = some text) :
    config.set? text key = some config := by
  have counts : ∀ {value : Option UInt32}, value.map toString = some text ->
      ∃ count, value = some count ∧ countOfText? text = some count := by
    intro value shows
    obtain ⟨count, rfl, rfl⟩ := Option.map_eq_some_iff.mp shows
    exact ⟨count, rfl, countOfText?_eq_some_iff.mpr (isCount_toString count)⟩
  obtain ⟨warmup, minRuns, runs, resultsDir, fixturesDir, hyperfinePath,
    requiresPython, projectName, tools⟩ := config
  cases key <;> simp only [get] at isSet
  case warmup | minRuns | runs =>
    obtain ⟨count, rfl, read⟩ := counts isSet
    simp only [set?, read, Option.map_some]
  all_goals
    subst isSet
    rfl

/-- Setting a key to what is shown under it changes nothing. -/
theorem update_of_get
    {text : String}
    (isSet : config.get key = some text) :
    config.update key.name text = .ok config := by
  have known : Key.ofName? key.name = some key := by
    cases key <;> rfl
  simp only [update, known, set?_of_get isSet]

/-! ## Values after settings -/

theorem after_of_refused
    {refusal : Refusal}
    (refused : config.update setting.name setting.text = .error refusal) :
    config.after setting = config := by
  rw [after, refused]

/-- A setting of a key gives it a value. -/
theorem get_after
    (config : Config)
    (sets : setting.Sets key) :
    ∃ value, key.Shows setting.text value ∧
      (config.after setting).get key = some value := by
  obtain ⟨changed, update_eq, setTo⟩ := config.update_of_sets sets
  obtain ⟨plain, means, value_eq⟩ := setTo.value
  refine ⟨shown plain, means.shows, ?_⟩
  rw [after, update_eq, get_eq_map_shown, value_eq, Option.map_some]

/-- A setting of no key, or of another one, leaves a key its value. -/
theorem get_after_of_not_sets
    (config : Config)
    (spares : ¬setting.Sets key) :
    (config.after setting).get key = config.get key := by
  cases update_eq : config.update setting.name setting.text with
  | error refusal => rw [after_of_refused update_eq]
  | ok changed =>
      obtain ⟨other, sets, setTo⟩ := setTo_of_update update_eq
      have different : key ≠ other := by
        rintro rfl
        exact spares sets
      rw [after, update_eq, get_eq_map_shown, get_eq_map_shown,
        setTo.others key different]

theorem tools_after
    (config : Config)
    (setting : Setting) : (config.after setting).tools = config.tools := by
  cases update_eq : config.update setting.name setting.text with
  | error refusal => rw [after_of_refused update_eq]
  | ok changed =>
      obtain ⟨key, -, setTo⟩ := setTo_of_update update_eq
      rw [after, update_eq, setTo.tools]

/-- What a key is worth after settings: the value of the last one that set it,
or the value that it started with where none did. -/
inductive LastValue
    (config : Config)
    (settings : List Setting)
    (key : Key) : Option String -> Prop
  | set
      {early late : List Setting}
      {setting : Setting}
      {value : String}
      (split_eq : settings = early ++ setting :: late)
      (sets : setting.Sets key)
      (isLast : ∀ other ∈ late, ¬other.Sets key)
      (shows : key.Shows setting.text value) :
      LastValue config settings key (some value)
  | start
      (spares : ∀ setting ∈ settings, ¬setting.Sets key) :
      LastValue config settings key (config.get key)

theorem afterAll_concat
    (config : Config)
    (settings : List Setting)
    (setting : Setting) :
    config.afterAll (settings ++ [setting]) =
      (config.afterAll settings).after setting := by
  simp [afterAll]

/-- A setting that spares a key leaves the last value of it. -/
theorem LastValue.concat
    {settings : List Setting}
    {value : Option String}
    (holds : LastValue config settings key value)
    (spares : ¬setting.Sets key) :
    LastValue config (settings ++ [setting]) key value := by
  cases holds with
  | @set early late found value split_eq sets isLast shows =>
      have concat_eq : settings ++ [setting] =
          early ++ found :: (late ++ [setting]) := by
        rw [split_eq, List.append_assoc, List.cons_append]
      refine .set concat_eq sets ?_ shows
      exact List.forall_mem_append.mpr
        ⟨isLast, List.forall_mem_singleton.mpr spares⟩
  | start sparesAll =>
      exact .start (List.forall_mem_append.mpr
        ⟨sparesAll, List.forall_mem_singleton.mpr spares⟩)

/-- After settings every key has its last value. -/
theorem lastValue_afterAll
    (config : Config)
    (settings : List Setting)
    (key : Key) :
    LastValue config settings key ((config.afterAll settings).get key) := by
  induction settings using List.reverseRecOn with
  | nil => exact .start (List.forall_mem_nil _)
  | append_singleton settings setting inductionHypothesis =>
      rw [afterAll_concat]
      by_cases sets : setting.Sets key
      · obtain ⟨value, shows, get_eq⟩ := get_after _ sets
        rw [get_eq]
        exact .set rfl sets (List.forall_mem_nil _) shows
      · rw [get_after_of_not_sets _ sets]
        exact inductionHypothesis.concat sets

theorem tools_afterAll
    (config : Config)
    (settings : List Setting) :
    (config.afterAll settings).tools = config.tools := by
  induction settings using List.reverseRecOn with
  | nil => rfl
  | append_singleton settings setting inductionHypothesis =>
      rw [afterAll_concat, tools_after, inductionHypothesis]

/-! ## Everything that is set -/

theorem nodup_listedNames : listedNames.Nodup := by
  decide

theorem keys_listed_sublist
    (name : String)
    (paths : List String) :
    ((listed name paths).map Prod.fst).Sublist [name] := by
  rw [listed]
  split
  · exact List.nil_sublist _
  · exact .refl _

/-- Values are listed in the order of their names, each name once. -/
theorem names_values_sublist (config : Config) :
    (config.values.map Prod.fst).Sublist listedNames := by
  have keyed : ∀ keys : List Key, ((keys.filterMap fun key =>
      (config.get key).map fun value => (key.name, value)).map
        Prod.fst).Sublist (keys.map Key.name) := by
    intro keys
    induction keys with
    | nil => exact .slnil
    | cons key others inductionHypothesis =>
        cases value : config.get key with
        | none => simpa [value] using inductionHypothesis.cons key.name
        | some text => simpa [value] using inductionHypothesis
  rw [values, List.map_append, List.map_append, List.map_append,
    List.append_assoc, List.append_assoc]
  exact (keyed Key.all).append ((keys_listed_sublist _ _).append
    ((keys_listed_sublist _ _).append (keys_listed_sublist _ _)))

theorem mem_listed_iff
    {name : String}
    {paths : List String}
    {entry : String × String} :
    entry ∈ listed name paths ↔
      paths ≠ [] ∧ entry = (name, ", ".intercalate paths) := by
  cases paths <;> simp [listed]

/-- What is listed is the value of every key that has one, and the binaries of
every tool that has some. -/
theorem mem_values_iff
    (config : Config)
    (name value : String) :
    (name, value) ∈ config.values ↔
      (∃ key : Key, key.name = name ∧ config.get key = some value) ∨
        ∃ tool : Tool, "tools." ++ tool.name = name ∧
          config.tools.of tool ≠ [] ∧
          value = ", ".intercalate (config.tools.of tool) := by
  simp only [values, List.mem_append, List.mem_filterMap, mem_listed_iff,
    Option.map_eq_some_iff, Prod.mk.injEq]
  constructor
  · rintro (((⟨key, -, text, isSet, named, rfl⟩ | ⟨some, named, rfl⟩) |
      ⟨some, named, rfl⟩) | ⟨some, named, rfl⟩)
    · exact .inl ⟨key, named, isSet⟩
    · exact .inr ⟨.ripenv, named.symm, some, rfl⟩
    · exact .inr ⟨.pipenv, named.symm, some, rfl⟩
    · exact .inr ⟨.uv, named.symm, some, rfl⟩
  · rintro (⟨key, named, isSet⟩ | ⟨tool, named, some, rfl⟩)
    · exact .inl (.inl (.inl ⟨key, key.mem_all, value, isSet, named, rfl⟩))
    · cases tool with
      | ripenv => exact .inl (.inl (.inr ⟨some, named.symm, rfl⟩))
      | pipenv => exact .inl (.inr ⟨some, named.symm, rfl⟩)
      | uv => exact .inr ⟨some, named.symm, rfl⟩

/-- Nothing is set where nothing is listed. -/
theorem isEmpty_iff (config : Config) :
    config.isEmpty = true ↔ config.values = [] := by
  simp [isEmpty, values, listed, ToolPaths.isEmpty, and_assoc]

/-! ## The laws of settings -/

/-- After any settings of a configuration: what is refused is refused for its
name or its text alone and changes nothing; every key has its last value, and
the binaries of the tools are those at the start; setting a key to what is shown
under it changes nothing; the values of the keys and then the binaries of the
tools are listed in order, each once, unless they are missing; and nothing is
set where nothing is listed. -/
theorem settings_obey_laws
    (config : Config)
    (settings : List Setting) :
    let last := config.afterAll settings
    (∀ setting : Setting,
      ((∃ refusal, last.update setting.name setting.text = .error refusal) ↔
        setting.name ∉ Key.all.map Key.name ∨
          ∃ key : Key, key.name = setting.name ∧ key.isCount = true ∧
            ¬HasCount setting.text) ∧
      ((∃ refusal, last.update setting.name setting.text = .error refusal) ->
        last.after setting = last)) ∧
    (∀ key : Key, LastValue config settings key (last.lookup key.name)) ∧
    last.tools = config.tools ∧
    (∀ (key : Key) text, last.lookup key.name = some text ->
      last.update key.name text = .ok last) ∧
    ((last.values.map Prod.fst).Sublist listedNames ∧ listedNames.Nodup ∧
      ∀ name value, (name, value) ∈ last.values ↔
        (∃ key : Key, key.name = name ∧ last.lookup name = some value) ∨
          ∃ tool : Tool, "tools." ++ tool.name = name ∧
            last.tools.of tool ≠ [] ∧
            value = ", ".intercalate (last.tools.of tool)) ∧
    (last.isEmpty = true ↔ last.values = []) := by
  intro last
  refine ⟨fun setting => ⟨last.update_eq_error_iff _ _, ?_⟩, ?_,
    tools_afterAll config settings, ?_,
    ⟨last.names_values_sublist, nodup_listedNames, ?_⟩, last.isEmpty_iff⟩
  · rintro ⟨refusal, refused⟩
    exact after_of_refused refused
  · intro key
    rw [lookup_name]
    exact lastValue_afterAll config settings key
  · intro key text isSet
    rw [lookup_name] at isSet
    exact update_of_get isSet
  · intro name value
    rw [mem_values_iff]
    refine or_congr_left (exists_congr fun key => and_congr_right ?_)
    rintro rfl
    rw [lookup_name]

example : (afterAll {} [⟨"runs", "8"⟩, ⟨"runs", " +07 "⟩, ⟨"runs", "-1"⟩,
    ⟨"nothing", "9"⟩]).lookup "runs" = some "7" := by
  rfl

end Config
end LockBench
