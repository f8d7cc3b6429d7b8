import LockBench.Proofs.Json.Reading
import LockBench.Report
import Mathlib.Data.List.Forall2

/-!
# Documents of timings

The timings that a text holds are those of the document that it is.  Their
parts are found by the names of fields, each of which is given once, or by their
order.  A text that is no document, or that is a document of something else,
holds none.
-/

namespace LockBench
namespace Timing

/-! ## Fields -/

/-- No entry of an object has a name. -/
def LacksField
    (name : String)
    (entries : List (Option String × Json.Value)) : Prop :=
  ∀ entry ∈ entries, entry.1 ≠ some name

/-- An object gives a field once, or it does not give it. -/
inductive HasField
    (name : String) :
    List (Option String × Json.Value) -> Option Json.Value -> Prop
  | missing
      {entries : List (Option String × Json.Value)}
      (lacks : LacksField name entries) : HasField name entries none
  | once
      {before after : List (Option String × Json.Value)}
      {value : Json.Value}
      (lacksBefore : LacksField name before)
      (lacksAfter : LacksField name after) :
      HasField name (before ++ (some name, value) :: after) (some value)

variable {name : String} {entries : List (Option String × Json.Value)}
  {value : Json.Value} {timing : Timing} {timings : List Timing}

theorem filter_eq_nil_iff :
    entries.filter (·.1 = some name) = [] ↔ LacksField name entries := by
  rw [List.filter_eq_nil_iff]
  simp only [decide_eq_true_eq]
  rfl

theorem field?_eq_some_iff
    {found : Option Json.Value} :
    field? name entries = some found ↔ HasField name entries found := by
  constructor
  · intro isField
    rw [field?] at isField
    split at isField
    · rename_i filtered
      cases isField
      exact .missing (filter_eq_nil_iff.mp filtered)
    · rename_i entry filtered
      cases isField
      obtain ⟨before, after, rfl, lacksBefore, isNamed, filteredAfter⟩ :=
        List.filter_eq_cons_iff.mp filtered
      obtain ⟨key, value⟩ := entry
      obtain rfl : key = some name := by simpa using isNamed
      refine .once ?_ (filter_eq_nil_iff.mp filteredAfter)
      exact fun entry member => by simpa using lacksBefore entry member
    · cases isField
  · intro hasField
    cases hasField with
    | missing lacks => rw [field?, filter_eq_nil_iff.mpr lacks]
    | once lacksBefore lacksAfter =>
        rw [field?, List.filter_append, filter_eq_nil_iff.mpr lacksBefore,
          List.filter_cons_of_pos (by simp), filter_eq_nil_iff.mpr lacksAfter]
        rfl

/-- The names of the fields of an object are texts. -/
def AreNamed (entries : List (Option String × Json.Value)) : Prop :=
  ∀ entry ∈ entries, ∃ name, entry.1 = some name

theorem keysReadable_iff : keysReadable entries = true ↔ AreNamed entries := by
  rw [keysReadable, List.all_eq_true]
  simp only [Option.isSome_iff_exists]
  rfl

/-! ## One timing -/

/-- What tells a deviation, or that it is not known. -/
inductive TellsDeviation : Option Json.Value -> Option Float -> Prop
  | missing : TellsDeviation none none
  | null : TellsDeviation (some .null) none
  | known
      {numeral : Json.Numeral}
      {deviation : Float}
      (isNumber : numeral.toFloat? = some deviation) :
      TellsDeviation (some (.number numeral)) (some deviation)

/-- The parts of a timing. -/
inductive TellsParts :
    Json.Value -> Json.Value -> Option Json.Value -> Timing -> Prop
  | intro
      {command : String}
      {numeral : Json.Numeral}
      {mean : Float}
      {spread : Option Json.Value}
      {deviation : Option Float}
      (isNumber : numeral.toFloat? = some mean)
      (tellsDeviation : TellsDeviation spread deviation) :
      TellsParts (.text (some command)) (.number numeral) spread
        ⟨command, mean, deviation⟩

/-- A value tells a timing, by the order of its parts or by their names. -/
inductive Tells : Json.Value -> Timing -> Prop
  | inOrder
      {command mean : Json.Value}
      {deviation : Option Json.Value}
      {timing : Timing}
      (tellsParts : TellsParts command mean deviation timing) :
      Tells (.array (command :: mean :: deviation.toList)) timing
  | byName
      {entries : List (Option String × Json.Value)}
      {command mean : Json.Value}
      {deviation : Option Json.Value}
      {timing : Timing}
      (areNamed : AreNamed entries)
      (hasCommand : HasField "command" entries (some command))
      (hasMean : HasField "mean" entries (some mean))
      (hasDeviation : HasField "stddev" entries deviation)
      (tellsParts : TellsParts command mean deviation timing) :
      Tells (.object entries) timing

theorem readNumber?_eq_some_iff
    {number : Float} :
    readNumber? value = some number ↔
      ∃ numeral, value = .number numeral ∧ numeral.toFloat? = some number := by
  cases value <;> simp [readNumber?]

theorem readOptional?_eq_some_iff
    {spread : Option Json.Value}
    {deviation : Option Float} :
    readOptional? spread = some deviation ↔ TellsDeviation spread deviation := by
  constructor
  · intro isRead
    rw [readOptional?.eq_def] at isRead
    split at isRead
    · cases isRead
      exact .missing
    · cases isRead
      exact .null
    · obtain ⟨number, isNumber, rfl⟩ := Option.map_eq_some_iff.mp isRead
      obtain ⟨numeral, rfl, rounded⟩ := readNumber?_eq_some_iff.mp isNumber
      exact .known rounded
  · intro tells
    cases tells with
    | missing => rfl
    | null => rfl
    | known isNumber =>
        exact Option.map_eq_some_iff.mpr ⟨_, isNumber, rfl⟩

theorem ofParts?_eq_some_iff
    {command mean : Json.Value}
    {deviation : Option Json.Value} :
    ofParts? command mean deviation = some timing ↔
      TellsParts command mean deviation timing := by
  constructor
  · intro isTiming
    rw [ofParts?] at isTiming
    obtain ⟨text, isText, rest⟩ := Option.bind_eq_some_iff.mp isTiming
    obtain ⟨number, isNumber, rest⟩ := Option.bind_eq_some_iff.mp rest
    obtain ⟨spread, isSpread, rest⟩ := Option.bind_eq_some_iff.mp rest
    cases rest
    obtain ⟨numeral, rfl, isNumber⟩ := readNumber?_eq_some_iff.mp isNumber
    cases command <;> cases isText
    exact .intro isNumber (readOptional?_eq_some_iff.mp isSpread)
  · rintro ⟨isNumber, tellsDeviation⟩
    rw [ofParts?, readOptional?_eq_some_iff.mpr tellsDeviation]
    simp [readText?, readNumber?, isNumber]

/-- A value is read as the timing that it tells. -/
theorem ofValue?_eq_some_iff :
    ofValue? value = some timing ↔ Tells value timing := by
  constructor
  · intro isTiming
    rw [ofValue?.eq_def] at isTiming
    split at isTiming
    · exact .inOrder (ofParts?_eq_some_iff.mp isTiming)
    · exact .inOrder (ofParts?_eq_some_iff.mp isTiming)
    · rename_i entries
      split at isTiming
      · cases isTiming
      rename_i areNamed
      simp only [Option.bind_eq_bind, Option.bind_eq_some_iff] at isTiming
      obtain ⟨_, hasCommand, command, rfl, _, hasMean, mean, rfl, deviation,
        hasDeviation, isTiming⟩ := isTiming
      refine .byName (keysReadable_iff.mp (by simpa using areNamed))
        (field?_eq_some_iff.mp hasCommand) (field?_eq_some_iff.mp hasMean)
        (field?_eq_some_iff.mp hasDeviation) ?_
      exact ofParts?_eq_some_iff.mp isTiming
    · cases isTiming
  · intro tells
    cases tells with
    | @inOrder command mean deviation timing tellsParts =>
        cases deviation <;> exact ofParts?_eq_some_iff.mpr tellsParts
    | byName areNamed hasCommand hasMean hasDeviation tellsParts =>
        simp [ofValue?, keysReadable_iff.mpr areNamed,
          field?_eq_some_iff.mpr hasCommand, field?_eq_some_iff.mpr hasMean,
          field?_eq_some_iff.mpr hasDeviation,
          ofParts?_eq_some_iff.mpr tellsParts]

/-! ## All timings -/

/-- A list of values is read as the timings that they tell, one after
another. -/
theorem mapM_ofValue?_eq_some_iff
    {items : List Json.Value} :
    items.mapM ofValue? = some timings ↔ List.Forall₂ Tells items timings := by
  induction items generalizing timings with
  | nil => simp [List.forall₂_nil_left_iff, eq_comm]
  | cons item rest inductionHypothesis =>
      simp only [List.mapM_cons, Option.bind_eq_bind, Option.bind_eq_some_iff,
        ofValue?_eq_some_iff, inductionHypothesis]
      constructor
      · rintro ⟨first, tellsFirst, others, tellOthers, same⟩
        cases same
        exact .cons tellsFirst tellOthers
      · rintro (_ | ⟨tellsFirst, tellOthers⟩)
        exact ⟨_, tellsFirst, _, tellOthers, rfl⟩

/-- A document tells timings: those of the values of one list. -/
inductive TellsAll : Json.Value -> List Timing -> Prop
  | inOrder
      {items : List Json.Value}
      {timings : List Timing}
      (tell : List.Forall₂ Tells items timings) :
      TellsAll (.array [.array items]) timings
  | byName
      {entries : List (Option String × Json.Value)}
      {items : List Json.Value}
      {timings : List Timing}
      (areNamed : AreNamed entries)
      (hasResults : HasField "results" entries (some (.array items)))
      (tell : List.Forall₂ Tells items timings) :
      TellsAll (.object entries) timings

theorem listOfValue?_eq_some_iff :
    listOfValue? value = some timings ↔
      ∃ items, value = .array items ∧ List.Forall₂ Tells items timings := by
  cases value <;> simp [listOfValue?, mapM_ofValue?_eq_some_iff]

theorem ofDocument?_eq_some_iff :
    ofDocument? value = some timings ↔ TellsAll value timings := by
  constructor
  · intro areTimings
    rw [ofDocument?.eq_def] at areTimings
    split at areTimings
    · obtain ⟨items, rfl, tell⟩ := listOfValue?_eq_some_iff.mp areTimings
      exact .inOrder tell
    · split at areTimings
      · cases areTimings
      rename_i entries areNamed
      simp only [Option.bind_eq_bind, Option.bind_eq_some_iff] at areTimings
      obtain ⟨_, hasResults, results, rfl, areTimings⟩ := areTimings
      obtain ⟨items, rfl, tell⟩ := listOfValue?_eq_some_iff.mp areTimings
      exact .byName (keysReadable_iff.mp (by simpa using areNamed))
        (field?_eq_some_iff.mp hasResults) tell
    · cases areTimings
  · intro tellsAll
    cases tellsAll with
    | inOrder tell => exact listOfValue?_eq_some_iff.mpr ⟨_, rfl, tell⟩
    | byName areNamed hasResults tell =>
        simp [ofDocument?, keysReadable_iff.mpr areNamed,
          field?_eq_some_iff.mpr hasResults,
          listOfValue?_eq_some_iff.mpr ⟨_, rfl, tell⟩]

/-- A text tells the timings of the document that it is. -/
def TextTells
    (text : String)
    (timings : List Timing) : Prop :=
  ∃ document : Json.Value, Json.Lexes text.toList document.tokens ∧
    TellsAll document timings

/-- The timings that a text holds are those that it tells. -/
theorem ofText?_eq_some_iff
    {text : String} :
    ofText? text = some timings ↔ TextTells text timings := by
  simp only [ofText?, Option.bind_eq_some_iff,
    Json.Value.ofText?_eq_some_iff, ofDocument?_eq_some_iff]
  rfl

/-- A text holds no timings where it is no document, or one that tells none. -/
theorem ofText?_eq_none_iff
    {text : String} :
    ofText? text = none ↔ ∀ timings, ¬TextTells text timings := by
  rw [Option.eq_none_iff_forall_ne_some]
  exact forall_congr' fun _ => not_congr ofText?_eq_some_iff

end Timing
end LockBench
