import LockBench.Json.Reader
import Mathlib.Data.List.Basic

/-!
# Tokens of a value

A value is written with one sequence of tokens.  Between two tokens the machine
that reads them still knows which it has read, so that it ends with a value
exactly when it has read the tokens of that value.
-/

namespace LockBench
namespace Json

/-- Parts with commas between them. -/
def separated (parts : List (List Token)) : List Token :=
  [.comma].intercalate parts

/-- Parts with a comma behind each. -/
def followed (parts : List (List Token)) : List Token :=
  parts.flatMap (· ++ [.comma])

theorem followed_concat
    (parts : List (List Token))
    (part : List Token) :
    followed (parts ++ [part]) = followed parts ++ part ++ [.comma] := by
  simp [followed]

@[simp] theorem separated_nil : separated [] = [] := rfl

@[simp] theorem separated_singleton (part : List Token) :
    separated [part] = part :=
  List.intercalate_singleton

theorem separated_cons
    {parts : List (List Token)}
    (someParts : parts ≠ [])
    (part : List Token) :
    separated (part :: parts) = part ++ .comma :: separated parts := by
  rw [separated, List.intercalate_cons_of_ne_nil someParts, List.append_assoc]
  rfl

theorem exists_separated_cons
    (part : List Token)
    (parts : List (List Token)) :
    ∃ later, separated (part :: parts) = part ++ later := by
  by_cases someParts : parts = []
  · exact ⟨[], by rw [someParts, separated_singleton, List.append_nil]⟩
  · exact ⟨_, separated_cons someParts part⟩

theorem separated_concat
    (parts : List (List Token))
    (last : List Token) :
    separated (parts ++ [last]) = followed parts ++ last := by
  induction parts with
  | nil => exact separated_singleton last
  | cons part rest inductionHypothesis =>
      rw [List.cons_append, separated_cons (by simp), inductionHypothesis]
      simp [followed]

namespace Value

/-- A value that is a token by itself. -/
def IsScalar : Value -> Prop
  | .array _ => False
  | .object _ => False
  | _ => True

theorem sizeOf_item_lt
    {item : Value}
    {items : List Value}
    (member : item ∈ items) : sizeOf item < sizeOf (array items) := by
  have inItems := List.sizeOf_lt_of_mem member
  rw [array.sizeOf_spec]
  omega

theorem sizeOf_entry_lt
    {entry : Option String × Value}
    {entries : List (Option String × Value)}
    (member : entry ∈ entries) : sizeOf entry.2 < sizeOf (object entries) := by
  have inEntries := List.sizeOf_lt_of_mem member
  have inEntry : sizeOf entry = 1 + sizeOf entry.1 + sizeOf entry.2 := rfl
  rw [object.sizeOf_spec]
  omega

/-- The tokens of a value. -/
def tokens : Value -> List Token
  | .array items =>
    .beginArray :: (separated (items.map tokens) ++ [.endArray])
  | .object entries =>
    .beginObject :: (separated (entries.map fun entry =>
      .scalar (.text entry.1) :: .colon :: tokens entry.2) ++ [.endObject])
  | value => [.scalar value]
decreasing_by
  · exact sizeOf_item_lt ‹_›
  · exact sizeOf_entry_lt ‹_›

/-- The tokens of an entry of an object. -/
def entryTokens (entry : Option String × Value) : List Token :=
  .scalar (.text entry.1) :: .colon :: entry.2.tokens

@[simp] theorem tokens_array (items : List Value) :
    (array items).tokens =
      .beginArray :: (separated (items.map tokens) ++ [.endArray]) := by
  rw [tokens]

@[simp] theorem tokens_object (entries : List (Option String × Value)) :
    (object entries).tokens =
      .beginObject ::
        (separated (entries.map entryTokens) ++ [.endObject]) := by
  rw [tokens]
  rfl

@[simp] theorem tokens_of_isScalar
    {value : Value}
    (isScalar : value.IsScalar) : value.tokens = [.scalar value] := by
  cases value with
  | array items => exact isScalar.elim
  | object entries => exact isScalar.elim
  | _ => rw [tokens] <;> simp

/-- No value starts with the end of an array. -/
theorem tokens_eq_cons (value : Value) :
    ∃ first later, first ≠ Token.endArray ∧ value.tokens = first :: later := by
  cases value with
  | array items => exact ⟨_, _, by simp, tokens_array items⟩
  | object entries => exact ⟨_, _, by simp, tokens_object entries⟩
  | _ => exact ⟨_, _, by simp, tokens_of_isScalar trivial⟩

/-- What holds of scalars holds of every value, if it passes from values to the
arrays and objects of them. -/
@[elab_as_elim]
theorem induction
    {motive : Value -> Prop}
    (scalar : ∀ value, value.IsScalar -> motive value)
    (array : ∀ items, (∀ item ∈ items, motive item) -> motive (.array items))
    (object : ∀ entries, (∀ entry ∈ entries, motive entry.2) ->
      motive (.object entries)) :
    ∀ value, motive value
  | .array items => array items fun item _ =>
      induction scalar array object item
  | .object entries => object entries fun entry _ =>
      induction scalar array object entry.2
  | .null => scalar _ trivial
  | .boolean _ => scalar _ trivial
  | .number _ => scalar _ trivial
  | .text _ => scalar _ trivial
decreasing_by
  · exact sizeOf_item_lt ‹_›
  · exact sizeOf_entry_lt ‹_›

end Value

/-! ## What has been read -/

/-- A token that holds no more than one scalar. -/
def Token.IsProper : Token -> Prop
  | .scalar value => value.IsScalar
  | _ => True

/-- The tokens of what is open, up to what is being read in it. -/
def Frame.read : Frame -> List Token
  | .array items => .beginArray :: followed (items.reverse.map Value.tokens)
  | .object entries name =>
    .beginObject :: followed (entries.reverse.map Value.entryTokens) ++
      [.scalar (.text name), .colon]

/-- The tokens that have been read since what is open. -/
def Awaiting.read : Awaiting -> List Token
  | .value => []
  | .firstItem => []
  | .firstKey entries =>
    .beginObject :: followed (entries.reverse.map Value.entryTokens)
  | .key entries =>
    .beginObject :: followed (entries.reverse.map Value.entryTokens)
  | .colon entries name =>
    .beginObject :: followed (entries.reverse.map Value.entryTokens) ++
      [.scalar (.text name)]
  | .separator last => last.tokens

namespace Parse

variable {parse next : Parse} {token : Token} {tokens : List Token}

/-- All tokens that have been read. -/
def read (parse : Parse) : List Token :=
  parse.stack.reverse.flatMap Frame.read ++ parse.awaiting.read

/-- What comes first is awaited where nothing has been read before it. -/
def IsSound : Parse -> Prop
  | ⟨stack, .firstItem⟩ => ∃ outer, stack = .array [] :: outer
  | ⟨_, .firstKey entries⟩ => entries = []
  | _ => True

theorem sound_and_read_of_value?
    {stack : List Frame}
    (isProper : token.IsProper)
    (step : value? stack token = some next) :
    next.IsSound ∧
      next.read = stack.reverse.flatMap Frame.read ++ [token] := by
  cases token with
  | scalar value =>
      cases step
      exact ⟨trivial, by
        simp [read, Awaiting.read, Value.tokens_of_isScalar isProper]⟩
  | beginArray =>
      cases step
      exact ⟨⟨stack, rfl⟩, by simp [read, Awaiting.read, Frame.read, followed]⟩
  | beginObject =>
      cases step
      exact ⟨rfl, by simp [read, Awaiting.read, followed]⟩
  | _ => cases step

theorem sound_and_read_of_key?
    {stack : List Frame}
    {entries : List (Option String × Value)}
    (step : key? stack entries token = some next) :
    next.IsSound ∧
      next.read = (Parse.mk stack (.key entries)).read ++ [token] := by
  rw [key?.eq_def] at step
  split at step
  · cases step
    exact ⟨trivial, by simp [read, Awaiting.read]⟩
  · cases step

/-- One more token has been read after a step. -/
theorem sound_and_read_of_step?
    (isSound : parse.IsSound)
    (isProper : token.IsProper)
    (step : step? parse token = some next) :
    next.IsSound ∧ next.read = parse.read ++ [token] := by
  fun_cases step? parse token <;> simp only [step?] at step
  case case1 stack =>
    simpa [read, Awaiting.read] using sound_and_read_of_value? isProper step
  case case2 items stack =>
    cases step
    obtain ⟨_, same⟩ := isSound
    cases same
    exact ⟨trivial, by simp [read, Frame.read, Awaiting.read, followed]⟩
  case case3 stack _ =>
    simpa [read, Awaiting.read] using sound_and_read_of_value? isProper step
  case case4 stack entries =>
    cases step
    obtain rfl : entries = [] := isSound
    exact ⟨trivial, by simp [read, Awaiting.read, followed]⟩
  case case5 stack entries _ => exact sound_and_read_of_key? step
  case case6 stack entries => exact sound_and_read_of_key? step
  case case7 stack entries key =>
    cases step
    exact ⟨trivial, by simp [read, Frame.read, Awaiting.read]⟩
  case case8 items stack last =>
    cases step
    exact ⟨trivial, by
      simp [read, Frame.read, Awaiting.read, followed_concat]⟩
  case case9 items stack last =>
    cases step
    exact ⟨trivial, by
      simp [read, Frame.read, Awaiting.read, separated_concat]⟩
  case case10 entries key stack last =>
    cases step
    exact ⟨trivial, by
      simp [read, Frame.read, Awaiting.read, followed_concat,
        Value.entryTokens]⟩
  case case11 entries key stack last =>
    cases step
    exact ⟨trivial, by
      simp [read, Frame.read, Awaiting.read, separated_concat,
        Value.entryTokens]⟩
  case case12 => cases step

/-- The machine takes some tokens, one after another. -/
def Reads
    (parse : Parse)
    (tokens : List Token)
    (next : Parse) : Prop :=
  tokens.foldlM step? parse = some next

theorem reads_nil_iff : parse.Reads [] next ↔ parse = next :=
  Option.some_inj

theorem reads_cons_iff :
    parse.Reads (token :: tokens) next ↔
      ∃ between, step? parse token = some between ∧
        between.Reads tokens next :=
  Option.bind_eq_some_iff

theorem reads_append_iff
    {early late : List Token} :
    parse.Reads (early ++ late) next ↔
      ∃ between, parse.Reads early between ∧ between.Reads late next := by
  rw [Reads, List.foldlM_append]
  exact Option.bind_eq_some_iff

/-- The machine has read the tokens that it took. -/
theorem Reads.read_eq
    (isSound : parse.IsSound)
    (areProper : ∀ token ∈ tokens, token.IsProper)
    (reads : parse.Reads tokens next) :
    next.read = parse.read ++ tokens := by
  induction tokens generalizing parse with
  | nil =>
      rw [reads_nil_iff.mp reads, List.append_nil]
  | cons token rest inductionHypothesis =>
      rw [List.forall_mem_cons] at areProper
      obtain ⟨isProper, areProperRest⟩ := areProper
      obtain ⟨between, step, readsRest⟩ := reads_cons_iff.mp reads
      obtain ⟨soundBetween, read_eq⟩ :=
        sound_and_read_of_step? isSound isProper step
      rw [inductionHypothesis soundBetween areProperRest readsRest, read_eq,
        List.append_assoc, List.singleton_append]

/-! ## Reading the tokens of a value -/

/-- The machine takes the tokens of a value wherever one is due. -/
def TakesIn (value : Value) : Prop :=
  ∀ stack, (Parse.mk stack .value).Reads value.tokens ⟨stack, .separator value⟩

variable {stack : List Frame}

/-- Where an array may end, a value is taken as where one must come. -/
theorem Reads.of_firstItem
    {value : Value}
    (reads : (Parse.mk stack .value).Reads (value.tokens ++ tokens) next) :
    (Parse.mk stack .firstItem).Reads (value.tokens ++ tokens) next := by
  obtain ⟨first, later, isFirst, tokens_eq⟩ := value.tokens_eq_cons
  rw [tokens_eq, List.cons_append, reads_cons_iff] at reads ⊢
  obtain ⟨between, step, readsLater⟩ := reads
  refine ⟨between, ?_, readsLater⟩
  rw [← step]
  cases first with
  | endArray => exact absurd rfl isFirst
  | _ => simp [step?]

theorem reads_items
    {done items : List Value}
    {item : Value}
    (each : ∀ value ∈ item :: items, TakesIn value) :
    (Parse.mk (.array done :: stack) .value).Reads
      (separated ((item :: items).map Value.tokens) ++ [.endArray])
      ⟨stack, .separator (.array (done.reverse ++ item :: items))⟩ := by
  rw [List.forall_mem_cons] at each
  obtain ⟨first, eachRest⟩ := each
  induction items generalizing done item with
  | nil =>
      rw [List.map_singleton, separated_singleton]
      refine reads_append_iff.mpr ⟨_, first _, ?_⟩
      refine reads_cons_iff.mpr ⟨_, rfl, reads_nil_iff.mpr ?_⟩
      rw [List.reverse_cons]
  | cons second rest inductionHypothesis =>
      rw [List.forall_mem_cons] at eachRest
      obtain ⟨next, eachRest⟩ := eachRest
      rw [List.map_cons, separated_cons (by simp), List.append_assoc]
      refine reads_append_iff.mpr ⟨_, first _, ?_⟩
      refine reads_cons_iff.mpr ⟨_, rfl, ?_⟩
      refine (inductionHypothesis next eachRest).trans ?_
      rw [List.reverse_cons, List.append_assoc, List.singleton_append]

theorem reads_entries
    {done entries : List (Option String × Value)}
    {entry : Option String × Value}
    (each : ∀ member ∈ entry :: entries, TakesIn member.2) :
    (Parse.mk stack (.key done)).Reads
      (separated ((entry :: entries).map Value.entryTokens) ++ [.endObject])
      ⟨stack, .separator (.object (done.reverse ++ entry :: entries))⟩ := by
  rw [List.forall_mem_cons] at each
  obtain ⟨first, eachRest⟩ := each
  induction entries generalizing done entry with
  | nil =>
      rw [List.map_singleton, separated_singleton]
      refine reads_cons_iff.mpr ⟨_, rfl, reads_cons_iff.mpr ⟨_, rfl, ?_⟩⟩
      refine reads_append_iff.mpr ⟨_, first _, ?_⟩
      refine reads_cons_iff.mpr ⟨_, rfl, reads_nil_iff.mpr ?_⟩
      rw [List.reverse_cons]
  | cons second rest inductionHypothesis =>
      rw [List.forall_mem_cons] at eachRest
      obtain ⟨next, eachRest⟩ := eachRest
      rw [List.map_cons, separated_cons (by simp), List.append_assoc]
      refine reads_cons_iff.mpr ⟨_, rfl, reads_cons_iff.mpr ⟨_, rfl, ?_⟩⟩
      refine reads_append_iff.mpr ⟨_, first _, ?_⟩
      refine reads_cons_iff.mpr ⟨_, rfl, ?_⟩
      refine (inductionHypothesis next eachRest).trans ?_
      rw [List.reverse_cons, List.append_assoc, List.singleton_append]

theorem takesIn (value : Value) : TakesIn value := by
  induction value using Value.induction with
  | scalar value isScalar =>
      intro stack
      rw [Value.tokens_of_isScalar isScalar]
      exact reads_cons_iff.mpr ⟨_, rfl, reads_nil_iff.mpr rfl⟩
  | array items each =>
      intro stack
      rw [Value.tokens_array]
      refine reads_cons_iff.mpr ⟨_, rfl, ?_⟩
      cases items with
      | nil => exact reads_cons_iff.mpr ⟨_, rfl, reads_nil_iff.mpr rfl⟩
      | cons item rest =>
          obtain ⟨later, tokens_eq⟩ :=
            exists_separated_cons item.tokens (rest.map Value.tokens)
          have reads : (Parse.mk (.array [] :: stack) .value).Reads _ _ :=
            reads_items each
          rw [List.map_cons, tokens_eq, List.append_assoc] at reads ⊢
          exact reads.of_firstItem
  | object entries each =>
      intro stack
      rw [Value.tokens_object]
      refine reads_cons_iff.mpr ⟨_, rfl, ?_⟩
      cases entries with
      | nil => exact reads_cons_iff.mpr ⟨_, rfl, reads_nil_iff.mpr rfl⟩
      | cons entry rest =>
          have reads : (Parse.mk stack (.key [])).Reads _ _ :=
            reads_entries each
          cases rest <;> exact reads

/-- The machine ends with a value when it has taken the tokens of that value,
and only then. -/
theorem reads_initial_iff
    {value : Value}
    (areProper : ∀ token ∈ tokens, token.IsProper) :
    initial.Reads tokens ⟨[], .separator value⟩ ↔ tokens = value.tokens := by
  constructor
  · intro reads
    have isSound : initial.IsSound := by simp [initial, IsSound]
    have read_eq := reads.read_eq isSound areProper
    simpa [read, initial, Awaiting.read] using read_eq.symm
  · rintro rfl
    exact takesIn value []

theorem result?_eq_some_iff
    {value : Value} :
    parse.result? = some value ↔ parse = ⟨[], .separator value⟩ := by
  constructor
  · intro result_eq
    rw [result?.eq_def] at result_eq
    split at result_eq
    · cases result_eq
      rfl
    · cases result_eq
  · rintro rfl
    rfl

end Parse

end Json
end LockBench
