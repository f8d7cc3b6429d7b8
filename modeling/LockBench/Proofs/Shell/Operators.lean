import LockBench.Proofs.Shell.AndList

/-!
# Operators and expansions in a line

An and-list holds one operator less than it has commands, and all of them are
`&&`.  No line that is read at all has a character that calls for an expansion
outside of quotes.
-/

namespace LockBench
namespace Shell

/-! ## Operators -/

/-- Whether a token is an operator. -/
def Token.isOperator : Token -> Bool
  | .word _ => false
  | .operator _ => true

/-- Only words have letters. -/
theorem eq_map_word_of_mapM_letters?
    {tokens : List Token}
    {words : List (List Letter)}
    (areWords : tokens.mapM Token.letters? = some words) :
    tokens = words.map .word := by
  induction tokens generalizing words with
  | nil =>
      obtain rfl : [] = words := Option.some.inj areWords
      rfl
  | cons token rest inductionHypothesis =>
      cases token with
      | operator marks => simp [List.mapM_cons, Token.letters?] at areWords
      | word letters =>
          cases rest_eq : rest.mapM Token.letters? with
          | none =>
              simp [List.mapM_cons, Token.letters?, rest_eq] at areWords
          | some others =>
              obtain rfl : letters :: others = words := by
                simpa [List.mapM_cons, Token.letters?, rest_eq] using areWords
              rw [inductionHypothesis rest_eq, List.map_cons]

/-- A command is made of words. -/
theorem filter_isOperator_of_ofTokens?
    {tokens : List Token}
    {command : SimpleCommand}
    (isCommand : SimpleCommand.ofTokens? tokens = some command) :
    tokens.filter Token.isOperator = [] := by
  cases tokens with
  | nil => rfl
  | cons token rest =>
      obtain ⟨words, areWords, -⟩ := Option.map_eq_some_iff.mp isCommand
      rw [eq_map_word_of_mapM_letters? areWords]
      simp [List.filter_map, Function.comp_def, Token.isOperator]

/-- Between commands there is nothing but one operator each. -/
theorem filter_isOperator_intercalate
    {segments : List (List Token)}
    {commands : List SimpleCommand}
    (areCommands : segments.mapM SimpleCommand.ofTokens? = some commands) :
    ([Token.andIf].intercalate segments).filter Token.isOperator =
      List.replicate (commands.length - 1) Token.andIf := by
  induction segments generalizing commands with
  | nil =>
      obtain rfl : [] = commands := Option.some.inj areCommands
      rfl
  | cons segment rest inductionHypothesis =>
      rw [List.mapM_cons] at areCommands
      obtain ⟨command, isCommand, areOthers⟩ :=
        Option.bind_eq_some_iff.mp areCommands
      obtain ⟨others, rest_eq, commands_eq⟩ :=
        Option.bind_eq_some_iff.mp areOthers
      obtain rfl : command :: others = commands := Option.some.inj commands_eq
      have noOperator := filter_isOperator_of_ofTokens? isCommand
      have later := inductionHypothesis rest_eq
      cases rest with
      | nil =>
          obtain rfl : [] = others := Option.some.inj rest_eq
          simpa using noOperator
      | cons next more =>
          obtain ⟨other, more_eq⟩ : ∃ other more, others = other :: more := by
            rw [List.mapM_cons] at rest_eq
            obtain ⟨other, -, areMore⟩ := Option.bind_eq_some_iff.mp rest_eq
            obtain ⟨more, -, others_eq⟩ := Option.bind_eq_some_iff.mp areMore
            exact ⟨other, more, (Option.some.inj others_eq).symm⟩
          obtain ⟨more, rfl⟩ := more_eq
          rw [List.intercalate_cons_cons, List.filter_append,
            List.filter_append, noOperator, later]
          rfl

/-- An and-list has one operator less than it has commands. -/
theorem operators_of_andList?
    {line : String}
    {commands : List SimpleCommand}
    (read : andList? line = some commands) :
    ∃ tokens, tokens? line = some tokens ∧
      tokens.filter Token.isOperator =
        List.replicate (commands.length - 1) Token.andIf := by
  obtain ⟨tokens, tokens_eq, areCommands⟩ := Option.bind_eq_some_iff.mp read
  refine ⟨tokens, tokens_eq, ?_⟩
  rw [← filter_isOperator_intercalate areCommands, List.intercalate_splitOn]

/-! ## Expansions -/

/-- No letter that is not quoted calls for an expansion. -/
def Calm (letters : List Letter) : Prop :=
  ∀ letter ∈ letters, letter.quoted = false -> isActive letter.char = false

theorem Calm.concat
    {letters : List Letter}
    (calm : Calm letters)
    {letter : Letter}
    (isCalm : letter.quoted = false -> isActive letter.char = false) :
    Calm (letters ++ [letter]) := by
  intro other member
  rcases List.mem_append.mp member with earlier | isLast
  · exact calm other earlier
  · obtain rfl := List.mem_singleton.mp isLast
    exact isCalm

/-- A word calls for no expansion, and an operator never does. -/
def Token.Calm : Token -> Prop
  | .word letters => Shell.Calm letters
  | .operator _ => True

namespace Reading

/-- What has been read calls for no expansion. -/
structure Calm (reading : Reading) : Prop where
  /-- No complete token does. -/
  tokens : ∀ token ∈ reading.tokens, token.Calm
  /-- Nor does the word that is still open. -/
  pending : ∀ letters mode, reading.pending = .word letters mode ->
    Shell.Calm letters

section Step

variable {tokens : List Token} {letters : List Letter} {c : Char}
  {next : Reading}

/-- A word is completed. -/
theorem calm_concat
    (calmTokens : ∀ token ∈ tokens, token.Calm)
    (token : Token)
    (calmToken : token.Calm) :
    ∀ other ∈ tokens ++ [token], other.Calm := by
  intro other member
  rcases List.mem_append.mp member with earlier | isLast
  · exact calmTokens other earlier
  · obtain rfl := List.mem_singleton.mp isLast
    exact calmToken

theorem calm_word
    (calmTokens : ∀ token ∈ tokens, token.Calm)
    (calm : Shell.Calm letters)
    (mode : Mode) : Calm ⟨tokens, .word letters mode⟩ where
  tokens := calmTokens
  pending := by
    rintro _ _ ⟨⟩
    exact calm

theorem calm_extend
    (calmTokens : ∀ token ∈ tokens, token.Calm)
    (calm : Shell.Calm letters)
    (extended : extend tokens letters c = some next) : next.Calm := by
  rw [extend] at extended
  split_ifs at extended with isSingle isDouble isEscape active
  · cases extended
    exact calm_word calmTokens calm .single
  · cases extended
    exact calm_word calmTokens calm .double
  · cases extended
    exact calm_word calmTokens calm .escaped
  · cases extended
    exact calm_word calmTokens (calm.concat fun _ => by simpa using active)
      .bare

theorem calm_start
    (calmTokens : ∀ token ∈ tokens, token.Calm)
    (started : start tokens c = some next) : next.Calm := by
  rw [start] at started
  split_ifs at started
  · cases started
    exact ⟨calmTokens, by simp⟩
  · cases started
    exact ⟨calmTokens, by simp⟩
  · cases started
    exact ⟨calmTokens, by simp⟩
  · exact calm_extend calmTokens (by simp [Shell.Calm]) started

/-- A quoted letter may be any character. -/
theorem calm_quoted
    (calmTokens : ∀ token ∈ tokens, token.Calm)
    (calm : Shell.Calm letters)
    (c : Char)
    (mode : Mode) : Calm ⟨tokens, .word (letters ++ [⟨c, true⟩]) mode⟩ :=
  calm_word calmTokens (calm.concat (by simp)) mode

/-- One character calls for no expansion where it is read. -/
theorem Calm.step
    {reading : Reading}
    (calm : reading.Calm)
    (read : reading.step c = some next) : next.Calm := by
  obtain ⟨tokens, pending⟩ := reading
  have calmTokens := calm.tokens
  cases pending with
  | nothing => exact calm_start calmTokens read
  | comment =>
      simp only [Reading.step] at read
      split_ifs at read
      · exact calm_start calmTokens read
      · cases read
        exact calm
  | operator marks =>
      simp only [Reading.step] at read
      split_ifs at read
      · cases read
        exact ⟨calmTokens, by simp⟩
      · exact calm_start
          (calm_concat calmTokens (.operator marks) trivial) read
  | word letters mode =>
      have calmWord := calm.pending letters mode rfl
      cases mode with
      | bare =>
          simp only [Reading.step] at read
          split_ifs at read
          · exact calm_start
              (calm_concat calmTokens (.word letters) calmWord) read
          · exact calm_extend calmTokens calmWord read
      | escaped =>
          simp only [Reading.step] at read
          split_ifs at read
          cases read
          exact calm_quoted calmTokens calmWord c .bare
      | single =>
          simp only [Reading.step] at read
          split_ifs at read
          · cases read
            exact calm_word calmTokens calmWord .bare
          · cases read
            exact calm_quoted calmTokens calmWord c .single
      | double =>
          simp only [Reading.step] at read
          split_ifs at read
          · cases read
            exact calm_word calmTokens calmWord .bare
          · cases read
            exact calm_word calmTokens calmWord .doubleEscaped
          · cases read
            exact calm_quoted calmTokens calmWord c .double
      | doubleEscaped =>
          simp only [Reading.step] at read
          split_ifs at read
          · cases read
            exact calm_quoted calmTokens calmWord c .double
          · cases read
            rw [List.append_cons]
            exact calm_quoted calmTokens (calmWord.concat (by simp)) c .double

end Step

/-- Nor do any characters that are read one after another. -/
theorem Calm.feed
    {reading last : Reading}
    {text : List Char}
    (calm : reading.Calm)
    (read : reading.feed text = some last) : last.Calm := by
  induction text generalizing reading with
  | nil =>
      obtain rfl : reading = last := Option.some.inj read
      exact calm
  | cons c rest inductionHypothesis =>
      rw [feed_cons] at read
      obtain ⟨next, isStep, later⟩ := Option.bind_eq_some_iff.mp read
      exact inductionHypothesis (calm.step isStep) later

theorem Calm.finish
    {reading : Reading}
    {tokens : List Token}
    (calm : reading.Calm)
    (finished : reading.finish = some tokens) :
    ∀ token ∈ tokens, token.Calm := by
  obtain ⟨earlier, pending⟩ := reading
  have calmTokens := calm.tokens
  cases pending with
  | nothing =>
      obtain rfl : earlier = tokens := Option.some.inj finished
      exact calmTokens
  | comment =>
      obtain rfl : earlier = tokens := Option.some.inj finished
      exact calmTokens
  | operator marks =>
      obtain rfl : earlier ++ [.operator marks] = tokens := by
        simpa [Reading.finish] using finished
      exact calm_concat calmTokens (.operator marks) trivial
  | word letters mode =>
      have calmWord := calm.pending letters mode rfl
      cases mode with
      | bare =>
          obtain rfl : earlier ++ [.word letters] = tokens := by
            simpa [Reading.finish] using finished
          exact calm_concat calmTokens (.word letters) calmWord
      | escaped | single | double | doubleEscaped => cases finished

end Reading

/-- A line that is read calls for no expansion. -/
theorem calm_of_tokens?
    {line : String}
    {tokens : List Token}
    (read : tokens? line = some tokens) :
    ∀ token ∈ tokens, token.Calm := by
  obtain ⟨last, fed, finished⟩ := Option.bind_eq_some_iff.mp read
  have nothingRead : Reading.Calm {} := ⟨by simp, by simp⟩
  exact (nothingRead.feed fed).finish finished

/-! ## Two commands -/

/-- A line is two commands of some words, with one `&&` between them and
nothing else that a shell would act on. -/
structure Chains
    (line : String)
    (first second : List String) : Prop where
  /-- The commands have no assignments. -/
  commands : andList? line = some [⟨[], first⟩, ⟨[], second⟩]
  /-- There is one operator. -/
  operator : ∃ tokens, tokens? line = some tokens ∧
    tokens.filter Token.isOperator = [.andIf]
  /-- Nothing is expanded. -/
  calm : ∀ tokens, tokens? line = some tokens -> ∀ token ∈ tokens, token.Calm

theorem Chains.of_andList?
    {line : String}
    {first second : List String}
    (read : andList? line = some [⟨[], first⟩, ⟨[], second⟩]) :
    Chains line first second where
  commands := read
  operator := operators_of_andList? read
  calm _ := calm_of_tokens?

end Shell
end LockBench
