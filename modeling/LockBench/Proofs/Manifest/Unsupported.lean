import LockBench.Proofs.Manifest.Entries
import LockBench.Proofs.Toml.Grammar

/-!
# Values that are no plain text

An inline table, a string on several lines and a string in which a quote is
escaped are no plain text between two quotes.  A row that assigns such a value
to a bare key is not passed over: what stands between the first two quotes of
the value is taken for all of it.  Only an inline table, which starts with no
quote, declares nothing under its key.  And where no blanks stand around the
equals sign, the name may run on into the value, so that an assignment inside
of the value counts.
-/

namespace LockBench
namespace Pipfile

/-! ## Keys and values -/

/-- A row assigns a value to a bare key, with some blanks on the left and on
the right of the equals sign. -/
structure Sets (row key left right value : List Char) : Prop where
  /-- The row is made of these parts. -/
  row_eq : row = key ++ (left ++ '=' :: (right ++ value))
  /-- The key is not empty. -/
  someCharacter : key ≠ []
  /-- The key needs no quotes. -/
  areBare : ∀ c ∈ key, Toml.Grammar.IsKeyCharacter c
  /-- There are only blanks in front of the sign. -/
  blankLeft : ∀ c ∈ left, Text.isBlank c = true
  /-- There are only blanks after the sign. -/
  blankRight : ∀ c ∈ right, Text.isBlank c = true

open Toml.Grammar in
/-- The rest of a basic string, from one of its pieces on, has an escaped
double quote in it. -/
inductive EscapesQuote : List Char -> Prop
  | here
      {rest text after : List Char}
      (closes : Line '\x22' BasicPiece rest text after) :
      EscapesQuote ('\\' :: '\x22' :: rest)
  | later
      {before text middle : List Char}
      (first : BasicPiece before text middle)
      (escapes : EscapesQuote middle) :
      EscapesQuote before

/-- A value that is no plain text between two quotes. -/
inductive Unsupported : List Char -> Prop
  /-- An inline table. -/
  | table (rest : List Char) : Unsupported ('{' :: rest)
  /-- A string on several lines. -/
  | lines (rest : List Char) :
      Unsupported ('\x22' :: '\x22' :: '\x22' :: rest)
  /-- A string with an escaped quote. -/
  | escaped
      {rest : List Char}
      (escapes : EscapesQuote rest) :
      Unsupported ('\x22' :: rest)

/-- A value starts with a text between two quotes. -/
def Quotes
    (value shown : List Char) : Prop :=
  ∃ rest, value = '\x22' :: (shown ++ '\x22' :: rest) ∧ '\x22' ∉ shown

/-- A Pipfile declares one requirement more than another, in a section. -/
def Adds
    (requirement : Requirement)
    (here : Section)
    (less more : Pipfile) : Prop :=
  ∃ front back : Pipfile,
    less = front ++ back ∧ more = front ++ cons requirement back here

/-- A quote is left in a string after the one that opens it. -/
theorem EscapesQuote.quote_mem
    {text : List Char}
    (escapes : EscapesQuote text) : '\x22' ∈ text := by
  induction escapes with
  | here closes => simp
  | later first escapes inductionHypothesis =>
      cases first with
      | plain isText noMark noEscape rest =>
          exact List.mem_cons_of_mem _ inductionHypothesis
      | escaped escape =>
          cases escape with
          | letter isEscape rest =>
              exact List.mem_cons_of_mem _
                (List.mem_cons_of_mem _ inductionHypothesis)
          | number isEscape counted isNumber rest =>
              exact List.mem_cons_of_mem _ (List.mem_cons_of_mem _
                (List.mem_append_right _ inductionHypothesis))

/-- A string without a plain text still starts with a text between quotes. -/
theorem Unsupported.exists_quotes
    {value : List Char}
    (unsupported : Unsupported value)
    (opens : value.head? = some '\x22') : ∃ shown, Quotes value shown := by
  cases unsupported with
  | table rest => simp at opens
  | lines rest => exact ⟨[], '\x22' :: rest, rfl, List.not_mem_nil⟩
  | escaped escapes =>
      obtain ⟨shown, rest, rfl, noQuote⟩ :=
        List.eq_append_cons_of_mem escapes.quote_mem
      exact ⟨shown, rest, rfl, noQuote⟩

/-- A character of a key is no blank. -/
theorem isBlank_of_isKeyCharacter
    {c : Char}
    (isBare : Toml.Grammar.IsKeyCharacter c) : Text.isBlank c = false := by
  rcases isBare with alphanumeric | rfl | rfl
  · unfold Char.isAlphanum Char.isAlpha Char.isUpper Char.isLower
      Char.isDigit at alphanumeric
    simp only [Bool.or_eq_true, Bool.and_eq_true, decide_eq_true_eq,
      ge_iff_le, UInt32.le_iff_toNat_le, Char.reduceVal, UInt32.reduceToNat,
      Char.toNat_val] at alphanumeric
    simp only [Text.isBlank, Bool.or_eq_false_iff, Bool.and_eq_false_iff,
      decide_eq_false_iff_not, beq_eq_false_iff_ne]
    omega
  · decide
  · decide

/-- A character of a key is no sign, no bracket and no number sign. -/
theorem ne_of_isKeyCharacter
    {c : Char}
    (isBare : Toml.Grammar.IsKeyCharacter c) : c ≠ '=' ∧ c ≠ '[' ∧ c ≠ '#' := by
  refine ⟨?_, ?_, ?_⟩ <;>
  · rintro rfl
    simp [Toml.Grammar.IsKeyCharacter] at isBare

/-! ## How such a row can be written -/

/-- Nothing is assigned where something else than an equals sign follows the
blanks. -/
theorem not_assigns
    {blanks : List Char}
    (areBlank : ∀ c ∈ blanks, Text.isBlank c = true)
    {c : Char}
    (notBlank : Text.isBlank c = false)
    (noSign : c ≠ '=')
    (rest shown : List Char) : ¬Assigns (blanks ++ c :: rest) shown := by
  intro assigns
  have found := value?_eq_some_iff.mpr assigns
  rw [value?, dropBlank_append areBlank notBlank] at found
  split at found
  case h_1 sign => exact noSign (List.cons.inj sign).1
  case h_2 => cases found

/-- No name starts with a blank. -/
theorem not_written_blank
    {c : Char}
    (blank : Text.isBlank c = true)
    (rest name shown : List Char) : ¬Written (c :: rest) name shown := by
  intro written
  obtain ⟨_, _, _, row_eq, rfl⟩ := written.exists_cons
  obtain ⟨rfl, -⟩ := List.cons.inj row_eq
  have notBlank := written.noBlank c List.mem_cons_self
  exact absurd blank (by simp [notBlank])

/-- A name is the first character of its row, or goes on from there. -/
theorem written_iff_exists_cons
    {c : Char}
    (notBlank : Text.isBlank c = false)
    {rest name shown : List Char} :
    Written (c :: rest) name shown ↔
      ∃ others, name = c :: others ∧
        (others = [] ∧ Assigns rest shown ∨ Written rest others shown) := by
  constructor
  · intro written
    obtain ⟨_, _, others, row_eq, rfl⟩ := written.exists_cons
    obtain ⟨rfl, rfl⟩ := List.cons.inj row_eq
    exact ⟨others, rfl, (written_cons_iff.mp written).2⟩
  · rintro ⟨others, rfl, goesOn⟩
    exact written_cons_iff.mpr ⟨notBlank, goesOn⟩

/-- A name that starts in a key runs over all of it. -/
theorem written_key_iff
    {key : List Char}
    (someCharacter : key ≠ [])
    (areBare : ∀ c ∈ key, Toml.Grammar.IsKeyCharacter c)
    {rest name shown : List Char} :
    Written (key ++ rest) name shown ↔
      ∃ others, name = key ++ others ∧
        (others = [] ∧ Assigns rest shown ∨ Written rest others shown) := by
  induction key generalizing name with
  | nil => exact absurd rfl someCharacter
  | cons c key inductionHypothesis =>
      have notBlank := isBlank_of_isKeyCharacter (areBare c List.mem_cons_self)
      cases key with
      | nil => exact written_iff_exists_cons notBlank
      | cons next more =>
          have nextBare : Toml.Grammar.IsKeyCharacter next :=
            areBare next (List.mem_cons_of_mem _ List.mem_cons_self)
          have noSign : next ≠ '=' := (ne_of_isKeyCharacter nextBare).1
          have notHere : ¬Assigns (next :: more ++ rest) shown :=
            not_assigns (List.forall_mem_nil _)
              (isBlank_of_isKeyCharacter nextBare) noSign _ _
          have further : ∀ others, Written (next :: more ++ rest) others shown ↔
              ∃ suffix, others = next :: more ++ suffix ∧
                (suffix = [] ∧ Assigns rest shown ∨
                  Written rest suffix shown) := fun _ =>
            inductionHypothesis (List.cons_ne_nil next more)
              fun other present =>
                areBare other (List.mem_cons_of_mem _ present)
          rw [List.cons_append, written_iff_exists_cons notBlank]
          constructor
          · rintro ⟨others, rfl, ⟨-, assigns⟩ | written⟩
            · exact absurd assigns notHere
            · obtain ⟨suffix, rfl, goesOn⟩ := (further others).mp written
              exact ⟨suffix, rfl, goesOn⟩
          · rintro ⟨suffix, rfl, goesOn⟩
            exact ⟨_, rfl, .inr ((further _).mpr ⟨suffix, rfl, goesOn⟩)⟩

/-- Where the value starts with no blank, it is assigned if and only if it
starts with a text between quotes. -/
theorem assigns_sign_iff
    {left right value shown : List Char}
    (blankLeft : ∀ c ∈ left, Text.isBlank c = true)
    (blankRight : ∀ c ∈ right, Text.isBlank c = true)
    (starts : ∀ c ∈ value.head?, Text.isBlank c = false) :
    Assigns (left ++ '=' :: (right ++ value)) shown ↔ Quotes value shown := by
  constructor
  · intro assigns
    have sign := dropBlank_append blankLeft (c := '=') (by decide)
      (right ++ value)
    have kept : Text.dropBlank (right ++ value) = value := by
      cases value with
      | nil =>
          rw [List.append_nil, Text.dropBlank,
            List.dropWhile_eq_nil_iff.mpr blankRight]
      | cons c rest => exact dropBlank_append blankRight (starts c rfl) rest
    have found := value?_eq_some_iff.mpr assigns
    simp only [value?, sign, kept] at found
    split at found
    case h_2 => cases found
    case h_1 quoted =>
      split_ifs at found with closed
      obtain ⟨text, rest, rfl, noQuote⟩ := List.eq_append_cons_of_mem closed
      rw [Text.takeWhile_ne_append noQuote, Option.some.injEq] at found
      subst found
      exact ⟨rest, rfl, noQuote⟩
  · rintro ⟨rest, rfl, noQuote⟩
    exact ⟨left, right, rest, rfl, blankLeft, blankRight, noQuote⟩

/-- A name that starts at the equals sign runs over it into the value, and
there are no blanks around the sign. -/
theorem written_sign_iff
    {left right value name shown : List Char}
    (blankLeft : ∀ c ∈ left, Text.isBlank c = true)
    (blankRight : ∀ c ∈ right, Text.isBlank c = true)
    (starts : ∃ c rest, value = c :: rest ∧ Text.isBlank c = false ∧ c ≠ '=') :
    Written (left ++ '=' :: (right ++ value)) name shown ↔
      left = [] ∧ right = [] ∧
        ∃ others, name = '=' :: others ∧ Written value others shown := by
  obtain ⟨first, rest, rfl, notBlank, noSign⟩ := starts
  have notHere : ¬Assigns (right ++ first :: rest) shown :=
    not_assigns blankRight notBlank noSign rest shown
  cases left with
  | cons c others =>
      simp only [reduceCtorEq, false_and, iff_false]
      exact not_written_blank (blankLeft c List.mem_cons_self) _ name shown
  | nil =>
      rw [List.nil_append, written_iff_exists_cons (by decide)]
      simp only [notHere, and_false, false_or]
      cases right with
      | cons c others =>
          have notFurther := not_written_blank
            (blankRight c List.mem_cons_self) (others ++ first :: rest)
          simp [notFurther]
      | nil => simp

section Row

variable {row key left right value : List Char}
  (sets : Sets row key left right value)
  (unsupported : Unsupported value)

include sets unsupported

/-- Such a row can be written with its key and what stands between the first
two quotes, and, if there are no blanks around the sign, in every way in which
the value can be written. -/
theorem Sets.written_iff {name shown : List Char} :
    Written row name shown ↔
      name = key ∧ Quotes value shown ∨
        left = [] ∧ right = [] ∧ ∃ others, name = key ++ '=' :: others ∧
          Written value others shown := by
  obtain ⟨first, rest, value_eq, notBlank, noSign⟩ : ∃ c rest,
      value = c :: rest ∧ Text.isBlank c = false ∧ c ≠ '=' := by
    cases unsupported <;> exact ⟨_, _, rfl, by decide, by decide⟩
  have starts : ∀ c ∈ value.head?, Text.isBlank c = false := by
    rintro c isFirst
    obtain rfl : first = c := by simpa [value_eq] using isFirst
    exact notBlank
  rw [sets.row_eq, written_key_iff sets.someCharacter sets.areBare]
  simp only [assigns_sign_iff sets.blankLeft sets.blankRight starts,
    written_sign_iff sets.blankLeft sets.blankRight
      ⟨first, rest, value_eq, notBlank, noSign⟩]
  constructor
  · rintro ⟨suffix, rfl, ⟨rfl, quotes⟩ | ⟨noLeft, noRight, others, rfl,
      written⟩⟩
    · exact .inl ⟨List.append_nil key, quotes⟩
    · exact .inr ⟨noLeft, noRight, others, rfl, written⟩
  · rintro (⟨rfl, quotes⟩ | ⟨noLeft, noRight, others, rfl, written⟩)
    · exact ⟨[], (List.append_nil _).symm, .inl ⟨rfl, quotes⟩⟩
    · exact ⟨_, rfl, .inr ⟨noLeft, noRight, others, rfl, written⟩⟩

/-- An entry inside of the value is the entry of the row, with the key in its
name. -/
theorem Sets.isEntry_inside
    (noLeft : left = [])
    (noRight : right = [])
    {name shown : List Char}
    (entry : IsEntry value name shown) :
    IsEntry row (key ++ '=' :: name) shown where
  written := (sets.written_iff unsupported).mpr
    (.inr ⟨noLeft, noRight, name, rfl, entry.written⟩)
  longest other text written := by
    rcases (sets.written_iff unsupported).mp written with ⟨rfl, -⟩ |
      ⟨-, -, others, rfl, inside⟩
    · simp
    · have shorter := entry.longest others text inside
      simp only [List.length_append, List.length_cons]
      omega
  only text written := by
    rcases (sets.written_iff unsupported).mp written with ⟨same, -⟩ |
      ⟨-, -, others, same, inside⟩
    · simp at same
    · obtain rfl : name = others := by simpa using same
      exact entry.only text inside

variable
  (noneInside : left = [] -> right = [] ->
    ¬∃ name shown, Written value name shown)

include noneInside

/-- Without one the entry of the row is its key, with what stands between the
first two quotes. -/
theorem Sets.isEntry_key
    {shown : List Char}
    (quotes : Quotes value shown) : IsEntry row key shown where
  written := (sets.written_iff unsupported).mpr (.inl ⟨rfl, quotes⟩)
  longest other text written := by
    rcases (sets.written_iff unsupported).mp written with ⟨rfl, -⟩ |
      ⟨noLeft, noRight, others, -, inside⟩
    · exact Nat.le_refl _
    · exact absurd ⟨others, text, inside⟩ (noneInside noLeft noRight)
  only text written := by
    rcases (sets.written_iff unsupported).mp written with
      ⟨-, rest, value_eq, noQuote⟩ | ⟨noLeft, noRight, others, -, inside⟩
    · obtain ⟨otherRest, otherValue_eq, otherNoQuote⟩ := quotes
      have same := (List.cons.inj (otherValue_eq.symm.trans value_eq)).2
      rw [← Text.takeWhile_ne_append noQuote rest, ← same,
        Text.takeWhile_ne_append otherNoQuote]
    · exact absurd ⟨others, text, inside⟩ (noneInside noLeft noRight)

/-- An inline table with no entry inside is no entry. -/
theorem Sets.not_written
    (isTable : value.head? = some '{') :
    ¬∃ name shown, Written row name shown := by
  rintro ⟨name, shown, written⟩
  rcases (sets.written_iff unsupported).mp written with
    ⟨-, rest, rfl, -⟩ | ⟨noLeft, noRight, others, -, inside⟩
  · simp at isTable
  · exact noneInside noLeft noRight ⟨others, shown, inside⟩

end Row

/-! ## What such a row adds -/

/-- A row that assigns to a key is neither a header nor idle. -/
theorem Sets.isPlain
    {row key left right value : List Char}
    (sets : Sets row key left right value) : isPlain row = true := by
  obtain ⟨c, others, rfl⟩ := List.exists_cons_of_ne_nil sets.someCharacter
  obtain ⟨-, noBracket, noNumberSign⟩ :=
    ne_of_isKeyCharacter (sets.areBare c List.mem_cons_self)
  simp [sets.row_eq, Pipfile.isPlain, isHeader, isIdle, noBracket,
    noNumberSign]

section Added

variable {text without : String} {before after : List (List Char)}
  {row : List Char} {here : Section}
  (rows_eq : rows text.toList = before ++ row :: after)
  (without_eq : rows without.toList = before ++ after)
  (header : nearestHeader? before = some here.header)
  (plain : isPlain row = true)

include rows_eq without_eq header plain

/-- An entry in a section adds its requirement there. -/
theorem adds_of_isEntry
    {name value : List Char}
    (entry : IsEntry row name value) :
    Adds (declared name value) here (ofText without) (ofText text) := by
  have declares : requirement? row = some (declared name value) :=
    requirement?_eq_some_iff.mpr ⟨name, value, entry, rfl⟩
  refine ⟨ofTrimmed none before, ofTrimmed (some here) after, ?_, ?_⟩
  · rw [ofText_eq, without_eq, ofTrimmed_append,
      sectionAfter_none_eq_some_iff.mpr header]
  · rw [ofText_eq, rows_eq, ofTrimmed_append,
      sectionAfter_none_eq_some_iff.mpr header, ofTrimmed_some_cons here plain,
      declares]
    rfl

/-- A row that is no entry adds nothing. -/
theorem ofText_eq_of_not_written
    (noEntry : ¬∃ name value, Written row name value) :
    ofText text = ofText without := by
  rw [ofText_eq, ofText_eq, rows_eq, without_eq, ofTrimmed_append,
    ofTrimmed_append, sectionAfter_none_eq_some_iff.mpr header,
    ofTrimmed_some_cons here plain, requirement?_eq_none_iff.mpr noEntry]
  rfl

end Added

/-- What a row of a section adds if it assigns a value that is no plain text to
a bare key.  If there are no blanks around the equals sign and the value is an
entry in itself, that entry is added with the key in its name.  Otherwise an
inline table adds nothing, and any other such value adds its key with what
stands between the first two quotes of the value. -/
theorem unsupported_values_are_cut
    {text without : String}
    {before after : List (List Char)}
    {row : List Char}
    {here : Section}
    (rows_eq : rows text.toList = before ++ row :: after)
    (without_eq : rows without.toList = before ++ after)
    (header : nearestHeader? before = some here.header)
    {key left right value : List Char}
    (sets : Sets row key left right value)
    (unsupported : Unsupported value) :
    (left = [] -> right = [] -> ∀ name shown, IsEntry value name shown ->
        Adds (declared (key ++ '=' :: name) shown) here
          (ofText without) (ofText text)) ∧
      ((left = [] -> right = [] -> ¬∃ name shown, Written value name shown) ->
        (value.head? = some '{' -> ofText text = ofText without) ∧
          (value.head? = some '\x22' -> ∃ shown, Quotes value shown ∧
            Adds (declared key shown) here
              (ofText without) (ofText text))) := by
  have plain := sets.isPlain
  refine ⟨fun noLeft noRight name shown entry => ?_,
    fun noneInside => ⟨fun isTable => ?_, fun opens => ?_⟩⟩
  · exact adds_of_isEntry rows_eq without_eq header plain
      (sets.isEntry_inside unsupported noLeft noRight entry)
  · exact ofText_eq_of_not_written rows_eq without_eq header plain
      (sets.not_written unsupported noneInside isTable)
  · obtain ⟨shown, quotes⟩ := unsupported.exists_quotes opens
    exact ⟨shown, quotes, adds_of_isEntry rows_eq without_eq header plain
      (sets.isEntry_key unsupported noneInside quotes)⟩

/-- A compact inline table adds the entry inside of it. -/
theorem unsupported_values_are_cut_compact :
    let value := "\x7bversion=\"*\"\x7d".toList
    let before := ["[packages]".toList]
    let row := "requests=\x7bversion=\"*\"\x7d".toList
    rows "[packages]\nrequests=\x7bversion=\"*\"\x7d\nidna = \"<4\"".toList =
        before ++ row :: ["idna = \"<4\"".toList] ∧
      nearestHeader? before = some Section.packages.header ∧
      Sets row "requests".toList [] [] value ∧ Unsupported value ∧
      Adds ⟨"requests=\x7bversion", none⟩ .packages
        (ofText "[packages]\nidna = \"<4\"")
        (ofText
          "[packages]\nrequests=\x7bversion=\"*\"\x7d\nidna = \"<4\"") := by
  intro value before row
  have rows_eq : rows
      "[packages]\nrequests=\x7bversion=\"*\"\x7d\nidna = \"<4\"".toList =
        before ++ row :: ["idna = \"<4\"".toList] := by decide
  have without_eq : rows "[packages]\nidna = \"<4\"".toList =
      before ++ ["idna = \"<4\"".toList] := by decide
  have header : nearestHeader? before = some Section.packages.header := by
    decide
  have sets : Sets row "requests".toList [] [] value :=
    { row_eq := by decide
      someCharacter := by decide
      areBare := by simp [Toml.Grammar.IsKeyCharacter]
      blankLeft := by simp
      blankRight := by simp }
  have table : Unsupported value := .table "version=\"*\"\x7d".toList
  have entry : IsEntry value "\x7bversion".toList "*".toList := by
    have spec := pair?_spec value
    rwa [show pair? value = some ("\x7bversion".toList, "*".toList) by decide]
      at spec
  have added := (unsupported_values_are_cut rows_eq without_eq header sets
    table).1 rfl rfl _ _ entry
  have declares : declared ("requests".toList ++ '=' :: "\x7bversion".toList)
      "*".toList = ⟨"requests=\x7bversion", none⟩ := by decide
  rw [declares] at added
  exact ⟨rows_eq, header, sets, table, added⟩

/-- A string on several lines, an inline table without blanks and a string with
an escaped quote: each of these rows declares a requirement. -/
theorem unsupported_values_not_skipped :
    let lines := "\"\"\"1.0\"\"\"".toList
    let table := "\x7bversion=\"*\"\x7d".toList
    let escaped := "\"say \\\"hi\\\"\"".toList
    let text := "[packages]\nflask = \"\"\"1.0\"\"\"\n" ++
      "requests=\x7bversion=\"*\"\x7d\nidna = \"say \\\"hi\\\"\"\n"
    (Sets "flask = \"\"\"1.0\"\"\"".toList "flask".toList [' '] [' '] lines ∧
        Unsupported lines) ∧
      (Sets "requests=\x7bversion=\"*\"\x7d".toList "requests".toList [] []
          table ∧ Unsupported table) ∧
      (Sets "idna = \"say \\\"hi\\\"\"".toList "idna".toList [' '] [' ']
          escaped ∧ Unsupported escaped) ∧
      rows text.toList = ["[packages]".toList,
        "flask = \"\"\"1.0\"\"\"".toList,
        "requests=\x7bversion=\"*\"\x7d".toList,
        "idna = \"say \\\"hi\\\"\"".toList, []] ∧
      (ofText text).packages = [⟨"flask", some ""⟩,
        ⟨"requests=\x7bversion", none⟩, ⟨"idna", some "say \\"⟩] := by
  intro lines table escaped text
  have plain : ∀ c : Char, c ∈ "say hi".toList -> ∀ rest : List Char,
      Toml.Grammar.BasicPiece (c :: rest) [c] rest := by
    intro c member rest
    refine .plain ?_ ?_ ?_ rest <;>
      (revert c; simp [Toml.Grammar.IsText])
  have closes : Toml.Grammar.Line '\x22' Toml.Grammar.BasicPiece
      "hi\\\"\"".toList (['h'] ++ (['i'] ++ (['\x22'] ++ []))) [] :=
    .piece (plain 'h' (by decide) _) (.piece (plain 'i' (by decide) _)
      (.piece (.escaped (.letter (by decide) _)) (.close [])))
  have escapes : EscapesQuote "say \\\"hi\\\"\"".toList :=
    .later (plain 's' (by decide) _) (.later (plain 'a' (by decide) _)
      (.later (plain 'y' (by decide) _) (.later (plain ' ' (by decide) _)
        (.here closes))))
  have setsLines : Sets "flask = \"\"\"1.0\"\"\"".toList "flask".toList
      [' '] [' '] lines :=
    { row_eq := by decide
      someCharacter := by decide
      areBare := by simp [Toml.Grammar.IsKeyCharacter]
      blankLeft := by simp [Text.isBlank]
      blankRight := by simp [Text.isBlank] }
  have setsTable : Sets "requests=\x7bversion=\"*\"\x7d".toList
      "requests".toList [] [] table :=
    { row_eq := by decide
      someCharacter := by decide
      areBare := by simp [Toml.Grammar.IsKeyCharacter]
      blankLeft := List.forall_mem_nil _
      blankRight := List.forall_mem_nil _ }
  have setsEscaped : Sets "idna = \"say \\\"hi\\\"\"".toList "idna".toList
      [' '] [' '] escaped :=
    { row_eq := by decide
      someCharacter := by decide
      areBare := by simp [Toml.Grammar.IsKeyCharacter]
      blankLeft := by simp [Text.isBlank]
      blankRight := by simp [Text.isBlank] }
  exact ⟨⟨setsLines, .lines _⟩, ⟨setsTable, .table _⟩,
    ⟨setsEscaped, .escaped escapes⟩, by decide, by decide⟩

end Pipfile
end LockBench
