/-!
# Text without control sequences

A terminal obeys control characters, and the sequences that the escape
character starts.  Where a text does not go to a terminal, both are left out
and the rest stays.  Tabs and line ends are kept, even those inside of a
sequence.
-/

namespace LockBench
namespace Text

/-- A tab, or one of the characters that end a line or a page. -/
def isSpacing (c : Char) : Bool :=
  c = '\t' || c = '\n' || c = '\x0c' || c = '\r'

/-- A character that is seen where no control sequence is under way. -/
def isVisible (c : Char) : Bool :=
  isSpacing c || (0x20 ≤ c.toNat && c.toNat ≠ 0x7F)

/-- How far a control sequence has come. -/
inductive ControlSequence
  /-- There is none. -/
  | idle
  /-- Its escape character was met. -/
  | escape
  /-- Punctuation after the escape character, up to a letter or digit. -/
  | selection
  /-- Parameters after a bracket, up to a letter. -/
  | parameters
  /-- The start of a device control string. -/
  | device
  /-- The parameters of a device control string. -/
  | deviceParameters
  /-- Punctuation in the head of a device control string. -/
  | deviceSelection
  /-- A string that runs up to the next sequence. -/
  | string
  /-- A command to the system, up to a bell or the next sequence. -/
  | command
  deriving DecidableEq, Repr

namespace ControlSequence

/-- What the character after the escape character starts. -/
def start (c : Char) : ControlSequence :=
  if c = '[' then .parameters
  else if c = ']' then .command
  else if c = 'P' then .device
  else if c = 'X' ∨ c = '^' ∨ c = '_' then .string
  else if 0x20 ≤ c.toNat ∧ c.toNat ≤ 0x2F then .selection
  else if 0x30 ≤ c.toNat ∧ c.toNat ≤ 0x7E then .idle
  else .escape

/-- How far a sequence is after one more character.  The byte that ends a
string may also be a byte of a longer character. -/
def next
    (sequence : ControlSequence)
    (c : Char) : ControlSequence :=
  if c = '\x1b' then .escape
  else if c = '\x18' ∨ c = '\x1a' then .idle
  else
    match sequence with
    | .idle => .idle
    | .escape => start c
    | .selection =>
      if 0x30 ≤ c.toNat ∧ c.toNat ≤ 0x7E then .idle else .selection
    | .parameters =>
      if 0x40 ≤ c.toNat ∧ c.toNat ≤ 0x7E then .idle else .parameters
    | .device =>
      if 0x40 ≤ c.toNat ∧ c.toNat ≤ 0x7E then .string
      else if 0x30 ≤ c.toNat ∧ c.toNat ≤ 0x3F then .deviceParameters
      else if 0x20 ≤ c.toNat ∧ c.toNat ≤ 0x2F then .deviceSelection
      else .device
    | .deviceParameters =>
      if 0x3C ≤ c.toNat ∧ c.toNat ≤ 0x7E then .string
      else if 0x20 ≤ c.toNat ∧ c.toNat ≤ 0x2F then .deviceSelection
      else .deviceParameters
    | .deviceSelection =>
      if 0x30 ≤ c.toNat ∧ c.toNat ≤ 0x7E then .string else .deviceSelection
    | .string =>
      if (String.utf8EncodeChar c).contains 0x9C then .idle else .string
    | .command => if c = '\x07' then .idle else .command

/-- Whether a character is seen that is met in a sequence. -/
def shows : ControlSequence -> Char -> Bool
  | .idle, c => isVisible c
  | .escape, c => isSpacing c
  | .selection, c => isSpacing c
  | .parameters, c => isSpacing c
  | _, _ => false

end ControlSequence

/-- What is seen of some characters.  The first argument says whether the last
character was seen: what follows it is seen as well, up to a control
character, after which a sequence that is under way goes on. -/
def visibleFrom
    (seen : Bool)
    (sequence : ControlSequence) : List Char -> List Char
  | [] => []
  | c :: rest =>
    if seen && isVisible c then
      c :: visibleFrom true (if c.toNat < 0x80 then sequence else .idle) rest
    else if sequence.shows c then
      c :: visibleFrom true (sequence.next c) rest
    else visibleFrom false (sequence.next c) rest

/-- What is seen of a text. -/
def visible (text : String) : String :=
  String.ofList (visibleFrom false .idle text.toList)

theorem visibleFrom_eq_self
    (chars : List Char)
    (allVisible : ∀ c ∈ chars, isVisible c = true) :
    ∀ seen, visibleFrom seen .idle chars = chars := by
  induction chars with
  | nil => intro seen; rfl
  | cons c rest ih =>
    intro seen
    have head : isVisible c = true := allVisible c (by simp)
    have tail := ih fun d member => allVisible d (by simp [member])
    have stays : ControlSequence.idle.next c = .idle := by
      unfold ControlSequence.next
      by_cases escape : c = '\x1b'
      · subst escape; simp [isVisible, isSpacing] at head
      · simp [escape]
    cases seen <;>
      simp [visibleFrom, head, ControlSequence.shows, stays, tail]

/-- A text without control characters is seen as it is. -/
theorem visible_eq_self
    (text : String)
    (allVisible : ∀ c ∈ text.toList, isVisible c = true) :
    visible text = text := by
  simp [visible, visibleFrom_eq_self _ allVisible]

end Text
end LockBench
