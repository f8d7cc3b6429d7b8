/-!
# Scanning TOML

Every scanner takes a part off the front of the characters and leaves the
rest.  This module scans what separates statements, strings in their four
styles, and keys.
-/

namespace LockBench
namespace Toml

/-! ## Separators -/

/-- A space or a tab. -/
def isSpace (c : Char) : Bool :=
  c = ' ' || c = '\t'

/-- The characters after spaces and tabs. -/
def skipSpaces (chars : List Char) : List Char :=
  chars.dropWhile isSpace

/-- A character that may stand in a comment or a literal string. -/
def isPrintable (c : Char) : Bool :=
  c = '\t' || (0x20 ≤ c.toNat && c.toNat ≠ 0x7F)

/-- The characters after spaces, tabs, line ends and comments; the first
argument says whether a comment is open. -/
def skipBreaks? (comment : Bool) : List Char -> Option (List Char)
  | [] => some []
  | '\n' :: rest => skipBreaks? false rest
  | '\r' :: '\n' :: rest => skipBreaks? false rest
  | c :: rest =>
    if comment then if isPrintable c then skipBreaks? true rest else none
    else if isSpace c then skipBreaks? false rest
    else if c = '#' then skipBreaks? true rest
    else some (c :: rest)

/-- The characters after the end of a statement's line: spaces, a comment if
there is one, and a line end or the end of the document. -/
def endLine? (comment : Bool) : List Char -> Option (List Char)
  | [] => some []
  | '\n' :: rest => some rest
  | '\r' :: '\n' :: rest => some rest
  | c :: rest =>
    if comment then if isPrintable c then endLine? true rest else none
    else if isSpace c then endLine? false rest
    else if c = '#' then endLine? true rest
    else none

/-! ## Escapes -/

/-- The value of a digit of base sixteen. -/
def hexDigitValue? (c : Char) : Option Nat :=
  if c.isDigit then some (c.toNat - 48)
  else if 'a' ≤ c ∧ c ≤ 'f' then some (c.toNat - 87)
  else if 'A' ≤ c ∧ c ≤ 'F' then some (c.toNat - 55)
  else none

/-- The character whose number is written in base sixteen. -/
def scalar? (digits : List Char) : Option Char := do
  let code ← digits.foldlM
    (fun value c => (hexDigitValue? c).map (value * 16 + ·)) 0
  if code.isValidChar then some (Char.ofNat code) else none

/-- The character that an escape names, from after its backslash. -/
def escape? : List Char -> Option (Char × List Char)
  | 'b' :: rest => some ('\x08', rest)
  | 't' :: rest => some ('\t', rest)
  | 'n' :: rest => some ('\n', rest)
  | 'f' :: rest => some ('\x0c', rest)
  | 'r' :: rest => some ('\r', rest)
  | 'e' :: rest => some ('\x1b', rest)
  | '\x22' :: rest => some ('\x22', rest)
  | '\\' :: rest => some ('\\', rest)
  | 'x' :: rest => numbered 2 rest
  | 'u' :: rest => numbered 4 rest
  | 'U' :: rest => numbered 8 rest
  | _ => none
where
  /-- An escape by number, of a fixed count of digits. -/
  numbered (count : Nat) (chars : List Char) : Option (Char × List Char) :=
    if chars.length < count then none
    else (scalar? (chars.take count)).map (·, chars.drop count)

/-! ## Strings -/

/-- The rest of a basic string.  The first argument bounds the number of its
pieces. -/
def basicRest? : Nat -> List Char -> Option (List Char × List Char)
  | 0, _ => none
  | _, [] => none
  | steps + 1, c :: rest =>
    if c = '\x22' then some ([], rest)
    else if c = '\\' then do
      let (value, afterEscape) ← escape? rest
      let (text, after) ← basicRest? steps afterEscape
      return (value :: text, after)
    else if isPrintable c then do
      let (text, after) ← basicRest? steps rest
      return (c :: text, after)
    else none

/-- The rest of a literal string. -/
def literalRest? : List Char -> Option (List Char × List Char)
  | [] => none
  | c :: rest =>
    if c = '\x27' then some ([], rest)
    else if isPrintable c then do
      let (text, after) ← literalRest? rest
      return (c :: text, after)
    else none

/-- The end of a multi-line string at three to five delimiters in a row: the
delimiters that belong to the text, and the rest. -/
def closing?
    (mark : Char) : List Char -> Option (List Char × List Char)
  | a :: b :: c :: rest =>
    if a = mark ∧ b = mark ∧ c = mark then
      match rest with
      | d :: e :: further =>
        if d = mark then
          if e = mark then some ([mark, mark], further)
          else some ([mark], e :: further)
        else some ([], rest)
      | [d] => if d = mark then some ([mark], []) else some ([], rest)
      | [] => some ([], [])
    else none
  | _ => none

/-- The characters after a backslash at the end of a line of a multi-line
string: spaces and line ends up to the next other character. -/
def skipFolded? (broken : Bool) : List Char -> Option (List Char)
  | [] => none
  | '\n' :: rest => skipFolded? true rest
  | '\r' :: '\n' :: rest => skipFolded? true rest
  | c :: rest =>
    if isSpace c then skipFolded? broken rest
    else if broken then some (c :: rest)
    else none

/-- The rest of a multi-line basic string.  The first argument bounds the
number of its pieces. -/
def multilineBasicRest? : Nat -> List Char -> Option (List Char × List Char)
  | 0, _ => none
  | steps + 1, chars =>
    match closing? '\x22' chars with
    | some (text, after) => some (text, after)
    | none =>
      match chars with
      | '\\' :: rest =>
        match escape? rest with
        | some (value, afterEscape) => do
          let (text, after) ← multilineBasicRest? steps afterEscape
          return (value :: text, after)
        | none => do
          let folded ← skipFolded? false rest
          multilineBasicRest? steps folded
      | '\r' :: '\n' :: rest => do
        let (text, after) ← multilineBasicRest? steps rest
        return ('\r' :: '\n' :: text, after)
      | c :: rest =>
        if isPrintable c ∨ c = '\n' then do
          let (text, after) ← multilineBasicRest? steps rest
          return (c :: text, after)
        else none
      | [] => none

/-- The rest of a multi-line literal string.  The first argument bounds the
number of its pieces. -/
def multilineLiteralRest? : Nat -> List Char -> Option (List Char × List Char)
  | 0, _ => none
  | steps + 1, chars =>
    match closing? '\x27' chars with
    | some (text, after) => some (text, after)
    | none =>
      match chars with
      | '\r' :: '\n' :: rest => do
        let (text, after) ← multilineLiteralRest? steps rest
        return ('\r' :: '\n' :: text, after)
      | c :: rest =>
        if isPrintable c ∨ c = '\n' then do
          let (text, after) ← multilineLiteralRest? steps rest
          return (c :: text, after)
        else none
      | [] => none

/-- A multi-line string without the line end right after its opening
delimiter. -/
def dropFirstBreak : List Char -> List Char
  | '\n' :: rest => rest
  | '\r' :: '\n' :: rest => rest
  | chars => chars

/-- A string on one line, from its opening delimiter. -/
def lineString? : List Char -> Option (List Char × List Char)
  | '\x22' :: rest => basicRest? (rest.length + 1) rest
  | '\x27' :: rest => literalRest? rest
  | _ => none

/-- A string of any style, from its opening delimiter. -/
def string? : List Char -> Option (List Char × List Char)
  | '\x22' :: '\x22' :: '\x22' :: rest =>
    multilineBasicRest? (rest.length + 1) (dropFirstBreak rest)
  | '\x27' :: '\x27' :: '\x27' :: rest =>
    multilineLiteralRest? (rest.length + 1) (dropFirstBreak rest)
  | chars => lineString? chars

/-! ## Keys -/

/-- A character of a bare key. -/
def isBareKey (c : Char) : Bool :=
  c.isAlphanum || c = '_' || c = '-'

/-- One part of a key: bare, or a string on one line. -/
def keyPart? (chars : List Char) : Option (String × List Char) :=
  match chars.takeWhile isBareKey with
  | [] => (lineString? chars).map fun (text, rest) => (String.ofList text, rest)
  | bare => some (String.ofList bare, chars.dropWhile isBareKey)

/-- A key of one part or more, with spaces allowed around the dots and at
either end.  The first argument limits the number of parts. -/
def keyWithin? : Nat -> List Char -> Option (List String × List Char)
  | 0, _ => none
  | limit + 1, chars => do
    let (part, rest) ← keyPart? (skipSpaces chars)
    match skipSpaces rest with
    | '.' :: further => do
      let (parts, after) ← keyWithin? limit further
      return (part :: parts, after)
    | after => return ([part], after)

/-- The greatest number of parts of a key, and the depth to which arrays and
inline tables may nest. -/
def depthLimit : Nat := 80

/-- A key. -/
def key? (chars : List Char) : Option (List String × List Char) :=
  keyWithin? depthLimit chars

end Toml
end LockBench
