import LockBench.Toml.Value

/-!
# Writing TOML

A string is written in the first of four styles that can hold it without
escapes, or with the fewest.  Arrays are written on one line, or one item a
line where the layout is pretty.  A table header is preceded by an empty line
unless it comes first.
-/

namespace LockBench
namespace Toml

/-- The four ways to write a string. -/
inductive StringStyle
  | basic
  | literal
  | multilineBasic
  | multilineLiteral
  deriving DecidableEq, Repr

/-- The facts about a text that decide how it is written. -/
structure Traits where
  /-- It holds a control character other than tab and newline. -/
  control : Bool
  /-- It holds a backslash. -/
  backslash : Bool
  /-- It holds a newline. -/
  newline : Bool
  /-- Length of its longest run of double quotes, at most 255. -/
  doubleRun : Nat
  /-- Length of its longest run of single quotes, at most 255. -/
  singleRun : Nat
  deriving DecidableEq, Repr

/-- A control character that only an escape can write. -/
def isControl (c : Char) : Bool :=
  (c.toNat ≤ 0x1F && c ≠ '\t' && c ≠ '\n') || c.toNat == 0x7F

/-- The longest run of a character, given the length of the run at hand. -/
def longestRun
    (mark : Char)
    (current : Nat) : List Char -> Nat
  | [] => current
  | c :: rest =>
    if c = mark then longestRun mark (current + 1) rest
    else max current (longestRun mark 0 rest)

/-- The traits of a text. -/
def Traits.of (chars : List Char) : Traits where
  control := chars.any isControl
  backslash := chars.contains '\\'
  newline := chars.contains '\n'
  doubleRun := min 255 (longestRun '\x22' 0 chars)
  singleRun := min 255 (longestRun '\x27' 0 chars)

/-- Characters of texts that are always written as basic strings. -/
def isSimple (c : Char) : Bool :=
  c.isAlphanum || "_-./ :".toList.contains c

/-- The style in which a text is written. -/
def StringStyle.of (chars : List Char) : StringStyle :=
  let traits := Traits.of chars
  if chars.all isSimple then .basic
  else if !traits.control && !traits.backslash && !traits.newline &&
      traits.doubleRun = 0 then .basic
  else if !traits.control && !traits.newline && traits.singleRun = 0 then
    .literal
  else if !traits.control && !traits.backslash && traits.doubleRun ≤ 2 then
    .multilineBasic
  else if !traits.control && traits.singleRun ≤ 2 then .multilineLiteral
  else if traits.newline then .multilineBasic
  else .basic

/-- A digit of base sixteen in upper case. -/
def hexDigit (value : Nat) : Char :=
  if value < 10 then Char.ofNat (48 + value) else Char.ofNat (55 + value)

/-- A character of a basic string that needs no context to be written. -/
def escape (c : Char) : List Char :=
  if c = '\x08' then ['\\', 'b']
  else if c = '\t' then ['\\', 't']
  else if c = '\x0c' then ['\\', 'f']
  else if c = '\r' then ['\\', 'r']
  else if c = '\\' then ['\\', '\\']
  else if isControl c then
    ['\\', 'u', '0', '0', hexDigit (c.toNat / 16), hexDigit (c.toNat % 16)]
  else [c]

/-- The characters of a basic string on one line. -/
def basicBody (chars : List Char) : List Char :=
  chars.flatMap fun c =>
    if c = '\n' then ['\\', 'n']
    else if c = '\x22' then ['\\', '\x22']
    else escape c

/-- The characters of a multi-line basic string, given the number of double
quotes at hand since the last other character or escaped quote. -/
def multilineBody (quotes : Nat) : List Char -> List Char
  | [] => []
  | c :: rest =>
    if c = '\x22' then
      if quotes = 2 then '\\' :: '\x22' :: multilineBody 0 rest
      else '\x22' :: multilineBody (quotes + 1) rest
    else if c = '\n' then '\n' :: multilineBody 0 rest
    else escape c ++ multilineBody 0 rest

/-- A text between the delimiters of a style. -/
def StringStyle.write : StringStyle -> List Char -> List Char
  | .basic, chars => '\x22' :: basicBody chars ++ ['\x22']
  | .literal, chars => '\x27' :: chars ++ ['\x27']
  | .multilineBasic, chars =>
    let mark := List.replicate 3 '\x22'
    mark ++ (if chars.contains '\n' then ['\n'] else []) ++
      multilineBody 0 chars ++ mark
  | .multilineLiteral, chars =>
    let mark := List.replicate 3 '\x27'
    mark ++ (if chars.contains '\n' then ['\n'] else []) ++ chars ++ mark

/-- A string as a document writes it. -/
def writeString (text : String) : String :=
  String.ofList ((StringStyle.of text.toList).write text.toList)

/-- How arrays are laid out. -/
inductive Layout
  /-- Every array on one line. -/
  | compact
  /-- An array of two items or more with one item a line. -/
  | pretty
  deriving DecidableEq, Repr

/-- An array of strings. -/
def writeStrings
    (layout : Layout)
    (items : List String) : String :=
  match layout, items with
  | .pretty, _ :: _ :: _ =>
    "[\n" ++ String.join (items.map fun item =>
      "    " ++ writeString item ++ ",\n") ++ "]"
  | _, _ => "[" ++ ", ".intercalate (items.map writeString) ++ "]"

/-- The values that this library writes: strings, counts and arrays of
strings. -/
inductive Plain
  | text (value : String)
  | count (value : Nat)
  | texts (items : List String)
  deriving DecidableEq, Repr

/-- The value that a plain one stands for. -/
def Plain.toValue : Plain -> Value
  | .text value => .text value
  | .count value => .integer value
  | .texts items => .array (items.map .text)

/-- A plain value as a document writes it. -/
def Plain.write (layout : Layout) : Plain -> String
  | .text value => writeString value
  | .count value => toString value
  | .texts items => writeStrings layout items

/-- A table of plain values under bare keys; the top table has no name. -/
structure PlainTable where
  /-- The table's name, if it is not the top table. -/
  name : Option String
  /-- Its keys and values, in order. -/
  entries : List (String × Plain)
  deriving DecidableEq, Repr

/-- The statements that a table of plain values stands for. -/
def PlainTable.statements (table : PlainTable) : List Statement :=
  (table.name.map fun name => Statement.table [name]).toList ++
    table.entries.map fun (key, value) => .assign [key] value.toValue

/-- A table's assignments, one a line. -/
def PlainTable.writeEntries
    (layout : Layout)
    (table : PlainTable) : String :=
  String.join (table.entries.map fun (key, value) =>
    key ++ " = " ++ value.write layout ++ "\n")

/-- A table with its header. -/
def PlainTable.write
    (layout : Layout)
    (table : PlainTable) : String :=
  (match table.name with
    | none => ""
    | some name => "[" ++ name ++ "]\n") ++ table.writeEntries layout

/-- A document of tables, an empty line before every header that is not at
the start. -/
def writeDocument
    (layout : Layout)
    (tables : List PlainTable) : String :=
  "\n".intercalate ((tables.map (·.write layout)).filter (· ≠ ""))

end Toml
end LockBench
