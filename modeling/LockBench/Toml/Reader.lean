import LockBench.Toml.Scalar
import LockBench.Toml.Scan
import LockBench.Toml.Table

/-!
# Reading TOML

A document is read into its statements, and the statements are carried out.
Arrays and inline tables nest up to a fixed depth, and inside of them lines may
end between any two tokens, though not between the parts of a key.
-/

namespace LockBench
namespace Toml

/-! ## Values -/

/-- The rest of an array, given a reader of its items.  The second argument
bounds the number of items. -/
def arrayRest?
    (item : List Char -> Option (Value × List Char)) : Nat -> List Char ->
      Option (List Value × List Char)
  | 0, _ => none
  | steps + 1, chars => do
    match ← skipBreaks? false chars with
    | ']' :: rest => return ([], rest)
    | start => do
      let (value, afterItem) ← item start
      match ← skipBreaks? false afterItem with
      | ',' :: further => do
        let (items, after) ← arrayRest? item steps further
        return (value :: items, after)
      | ']' :: after => return ([value], after)
      | _ => none

/-- The rest of an inline table, given a reader of its values and the table so
far.  The second argument bounds the number of entries. -/
def inlineRest?
    (item : List Char -> Option (Value × List Char)) : Nat -> Table -> List Char ->
      Option (Table × List Char)
  | 0, _, _ => none
  | steps + 1, table, chars => do
    match ← skipBreaks? false chars with
    | '\x7d' :: rest => return (table, rest)
    | start => do
      let (key, afterKey) ← key? start
      match ← skipBreaks? false afterKey with
      | '=' :: afterSign => do
        let (value, afterItem) ← item (← skipBreaks? false afterSign)
        let table ← assign? value key table
        match ← skipBreaks? false afterItem with
        | ',' :: further => inlineRest? item steps table further
        | '\x7d' :: after => return (table, after)
        | _ => none
      | _ => none

/-- A value, with at most the given depth of arrays and inline tables. -/
def value? : Nat -> List Char -> Option (Value × List Char)
  | depth, chars =>
    match chars with
    | '[' :: rest =>
      match depth with
      | 0 => none
      | depth + 1 => do
        let (items, after) ← arrayRest? (value? depth) (rest.length + 1) rest
        return (.array items, after)
    | '\x7b' :: rest =>
      match depth with
      | 0 => none
      | depth + 1 => do
        let (table, after) ←
          inlineRest? (value? depth) (rest.length + 1) ⟨.inline, []⟩ rest
        return (.table .inline table.entries, after)
    | c :: _ =>
      if c = '\x22' ∨ c = '\x27' then do
        let (text, after) ← string? chars
        return (.text (String.ofList text), after)
      else do
        let (word, after) := scalarWord chars
        let value ← scalarValue? word
        return (value, after)
    | [] => none

/-! ## Statements -/

/-- The statement at the front of some characters that are neither blank nor
a comment. -/
def statement? (chars : List Char) : Option (Statement × List Char) :=
  match chars with
  | '[' :: '[' :: rest => do
    match ← key? rest with
    | (key, ']' :: ']' :: after) => return (.row key, after)
    | _ => none
  | '[' :: rest => do
    match ← key? rest with
    | (key, ']' :: after) => return (.table key, after)
    | _ => none
  | _ => do
    match ← key? chars with
    | (key, '=' :: afterSign) => do
      let (value, after) ← value? depthLimit (skipSpaces afterSign)
      return (.assign key value, after)
    | _ => none

/-- The statements of some characters.  The first argument bounds their
number. -/
def statements? : Nat -> List Char -> Option (List Statement)
  | 0, _ => none
  | steps + 1, chars => do
    match ← skipBreaks? false chars with
    | [] => return []
    | start => do
      let (statement, afterStatement) ← statement? start
      let rest ← endLine? false afterStatement
      let others ← statements? steps rest
      return statement :: others

/-- The characters of a document without the byte order mark that may stand
at its front. -/
def dropMark : List Char -> List Char
  | '\uFEFF' :: rest => rest
  | chars => chars

/-- The entries of a document, or `none` where it is no TOML. -/
def read? (document : String) : Option Entries := do
  let chars := dropMark document.toList
  let statements ← statements? (chars.length + 1) chars
  entriesOf? statements

end Toml
end LockBench
