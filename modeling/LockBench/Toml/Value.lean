/-!
# TOML values and statements

A document is a list of statements: assignments of values to dotted keys, and
headers that name the table that the following assignments belong to.  A table
remembers what made it, since that decides which later statements may add to
it.
-/

namespace LockBench
namespace Toml

/-- The kinds of date and time that a document may hold. -/
inductive Moment
  | offsetDateTime
  | localDateTime
  | localDate
  | localTime
  deriving DecidableEq, Repr

/-- What made a table. -/
inductive Origin
  /-- Its own header, or the document itself. -/
  | header
  /-- The header of a table inside of it. -/
  | implied
  /-- A dotted key. -/
  | dotted
  /-- Braces. -/
  | inline
  deriving DecidableEq, Repr

/-- A value.  Of floating-point numbers and of moments only the source text is
kept. -/
inductive Value
  | text (value : String)
  | integer (value : Int)
  | float (source : String)
  | boolean (value : Bool)
  | moment (kind : Moment) (source : String)
  | array (items : List Value)
  | table (origin : Origin) (entries : List (String × Value))
  /-- The tables of one repeated header, last first. -/
  | rows (tables : List (List (String × Value)))
  deriving Repr, Inhabited

/-- The entries of a table: different keys, in the order in which they were
set. -/
abbrev Entries := List (String × Value)

/-- A statement of a document. -/
inductive Statement
  /-- `[key]` -/
  | table (key : List String)
  /-- `[[key]]` -/
  | row (key : List String)
  /-- `key = value` -/
  | assign (key : List String) (value : Value)
  deriving Repr, Inhabited

end Toml
end LockBench
