import LockBench.Toml.Value

/-!
# Tables from statements

Statements are carried out one by one on the table of the document.  A key is
set once; a header opens a table that no other header and no dotted key has
made; a dotted key adds only to tables that dotted keys have made.
-/

namespace LockBench
namespace Toml

/-- The value of a key. -/
def find?
    (key : String) : Entries -> Option Value
  | [] => none
  | (name, value) :: rest => if name = key then some value else find? key rest

/-- Change the value of a key, or set it where it has none. -/
def put
    (key : String)
    (value : Value) : Entries -> Entries
  | [] => [(key, value)]
  | (name, old) :: rest =>
    if name = key then (name, value) :: rest
    else (name, old) :: put key value rest

/-- A table: what made it, and its entries. -/
structure Table where
  /-- What made the table. -/
  origin : Origin
  /-- Its entries. -/
  entries : Entries

/-- Carry out a change on the table that a path leads to.  A table that is
missing on the way is made.  On the way of a dotted key, only tables without a
header of their own may be passed. -/
def descend?
    (dotted : Bool)
    (change : Table -> Option Table) : List String -> Table -> Option Table
  | [], table => change table
  | key :: path, table =>
    let made : Origin := if dotted then .dotted else .implied
    match find? key table.entries with
    | none => do
      let inner ← descend? dotted change path ⟨made, []⟩
      return { table with
        entries := put key (.table inner.origin inner.entries) table.entries }
    | some (.table origin entries) =>
      if origin = .inline ∨ (dotted ∧ origin = .header) then none
      else do
        let inner ← descend? dotted change path ⟨origin, entries⟩
        return { table with
          entries := put key (.table inner.origin inner.entries)
            table.entries }
    | some (.rows (last :: earlier)) => do
      let inner ← descend? dotted change path ⟨.header, last⟩
      return { table with
        entries := put key (.rows (inner.entries :: earlier)) table.entries }
    | some _ => none

/-- Set a key of a table that has no such key. -/
def setNew?
    (key : String)
    (value : Value)
    (table : Table) : Option Table :=
  match find? key table.entries with
  | some _ => none
  | none => some { table with entries := table.entries ++ [(key, value)] }

/-- Set a dotted key: its last part is set in a table that dotted keys have
made, unless it is its only part. -/
def assign?
    (value : Value) : List String -> Table -> Option Table
  | [], _ => none
  | [key], table => setNew? key value table
  | keys, table =>
    descend? true
      (fun inner =>
        if inner.origin = .dotted then
          (keys.getLast?).bind fun key => setNew? key value inner
        else none)
      keys.dropLast table

/-- Open the table of a header. -/
def openTable?
    (key : String)
    (table : Table) : Option Table :=
  match find? key table.entries with
  | none =>
    some { table with entries := table.entries ++ [(key, .table .header [])] }
  | some (.table .implied entries) =>
    some { table with
      entries := put key (.table .header entries) table.entries }
  | some _ => none

/-- Open one more table of a repeated header. -/
def openRow?
    (key : String)
    (table : Table) : Option Table :=
  match find? key table.entries with
  | none =>
    some { table with entries := table.entries ++ [(key, .rows [[]])] }
  | some (.rows tables) =>
    some { table with entries := put key (.rows ([] :: tables)) table.entries }
  | some _ => none

/-- Carry out a change of the innermost key of a header. -/
def header?
    (change : String -> Table -> Option Table)
    (key : List String)
    (table : Table) : Option Table :=
  key.getLast?.bind fun last =>
    descend? false (change last) key.dropLast table

/-- A document under construction: its table, and the header that later
assignments belong to. -/
structure Draft where
  /-- The table of the document. -/
  root : Table
  /-- The path of the open table. -/
  current : List String

/-- Carry out one statement. -/
def Draft.add?
    (draft : Draft) : Statement -> Option Draft
  | .table key => do
    let root ← header? openTable? key draft.root
    return ⟨root, key⟩
  | .row key => do
    let root ← header? openRow? key draft.root
    return ⟨root, key⟩
  | .assign key value => do
    let root ← descend? false (assign? value key) draft.current draft.root
    return { draft with root }

/-- The entries of a document. -/
def entriesOf?
    (statements : List Statement) : Option Entries := do
  let draft ← statements.foldlM Draft.add? ⟨⟨.header, []⟩, []⟩
  return draft.root.entries

end Toml
end LockBench
