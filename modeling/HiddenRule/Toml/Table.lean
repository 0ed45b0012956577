/-
  This file defines the values of a TOML document and how
  its tables grow.

  A table is made by a header of its own, or implied by the
  header of a table inside it, or made by a dotted key, or
  written in one piece.  How a table was made decides what
  may still be added to it.

  Key definitions include:
    * `Toml.Value`
    * `Toml.Table`
    * `Toml.Table.insert`
    * `Toml.Table.atHeader`
    * `Toml.Table.openTable` and `Toml.Table.openElement`
-/

namespace HiddenRule

namespace Toml

------------------------------------------------------------
-- Values
------------------------------------------------------------

/- How a table was made. -/
inductive Origin where
| header
| implied
| dotted
| closed
deriving DecidableEq, Repr, Inhabited

/-
  A value.  Tables that are listed under one header are kept
  as the older ones and the last one.
-/
inductive Value where
| string : String → Value
| integer : Int → Value
| float : (token : List Char) → Value
| boolean : Bool → Value
| moment : (token : List Char) → Value
| array : List Value → Value
| table : Origin → List (String × Value) → Value
| tables :
    (older : List (List (String × Value))) →
      (last : List (String × Value)) → Value
deriving Repr, Inhabited

/- The entries of a table. -/
abbrev Table : Type :=
  List (String × Value)

namespace Table

------------------------------------------------------------
-- Entries
------------------------------------------------------------

/- A table with one more entry at its end. -/
def append
    (table : Table)
    (name : String)
    (value : Value) : Table :=
  table ++ [(name, value)]

/- A table with another value for a name. -/
def replace
    (table : Table)
    (name : String)
    (value : Value) : Table :=
  table.map fun entry =>
    if entry.1 == name then (name, value) else entry

------------------------------------------------------------
-- Keys
------------------------------------------------------------

/-
  A table with a value at a dotted key.  The names before
  the last lead through tables that dotted keys made, and
  new ones are made as needed.  They may also lead through
  implied tables and listed ones, but not end there.
-/
def insert
    (value : Value) : List String → Table → Option Table
| [], _ => none
| [name], table =>
    match table.lookup name with
    | none => some (table.append name value)
    | some _ => none
| name :: next :: rest, table =>
    let path := next :: rest
    match table.lookup name with
    | none => do
        let inner ← insert value path []
        return table.append name (.table .dotted inner)
    | some (.table .dotted inner) => do
        let inner ← insert value path inner
        return table.replace name (.table .dotted inner)
    | some (.table .implied inner) =>
        if rest.isEmpty then
          none
        else do
          let inner ← insert value path inner
          return table.replace name (.table .implied inner)
    | some (.tables older last) =>
        if rest.isEmpty then
          none
        else do
          let last ← insert value path last
          return table.replace name (.tables older last)
    | some _ => none

------------------------------------------------------------
-- Headers
------------------------------------------------------------

/-
  Change the table that a header names.  Tables on the way
  that do not exist are implied; of listed tables the last
  one is meant; values, also tables in one piece, are not
  entered.
-/
def atHeader
    (change : Table → Option Table) :
    List String → Table → Option Table
| [], table => change table
| name :: rest, table =>
    match table.lookup name with
    | none => do
        let inner ← atHeader change rest []
        return table.append name (.table .implied inner)
    | some (.table .closed _) => none
    | some (.table origin inner) => do
        let inner ← atHeader change rest inner
        return table.replace name (.table origin inner)
    | some (.tables older last) => do
        let last ← atHeader change rest last
        return table.replace name (.tables older last)
    | some _ => none

/- Make a table by a header; an implied one may be there. -/
def declare
    (name : String)
    (table : Table) : Option Table :=
  match table.lookup name with
  | none => some (table.append name (.table .header []))
  | some (.table .implied inner) =>
      some (table.replace name (.table .header inner))
  | some _ => none

/- List one more table under a header. -/
def enlist
    (name : String)
    (table : Table) : Option Table :=
  match table.lookup name with
  | none => some (table.append name (.tables [] []))
  | some (.tables older last) =>
      some (table.replace name
        (.tables (older ++ [last]) []))
  | some _ => none

/- Make the table of a header. -/
def openTable
    (path : List String)
    (table : Table) : Option Table := do
  let name ← path.getLast?
  table.atHeader (declare name) path.dropLast

/- Make the next table of a header of listed tables. -/
def openElement
    (path : List String)
    (table : Table) : Option Table := do
  let name ← path.getLast?
  table.atHeader (enlist name) path.dropLast

end Table

end Toml

end HiddenRule
