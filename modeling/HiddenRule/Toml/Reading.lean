import HiddenRule.Toml.Moment
import HiddenRule.Toml.Number
import HiddenRule.Toml.Table
import HiddenRule.Toml.Text

/-
  This file defines how a TOML document is read.

  A reader takes the text in front of it and returns a value
  and the text that is left, or nothing if there is no such
  value.

  Key definitions include:
    * `Toml.readKey`
    * `Toml.scalar`
    * `Toml.readValue`
    * `Toml.Draft`
    * `Toml.parse?`
-/

namespace HiddenRule

namespace Toml

------------------------------------------------------------
-- Keys
------------------------------------------------------------

/-
  A dotted key has fewer names than this, and arrays and
  tables are nested less deep.
-/
def nestingLimit : Nat :=
  80

/- Whether a character may stand in a name without quotes. -/
def isBare
    (c : Char) : Bool :=
  c.isAlphanum || c == '-' || c == '_'

/- One name of a key. -/
def readName :
    List Char → Option (String × List Char)
| '"' :: rest => do
    let (name, left) ← readBasic rest
    return (String.ofList name, left)
| '\x27' :: rest => do
    let (name, left) ← readLiteral rest
    return (String.ofList name, left)
| input =>
    let name := input.takeWhile isBare
    if name.isEmpty then
      none
    else
      some (String.ofList name, input.dropWhile isBare)

/- A dotted key of so many names at most, and blanks. -/
def readNames :
    (names : Nat) → List Char →
      Option (List String × List Char)
| 0, _ => none
| names + 1, input => do
    let (name, left) ← readName (skipBlanks input)
    match skipBlanks left with
    | '.' :: left => do
        let (later, left) ← readNames names left
        return (name :: later, left)
    | left => return ([name], left)

/- A key with the blanks around it. -/
def readKey
    (input : List Char) :
    Option (List String × List Char) :=
  readNames (nestingLimit - 1) input

------------------------------------------------------------
-- Scalars
------------------------------------------------------------

/- Whether a character may stand in a number or a moment. -/
def isTokenChar
    (c : Char) : Bool :=
  isBare c || c == '+' || c == '.' || c == ':'

/- The value that a text without blanks and quotes writes. -/
def scalar
    (token : List Char) : Option Value :=
  if token == ['t', 'r', 'u', 'e'] then
    some (.boolean true)
  else if token == ['f', 'a', 'l', 's', 'e'] then
    some (.boolean false)
  else if isMoment token then
    some (.moment token)
  else if isFloat token then
    some (.float token)
  else
    (integer? token).map .integer

/-
  A value without quotes and brackets.  A time may follow a
  date after one blank.
-/
def readScalar
    (input : List Char) : Option (Value × List Char) := do
  let token := input.takeWhile isTokenChar
  let left := input.dropWhile isTokenChar
  match isDate token, left with
  | true, ' ' :: later =>
      let time := later.takeWhile isTokenChar
      if isOffsetTime time then
        return (.moment (token ++ ' ' :: time),
          later.dropWhile isTokenChar)
      else
        return (.moment token, left)
  | _, _ =>
      let value ← scalar token
      return (value, left)

------------------------------------------------------------
-- Arrays And Tables
------------------------------------------------------------

/-
  Items up to the bracket that ends them, read in so many
  steps at most.  A comma may follow the last one.
-/
def readItems
    (read : List Char → Option (Value × List Char)) :
    (steps : Nat) → List Char →
      Option (List Value × List Char)
| 0, _ => none
| steps + 1, input =>
    match skipGap input with
    | ']' :: left => some ([], left)
    | input => do
        let (item, left) ← read input
        match skipGap left with
        | ',' :: left => do
            let (later, left) ← readItems read steps left
            return (item :: later, left)
        | ']' :: left => return ([item], left)
        | _ => none

/- A key and its value. -/
def readPair
    (read : List Char → Option (Value × List Char))
    (input : List Char) :
    Option ((List String × Value) × List Char) := do
  match ← readKey input with
  | (key, '=' :: left) => do
      let (value, left) ← read (skipBlanks left)
      return ((key, value), left)
  | _ => none

/-
  Pairs up to the brace that ends them, added to a table in
  so many steps at most.
-/
def readPairs
    (read : List Char → Option (Value × List Char)) :
    (steps : Nat) → Table → List Char →
      Option (Table × List Char)
| 0, _, _ => none
| steps + 1, table, input => do
    let ((key, value), left) ← readPair read input
    let table ← table.insert value key
    match skipBlanks left with
    | ',' :: left => readPairs read steps table left
    | '\x7d' :: left => return (table, left)
    | _ => none

/-
  A value in which arrays and tables are nested to a depth
  at most.
-/
def readValue :
    (depth : Nat) → List Char → Option (Value × List Char)
| _, '"' :: rest => do
    let (content, left) ← readString ('"' :: rest)
    return (.string (String.ofList content), left)
| _, '\x27' :: rest => do
    let (content, left) ← readString ('\x27' :: rest)
    return (.string (String.ofList content), left)
| depth + 1, '[' :: rest => do
    let (items, left) ←
      readItems (fun input => readValue depth input)
        (rest.length + 1) rest
    return (.array items, left)
| depth + 1, '\x7b' :: rest =>
    match skipBlanks rest with
    | '\x7d' :: left => some (.table .closed [], left)
    | pairs => do
        let (table, left) ←
          readPairs (fun input => readValue depth input)
            (pairs.length + 1) [] pairs
        return (.table .closed table, left)
| _, input => readScalar input

------------------------------------------------------------
-- Documents
------------------------------------------------------------

/- What was read so far, and the header that is open. -/
structure Draft where
  table : Table := []
  header : List String := []
deriving Repr, Inhabited

namespace Draft

/- Read a header up to its brackets. -/
def readHeader
    (draft : Draft) :
    List Char → Option (Draft × List Char)
| '[' :: '[' :: rest => do
    match ← readKey rest with
    | (header, ']' :: ']' :: left) => do
        let table ← draft.table.openElement header
        return ({ table, header }, left)
    | _ => none
| '[' :: rest => do
    match ← readKey rest with
    | (header, ']' :: left) => do
        let table ← draft.table.openTable header
        return ({ table, header }, left)
    | _ => none
| _ => none

/- Read an entry of the open table. -/
def readEntry
    (draft : Draft)
    (input : List Char) :
    Option (Draft × List Char) := do
  let ((key, value), left) ←
    readPair (readValue (nestingLimit - 1)) input
  let table ←
    draft.table.atHeader (Table.insert value key) draft.header
  return ({ draft with table }, left)

/- Read what stands on one line, if anything. -/
def readLine
    (draft : Draft)
    (input : List Char) : Option (Draft × List Char) :=
  match skipBlanks input with
  | [] => some (draft, [])
  | '#' :: rest => some (draft, '#' :: rest)
  | '\n' :: rest => some (draft, '\n' :: rest)
  | '\r' :: rest => some (draft, '\r' :: rest)
  | '[' :: rest => draft.readHeader ('[' :: rest)
  | line => draft.readEntry line

/- Read so many lines at most. -/
def readLines :
    (lines : Nat) → Draft → List Char → Option Draft
| 0, _, _ => none
| lines + 1, draft, input => do
    let (draft, left) ← draft.readLine input
    match ← closeLine? left with
    | [] => return draft
    | later => readLines lines draft later

end Draft

/-
  The table that a text writes.  A byte order mark may stand
  in front.
-/
def parse?
    (text : String) : Option Table := do
  let input :=
    match text.toList with
    | '\ufeff' :: rest => rest
    | input => input
  let draft ← Draft.readLines (input.length + 1) {} input
  return draft.table

end Toml

end HiddenRule
