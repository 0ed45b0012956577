import HiddenRule.Text.Numeral

/-
  This file defines JSON values and how they are written.

  A number is kept as it is written.  A text has no value if
  an escape in it names half of a surrogate pair: it is JSON
  but no text.

  Key definitions include:
    * `Json`
    * `Json.escaped`
    * `Json.render`
    * `Json.text`
-/

namespace HiddenRule

------------------------------------------------------------
-- Values
------------------------------------------------------------

/- A JSON value; the members of an object are in order. -/
inductive Json where
| null : Json
| bool : Bool → Json
| number : (token : List Char) → Json
| string : Option String → Json
| array : List Json → Json
| object : List (Option String × Json) → Json
deriving Repr, Inhabited

namespace Json

/- The number that decimal digits write. -/
def ofNat
    (n : Nat) : Json :=
  .number (Nat.toDigits 10 n)

/- A text. -/
def ofString
    (text : String) : Json :=
  .string (some text)

/- An object with named members. -/
def ofMembers
    (members : List (String × Json)) : Json :=
  .object (members.map fun (name, value) =>
    (some name, value))

------------------------------------------------------------
-- Writing
------------------------------------------------------------

/- A character between quotes. -/
def escaped
    (c : Char) : List Char :=
  if c == '"' then ['\\', '"']
  else if c == '\\' then ['\\', '\\']
  else if c == '\x08' then ['\\', 'b']
  else if c == '\t' then ['\\', 't']
  else if c == '\n' then ['\\', 'n']
  else if c == '\x0c' then ['\\', 'f']
  else if c == '\r' then ['\\', 'r']
  else if c < ' ' then
    ['\\', 'u'] ++ (Numeral.hexPadded 4 c.toNat).toList
  else [c]

/- A text in quotes. -/
def quoted
    (text : Option String) : List Char :=
  '"' :: (text.getD "").toList.flatMap escaped ++ ['"']

mutual

/- A value written without blanks. -/
def render : Json → List Char
| .null => "null".toList
| .bool true => "true".toList
| .bool false => "false".toList
| .number token => token
| .string text => quoted text
| .array items => '[' :: renderItems items
| .object members => '\x7b' :: renderMembers members

/- Items and the bracket that ends them. -/
def renderItems : List Json → List Char
| [] => [']']
| [item] => render item ++ [']']
| item :: rest => render item ++ ',' :: renderItems rest

/- Members and the brace that ends them. -/
def renderMembers : List (Option String × Json) → List Char
| [] => ['\x7d']
| [(name, value)] =>
    quoted name ++ ':' :: (render value ++ ['\x7d'])
| (name, value) :: rest =>
    quoted name ++
      ':' :: (render value ++ ',' :: renderMembers rest)

end

/- The text of a value. -/
def text
    (value : Json) : String :=
  String.ofList value.render

end Json

end HiddenRule
