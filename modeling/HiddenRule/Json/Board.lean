import HiddenRule.Board.Basic
import HiddenRule.Json.Stored

/-
  This file defines how boards are stored.

  Key definitions include:
    * `Symbol.encode` and `Symbol.decode`
    * `Board.encode` and `Board.decode`
-/

namespace HiddenRule

------------------------------------------------------------
-- Symbols
------------------------------------------------------------

namespace Symbol

/- The stored form of the content of a cell. -/
def encode : Symbol → Json
| .empty => .ofString "Empty"
| .filled color shape =>
    .ofVariant "Filled" (.ofPair "color" "shape" color shape)

/- The content of a cell in its stored form. -/
def decode
    (depth : Nat)
    (value : Json) : Option Symbol := do
  match ← value.variant? depth with
  | ("Empty", .null) => some .empty
  | ("Filled", content) =>
      content.pair? "color" "shape" filled (depth - 1)
  | _ => none

instance : Stored Symbol where
  encode := encode
  decode := decode

end Symbol

------------------------------------------------------------
-- Boards
------------------------------------------------------------

namespace Board

/- The stored form of a board: its nine contents. -/
def encode
    (board : Board) : Json :=
  Stored.encode board.toList

/- The board in its stored form. -/
def decode
    (depth : Nat)
    (value : Json) : Option Board := do
  let symbols : List Symbol ← Stored.decode depth value
  if symbols.length = 9 then
    return ofList symbols
  else
    none

instance : Stored Board where
  encode := encode
  decode := decode

end Board

end HiddenRule
