import HiddenRule.Board.Basic
import HiddenRule.Text.Blank
import HiddenRule.Text.Quoted

/-
  This file defines how a board is read from text.

  A board is written as nine words, one token for each cell.
  The number of words is looked at first; then the first
  word that is no token is refused.

  Key definitions include:
    * `ReadError`
    * `Board.ofTokens`
    * `Board.ofText`
-/

namespace HiddenRule

------------------------------------------------------------
-- Refusals
------------------------------------------------------------

/- Why a text is no board. -/
inductive ReadError where
| cellCount : (found : Nat) → ReadError
| token : (cell : Cell) → (word : String) → ReadError
deriving DecidableEq, Repr

namespace ReadError

/- The words in which a refusal is reported. -/
def message : ReadError → String
| .cellCount found =>
    s!"expected 9 cells, found {found}"
| .token cell word =>
    s!"cell {cell}: unrecognised token " ++ Text.quoted word

end ReadError

------------------------------------------------------------
-- Reading
------------------------------------------------------------

namespace Board

/- The contents that words stand for, from a cell onwards. -/
def ofTokens :
    Cell → List (List Char) → Except ReadError (List Symbol)
| _, [] => .ok []
| cell, word :: rest =>
    match Symbol.ofToken? word with
    | none => .error (.token cell (String.ofList word))
    | some symbol => do
        let symbols ← ofTokens (cell + 1) rest
        return symbol :: symbols

/-
  The board that a text describes.
-/
def ofText
    (text : String) : Except ReadError Board :=
  let words := Text.words text.toList
  if words.length = 9 then do
    let symbols ← ofTokens 0 words
    return ofList symbols
  else
    .error (.cellCount words.length)

end Board

end HiddenRule
