import HiddenRule.Board.Geometry
import HiddenRule.Board.Symbol
import HiddenRule.Fault

/-
  This file defines the board: nine cells, each empty or
  holding a symbol.

  Looking at a cell whose number is not on the board is a
  fault, as is putting a symbol there.

  Key definitions include:
    * `Board`
    * `Board.get` and `Board.set`
    * `Board.filledCount`
    * `Board.codes`
    * `Board.table`
-/

namespace HiddenRule

------------------------------------------------------------
-- Boards
------------------------------------------------------------

/- The contents of the nine cells, row by row. -/
structure Board where
  cells : Vector Symbol 9
deriving DecidableEq, Repr

namespace Board

/- The board without symbols. -/
def empty : Board where
  cells := Vector.replicate 9 .empty

/- The board with listed contents; the rest stays empty. -/
def ofList
    (symbols : List Symbol) : Board where
  cells := Vector.ofFn fun i => symbols.getD i .empty

/- The content of a cell of the board. -/
def symbolAt
    (board : Board)
    (i : Fin 9) : Symbol :=
  board.cells[i]

/- Look at a cell. -/
def get
    (board : Board)
    (cell : Cell) : Except Fault Symbol :=
  if h : cell < 9 then
    .ok (board.symbolAt ⟨cell, h⟩)
  else
    .error (.indexOutOfBounds 9 cell)

/- Change the content of a cell. -/
def set
    (board : Board)
    (cell : Cell)
    (symbol : Symbol) : Except Fault Board :=
  if h : cell < 9 then
    .ok { cells := board.cells.set cell symbol }
  else
    .error (.indexOutOfBounds 9 cell)

/- The contents of all cells, in order. -/
def toList
    (board : Board) : List Symbol :=
  board.cells.toList

/- The number of cells that hold a symbol. -/
def filledCount
    (board : Board) : Nat :=
  board.toList.countP fun symbol => !symbol.isEmpty

/- The numbers of the contents, in order. -/
def codes
    (board : Board) : List Nat :=
  board.toList.map Symbol.code

------------------------------------------------------------
-- Looking And Changing
------------------------------------------------------------

/- A cell of the board can be looked at. -/
theorem get_of_lt
    (board : Board)
    {cell : Cell}
    (hLt : cell < 9) :
    board.get cell =
      .ok (board.symbolAt ⟨cell, hLt⟩) := by
  simp [get, hLt]

/- There is nothing to see off the board. -/
theorem get_of_le
    (board : Board)
    {cell : Cell}
    (hLe : 9 ≤ cell) :
    board.get cell =
      .error (.indexOutOfBounds 9 cell) := by
  simp [get, Nat.not_lt.mpr hLe]

/- A changed cell shows the new content. -/
theorem get_set_self
    {board changed : Board}
    {cell : Cell}
    {symbol : Symbol}
    (hSet : board.set cell symbol = .ok changed) :
    changed.get cell = .ok symbol := by
  by_cases hLt : cell < 9
  · simp only [set, hLt, dite_true, Except.ok.injEq] at hSet
    subst hSet
    simp [get, hLt, symbolAt]
  · simp [set, hLt] at hSet

/- A change of one cell leaves the others alone. -/
theorem get_set_of_ne
    {board changed : Board}
    {cell other : Cell}
    {symbol : Symbol}
    (hSet : board.set cell symbol = .ok changed)
    (hNe : cell ≠ other) :
    changed.get other = board.get other := by
  by_cases hLt : cell < 9
  · simp only [set, hLt, dite_true, Except.ok.injEq] at hSet
    subst hSet
    by_cases hOther : other < 9
    · simp [get, hOther, symbolAt,
        Vector.getElem_set_ne hLt hOther hNe]
    · simp [get, hOther]
  · simp [set, hLt] at hSet

------------------------------------------------------------
-- Tables
------------------------------------------------------------

/- The line between two rows of a table. -/
def tableRule : String :=
  "--+--+--"

/- One row of a table. -/
def tableRow
    (row : List Symbol) : String :=
  "|".intercalate (row.map Symbol.text)

/-
  The lines of the table of nine contents: the three rows,
  with a rule between two of them.
-/
def tableLines
    (cells : List Symbol) : List String :=
  [tableRow (cells.take 3),
   tableRule,
   tableRow ((cells.drop 3).take 3),
   tableRule,
   tableRow (cells.drop 6)]

/-
  The table of a list of contents.  Only nine contents make
  a table; of another number only the count is shown.
-/
def tableOf
    (cells : List Symbol) : String :=
  if cells.length = 9 then
    "\n".intercalate (tableLines cells)
  else
    s!"Symbol[{cells.length}]"

/- The table of a board. -/
def table
    (board : Board) : String :=
  tableOf board.toList

end Board

end HiddenRule
