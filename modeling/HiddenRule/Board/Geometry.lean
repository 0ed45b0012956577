import HiddenRule.Label

/-
  This file defines the cells of the board and how they lie.

  Cells are numbered from 0 to 8, row by row.  The functions
  here are arithmetic on cell numbers and do not ask whether
  a number is on the board.

  Key definitions include:
    * `Cell.row` and `Cell.column`
    * `Cell.neighbors`
    * `Cell.adjacentPairs`
    * `Axis`, `Row`, `Column`
-/

namespace HiddenRule

------------------------------------------------------------
-- Cells
------------------------------------------------------------

/- A cell is given by its number. -/
abbrev Cell := Nat

namespace Cell

/- The side of the board. -/
def side : Nat := 3

/- The number of cells on a board. -/
def count : Nat := 9

/- The cells of the board, in order. -/
def all : List Cell :=
  [0, 1, 2, 3, 4, 5, 6, 7, 8]

/- The row of a cell. -/
def row
    (cell : Cell) : Nat :=
  cell / side

/- The column of a cell. -/
def column
    (cell : Cell) : Nat :=
  cell % side

/-
  The cells that share a side with a cell: above, below,
  left, right.
-/
def neighbors
    (cell : Cell) : List Cell :=
  (if 0 < row cell then [cell - side] else []) ++
  (if row cell < side - 1 then [cell + side] else []) ++
  (if 0 < column cell then [cell - 1] else []) ++
  (if column cell < side - 1 then [cell + 1] else [])

/-
  Every pair of cells that share a side, once: the pairs
  that lie in a row, then the pairs that lie in a column.
-/
def adjacentPairs : List (Cell × Cell) :=
  [(0, 1), (1, 2), (3, 4), (4, 5), (6, 7), (7, 8),
   (0, 3), (1, 4), (2, 5), (3, 6), (4, 7), (5, 8)]

end Cell

------------------------------------------------------------
-- Lines
------------------------------------------------------------

/- The direction of a line of three cells. -/
inductive Axis where
| row
| column
deriving DecidableEq, Repr, Inhabited

namespace Axis

/- Both directions, in the order of their numbers. -/
def all : List Axis :=
  [.row, .column]

/- The number of a direction. -/
def index : Axis → Nat
| .row => 0
| .column => 1

/- The direction with a given number. -/
def ofIndex?
    (i : Nat) : Option Axis :=
  all[i]?

/- The English word for a line in a direction. -/
def name : Axis → String
| .row => "row"
| .column => "column"

/- The cells of one line in a direction. -/
def cells : Axis → Nat → List Cell
| .row, line =>
    [line * Cell.side,
     line * Cell.side + 1,
     line * Cell.side + 2]
| .column, line =>
    [line, line + Cell.side, line + 2 * Cell.side]

/- The three lines in a direction. -/
def lines
    (axis : Axis) : List (List Cell) :=
  [0, 1, 2].map axis.cells

instance : Labelled Axis where
  all := all
  label
  | .row => "Row"
  | .column => "Column"

end Axis

------------------------------------------------------------
-- Rows And Columns
------------------------------------------------------------

/- The three rows. -/
inductive Row where
| top
| middle
| bottom
deriving DecidableEq, Repr, Inhabited

namespace Row

/- Every row, in the order of their numbers. -/
def all : List Row :=
  [.top, .middle, .bottom]

/- The number of a row. -/
def index : Row → Nat
| .top => 0
| .middle => 1
| .bottom => 2

/- The row with a given number. -/
def ofIndex?
    (i : Nat) : Option Row :=
  all[i]?

/- The English word for a row. -/
def name : Row → String
| .top => "top"
| .middle => "middle"
| .bottom => "bottom"

/- Whether a cell lies in a row. -/
def contains
    (row : Row)
    (cell : Cell) : Bool :=
  Cell.row cell == row.index

instance : Labelled Row where
  all := all
  label
  | .top => "Top"
  | .middle => "Middle"
  | .bottom => "Bottom"

end Row

/- The three columns. -/
inductive Column where
| left
| middle
| right
deriving DecidableEq, Repr, Inhabited

namespace Column

/- Every column, in the order of their numbers. -/
def all : List Column :=
  [.left, .middle, .right]

/- The number of a column. -/
def index : Column → Nat
| .left => 0
| .middle => 1
| .right => 2

/- The column with a given number. -/
def ofIndex?
    (i : Nat) : Option Column :=
  all[i]?

/- The English word for a column. -/
def name : Column → String
| .left => "left"
| .middle => "middle"
| .right => "right"

/- Whether a cell lies in a column. -/
def contains
    (column : Column)
    (cell : Cell) : Bool :=
  Cell.column cell == column.index

instance : Labelled Column where
  all := all
  label
  | .left => "Left"
  | .middle => "Middle"
  | .right => "Right"

end Column

end HiddenRule
