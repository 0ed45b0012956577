import HiddenRule.Rule.Predicate

/-
  This file defines how the symbols of a board are grouped.

  A group is a list of cells.  Some groups may be empty.

  Key definitions include:
    * `Group`
    * `Group.groups`
    * `Group.words`
    * `Group.constructor` and `Group.variant`
-/

namespace HiddenRule

------------------------------------------------------------
-- Groupings
------------------------------------------------------------

/- A way to group the symbols of a board. -/
inductive Group where
| color : Group
| shape : Group
| identical : Group
| line : Axis → Group
| adjacent : Group
deriving DecidableEq, Repr, Inhabited

namespace Group

/- The listed cells that hold a symbol of some sort. -/
def cellsWhere
    (board : Board)
    (cells : List Cell)
    (keep : Symbol → Bool) : Except Fault (List Cell) :=
  cells.filterM fun cell => do
    let symbol ← board.get cell
    return !symbol.isEmpty && keep symbol

/- Each pair of a color and a shape, color by color. -/
def sorts : List (Color × Shape) :=
  Color.all.flatMap fun c =>
    Shape.all.map fun s => (c, s)

/- Whether both cells of a pair hold a symbol. -/
def bothFilled
    (board : Board)
    (pair : Cell × Cell) : Except Fault Bool := do
  let first ← board.get pair.1
  if first.isEmpty then
    return false
  else
    let second ← board.get pair.2
    return !second.isEmpty

/-
  The groups of a board: one for each color, shape, or pair
  of both; one for each line; or one for each pair of
  symbols that share a side.
-/
def groups
    (board : Board) :
    Group → Except Fault (List (List Cell))
| .color =>
    Color.all.mapM fun c =>
      cellsWhere board Cell.all fun symbol =>
        symbol.color? == some c
| .shape =>
    Shape.all.mapM fun s =>
      cellsWhere board Cell.all fun symbol =>
        symbol.shape? == some s
| .identical =>
    sorts.mapM fun (c, s) =>
      cellsWhere board Cell.all fun symbol =>
        symbol.color? == some c && symbol.shape? == some s
| .line axis =>
    axis.lines.mapM fun line =>
      cellsWhere board line fun _ => true
| .adjacent => do
    let pairs ← Cell.adjacentPairs.filterM (bothFilled board)
    return pairs.map fun (first, second) => [first, second]

------------------------------------------------------------
-- Wording
------------------------------------------------------------

/- The words of a grouping, always in the plural. -/
def words : Group → List String
| .color => ["Symbols", "of", "the", "same", "color"]
| .shape => ["Symbols", "of", "the", "same", "shape"]
| .identical => ["Identical", "symbols"]
| .line axis => ["Symbols", "in", "the", "same", axis.name]
| .adjacent => ["Adjacent", "symbols"]

/- The phrase of a grouping. -/
def describe
    (group : Group) : String :=
  phrase group.words

------------------------------------------------------------
-- Parts
------------------------------------------------------------

/- The constructor of a grouping. -/
def constructor : Group → Constructor
| .color => .colorGroup
| .shape => .shapeGroup
| .identical => .identicalGroup
| .line _ => .lineGroup
| .adjacent => .adjacentGroup

/- The number of the flavor of a grouping. -/
def variant : Group → Nat
| .line axis => axis.index
| _ => 0

end Group

end HiddenRule
