import HiddenRule.Rule.Predicate

/-
  This file defines the tests of a group of cells.

  A test looks at the cells in their order and only as far
  as it has to, so a cell off the board is a fault exactly
  if the test comes to it.  An empty group passes every
  test.

  Key definitions include:
    * `GroupPredicate`
    * `uniform` and `distinct`
    * `connected`
    * `GroupPredicate.holdsOn`
    * `GroupPredicate.words`
    * `GroupPredicate.constructor`
-/

namespace HiddenRule

------------------------------------------------------------
-- Tests Of Groups
------------------------------------------------------------

/- A test of a group of cells. -/
inductive GroupPredicate where
| sameColor
| sameShape
| distinctColors
| distinctShapes
| sameColorOrShape
| contiguous
deriving DecidableEq, Repr, Inhabited

namespace GroupPredicate

/- Every test of groups, in order. -/
def all : List GroupPredicate :=
  [.sameColor, .sameShape, .distinctColors, .distinctShapes,
   .sameColorOrShape, .contiguous]

instance : Labelled GroupPredicate where
  all := all
  label
  | .sameColor => "SameColor"
  | .sameShape => "SameShape"
  | .distinctColors => "DistinctColors"
  | .distinctShapes => "DistinctShapes"
  | .sameColorOrShape => "SameColorOrShape"
  | .contiguous => "Contiguous"

------------------------------------------------------------
-- Traits
------------------------------------------------------------

/-
  Whether all cells agree in a trait.  The first cell
  is compared with the others up to the first that differs.
-/
def uniform
    {α : Type}
    [DecidableEq α]
    (board : Board)
    (trait : Symbol → α) :
    List Cell → Except Fault Bool
| [] => .ok true
| first :: rest => do
    let symbol ← board.get first
    rest.allM fun cell => do
      let other ← board.get cell
      return trait other == trait symbol

/-
  Whether no value of a trait outside a list of seen ones
  occurs twice and none of the seen ones occurs.  Cells
  without a value are passed over.
-/
def distinctFrom
    {α : Type}
    [DecidableEq α]
    (board : Board)
    (trait : Symbol → Option α) :
    List α → List Cell → Except Fault Bool
| _, [] => .ok true
| seen, cell :: rest => do
    let symbol ← board.get cell
    match trait symbol with
    | none => distinctFrom board trait seen rest
    | some value =>
        if value ∈ seen then
          return false
        else
          distinctFrom board trait (value :: seen) rest

------------------------------------------------------------
-- Connectedness
------------------------------------------------------------

/-
  Spread from waiting cells over neighbors that were not
  visited yet; the result is what stays unvisited.  Each
  step takes one waiting cell.
-/
def spread :
    Nat → List Cell → List Cell →
      Except Fault (List Cell)
| _, [], unvisited => .ok unvisited
| 0, _ :: _, unvisited => .ok unvisited
| steps + 1, cell :: waiting, unvisited => do
    let around ←
      (Cell.neighbors cell).mapM (Checked.index 9)
    let fresh := around.filter unvisited.contains
    let left := unvisited.filter fun other =>
      !fresh.contains other
    spread steps (waiting ++ fresh) left

/-
  Whether the cells of a group hang together.  All cells are
  marked, then the first one spreads.  A cell waits at most
  once, so nine steps are enough.
-/
def connected :
    List Cell → Except Fault Bool
| [] => .ok true
| first :: rest => do
    let marked ← (first :: rest).mapM (Checked.index 9)
    let unvisited := Cell.all.filter fun cell =>
      marked.contains cell && cell != first
    let left ← spread Cell.count [first] unvisited
    return left.isEmpty

/- Whether a group of cells passes a test. -/
def holdsOn
    (board : Board)
    (cells : List Cell) :
    GroupPredicate → Except Fault Bool
| .sameColor => uniform board Symbol.color? cells
| .sameShape => uniform board Symbol.shape? cells
| .distinctColors =>
    distinctFrom board Symbol.color? [] cells
| .distinctShapes =>
    distinctFrom board Symbol.shape? [] cells
| .sameColorOrShape => do
    let agree ← uniform board Symbol.color? cells
    if agree then
      return true
    else
      uniform board Symbol.shape? cells
| .contiguous => connected cells

------------------------------------------------------------
-- Wording
------------------------------------------------------------

/- The words of a test of groups. -/
def words : GroupPredicate → List String
| .sameColor => ["are", "the", "same", "color"]
| .sameShape => ["are", "the", "same", "shape"]
| .distinctColors => ["are", "different", "colors"]
| .distinctShapes => ["are", "different", "shapes"]
| .sameColorOrShape =>
    ["are", "the", "same", "color", "or", "shape"]
| .contiguous => ["form", "connected", "clusters"]

/- The phrase of a test of groups. -/
def describe
    (predicate : GroupPredicate) : String :=
  phrase predicate.words

/- The constructor of a test of groups. -/
def constructor : GroupPredicate → Constructor
| .sameColor => .colorGroupPredicate
| .sameShape => .shapeGroupPredicate
| .distinctColors => .colorDistinctGroupPredicate
| .distinctShapes => .shapeDistinctGroupPredicate
| .sameColorOrShape => .colorShapeGroupPredicate
| .contiguous => .contiguousGroupPredicate

end GroupPredicate

end HiddenRule
