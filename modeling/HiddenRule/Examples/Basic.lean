import HiddenRule.Board.Basic

/-
  This file defines sets of example boards for a rule.

  A set asks for a number of boards that follow the rule and
  a number of boards that break it.  It keeps boards until a
  number is reached and may stay short.  There has to be room
  for all boards of a side before the first is offered.

  Key definitions include:
    * `Examples`
    * `Examples.empty` and `Examples.reserve`
    * `Examples.isComplete`
    * `Examples.offer`
    * `Examples.toList`
-/

namespace HiddenRule

------------------------------------------------------------
-- Examples
------------------------------------------------------------

/-
  Boards that follow a rule, boards that break it, how many
  boards were tried, and how many are wanted of each side.
-/
structure Examples where
  positives : Array Board
  negatives : Array Board
  attempts : UInt32
  wantedPositive : UInt64
  wantedNegative : UInt64
deriving DecidableEq, Repr

namespace Examples

/- The set without boards. -/
def empty
    (wantedPositive wantedNegative : UInt64) : Examples where
  positives := #[]
  negatives := #[]
  attempts := 0
  wantedPositive := wantedPositive
  wantedNegative := wantedNegative

/- The bytes that a board takes, two for each cell. -/
def boardBytes : Nat := 18

/- Room in the memory for so many boards of each side. -/
def reserve
    (memory : Nat)
    (wantedPositive wantedNegative : UInt64) :
    Except Fault Unit := do
  Checked.reserve wantedPositive.toNat boardBytes memory
  Checked.reserve wantedNegative.toNat boardBytes memory

/- Whether both sides have as many boards as wanted. -/
def isComplete
    (examples : Examples) : Bool :=
  examples.positives.size == examples.wantedPositive.toNat &&
    examples.negatives.size == examples.wantedNegative.toNat

/- The number of boards. -/
def size
    (examples : Examples) : Nat :=
  examples.positives.size + examples.negatives.size

/- Whether there are no boards. -/
def isEmpty
    (examples : Examples) : Bool :=
  examples.size == 0

/- All boards, first those that follow the rule. -/
def toList
    (examples : Examples) : List Board :=
  examples.positives.toList ++ examples.negatives.toList

/-
  Offer a board; it is kept if boards of its side are still
  wanted.
-/
def offer
    (examples : Examples)
    (board : Board)
    (follows : Bool) : Examples :=
  if follows then
    if examples.positives.size <
        examples.wantedPositive.toNat then
      { examples with
        positives := examples.positives.push board }
    else
      examples
  else
    if examples.negatives.size <
        examples.wantedNegative.toNat then
      { examples with
        negatives := examples.negatives.push board }
    else
      examples

end Examples

end HiddenRule
