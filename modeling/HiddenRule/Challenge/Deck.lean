import HiddenRule.Examples.Sampler

/-
  This file defines the decks of boards for a challenge.

  Key definitions include:
    * `Deck`
    * `Deck.ofFirst`
    * `Deck.deal`
-/

namespace HiddenRule

------------------------------------------------------------
-- Decks
------------------------------------------------------------

/-
  The boards of a challenge, in order.  Their number is a
  number of 64 bits.
-/
structure Deck where
  boards : List Board
  length_lt : boards.length < twoPow 64
deriving DecidableEq, Repr

namespace Deck

/- The number of boards in a deck. -/
def size
    (deck : Deck) : Nat :=
  deck.boards.length

/- Whether a deck has no boards. -/
def isEmpty
    (deck : Deck) : Bool :=
  deck.size == 0

/- The first boards of a list, so many at most. -/
def ofFirst
    (boards : List Board)
    (count : UInt64) : Deck where
  boards := boards.take count.toNat
  length_lt :=
    Nat.lt_of_le_of_lt (List.length_take_le _ _)
      count.toNat_lt

/-
  Deal up to so many boards for a rule.  Of each side one
  less is drawn, so a full deck holds boards of both; they
  are shuffled and the first ones dealt.
-/
def deal
    (sampler : Sampler)
    (rule : Rule)
    (count : UInt64)
    (stream : Stream)
    (memory : Nat := Machine.usual.memory) :
    Except Fault (Deck × Stream) := do
  let perSide := UInt64.ofNat (count.toNat - 1)
  let (examples, stream) ←
    sampler.examples rule perSide perSide stream memory
  let (shuffled, stream) := stream.shuffle examples.toList
  return (ofFirst shuffled count, stream)

end Deck

end HiddenRule
