import HiddenRule.Draw.Stream
import HiddenRule.Fault
import HiddenRule.Power

/-
  This file defines draws from a range of numbers, and the
  shuffling of lists.

  A draw of a given width is multiplied by the length of the
  range; the upper half of the product is the result.  Draws
  whose lower half lies beyond a bound are thrown away, so
  that all results are equally likely.

  Key definitions include:
    * `DrawWidth`
    * `Stream.below`
    * `Stream.range`
    * `Stream.shuffle`
-/

namespace HiddenRule

------------------------------------------------------------
-- Widths
------------------------------------------------------------

/- How many words a draw takes. -/
inductive DrawWidth where
| single
| double
deriving DecidableEq, Repr

namespace DrawWidth

/- The number of bits in a draw. -/
def bits : DrawWidth → Nat
| .single => 32
| .double => 64

/- Draw a number of a width. -/
def draw
    (stream : Stream) : DrawWidth → Nat × Stream
| .single =>
    let (n, stream) := stream.next32
    (n.toNat, stream)
| .double =>
    let (n, stream) := stream.next64
    (n.toNat, stream)

/- A draw fits its width. -/
theorem draw_lt
    (width : DrawWidth)
    (stream : Stream) :
    (width.draw stream).1 < twoPow width.bits := by
  cases width with
  | single => exact UInt32.toNat_lt _
  | double => exact UInt64.toNat_lt _

end DrawWidth

------------------------------------------------------------
-- Ranges
------------------------------------------------------------

namespace Stream

/-
  The largest lower half that is accepted: a multiple of the
  length, as large as the width allows, less one.
-/
def acceptedUpTo
    (width : DrawWidth)
    (length : Nat) : Nat :=
  length * twoPow (width.bits - 1 - length.log2) - 1

/-
  Draw a number below a length, with so many attempts.  A
  stream that has come full circle without an accepted draw
  has none, and 0 stands in.
-/
def belowWithin
    (width : DrawWidth)
    (length : Nat) :
    Nat → Stream → Nat × Stream
| 0, stream => (0, stream)
| attempts + 1, stream =>
    let (n, stream) := width.draw stream
    let product := n * length
    let lower := product % twoPow width.bits
    if lower ≤ acceptedUpTo width length then
      (product / twoPow width.bits, stream)
    else
      belowWithin width length attempts stream

/- The number of words before a keystream begins again. -/
def period : Nat :=
  twoPow 68

/- Draw a number below a positive length. -/
def below
    (width : DrawWidth)
    (length : Nat)
    (stream : Stream) : Nat × Stream :=
  belowWithin width length period stream

/- What is drawn below a length is below it. -/
theorem belowWithin_lt
    {width : DrawWidth}
    {length attempts : Nat}
    {stream : Stream}
    (hPos : 0 < length) :
    (belowWithin width length attempts stream).1 < length := by
  induction attempts generalizing stream with
  | zero => exact hPos
  | succ attempts ih =>
      have hDraw := width.draw_lt stream
      simp only [belowWithin]
      split
      · apply Nat.div_lt_of_lt_mul
        exact Nat.mul_lt_mul_of_lt_of_le hDraw
          (Nat.le_refl _) hPos
      · exact ih

/- Draw a number of a range that includes its low end. -/
def range
    (low high : Nat)
    (stream : Stream) : Except Fault (Nat × Stream) :=
  if low < high then
    let (n, stream) := below .double (high - low) stream
    .ok (low + n, stream)
  else
    .error .emptyRange

------------------------------------------------------------
-- Shuffling
------------------------------------------------------------

/- The width of a draw that chooses among so many items. -/
def indexWidth
    (length : Nat) : DrawWidth :=
  if length < twoPow 32 then .single else .double

/-
  Shuffle the items up to an index: the last one changes
  places with one drawn among them and itself, then those
  before it are shuffled.
-/
def shuffleUpTo
    {α : Type} :
    Nat → Array α → Stream → Array α × Stream
| 0, items, stream => (items, stream)
| last + 1, items, stream =>
    let length := last + 2
    let (chosen, stream) :=
      below (indexWidth length) length stream
    shuffleUpTo last
      (items.swapIfInBounds (last + 1) chosen) stream

/- Shuffle a list. -/
def shuffle
    {α : Type}
    (items : List α)
    (stream : Stream) : List α × Stream :=
  let (shuffled, stream) :=
    shuffleUpTo (items.length - 1) items.toArray stream
  (shuffled.toList, stream)

end Stream

end HiddenRule
