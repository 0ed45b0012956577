import HiddenRule.Draw.Sample

/-
  This file defines the choice among weighted candidates.

  The candidates are looked at once, in order, with the
  weight seen so far.  For each one a sample is drawn, and
  the candidate takes the place of the earlier pick if the
  sample, as a share of the weight up to and including the
  candidate, lies beyond the weight before it.  So each
  candidate is picked as often as its weight says, and one
  without weight never is.

  The test is said for any arithmetic; the one that is used
  rounds to 53 bits.

  Key definitions include:
    * `Choice.Arithmetic` and `Choice.Arithmetic.Replaces`
    * `Choice.rounded`
    * `Choice.replaces`
    * `Choice.scan`
    * `Stream.choose`
-/

namespace HiddenRule

namespace Choice

------------------------------------------------------------
-- One Candidate
------------------------------------------------------------

/-
  How the weights and the samples of a scan are computed
  with: the weight seen after a candidate, the share that a
  sample takes of a weight, and the whole of a weight, which
  shares are compared with.
-/
structure Arithmetic
    (Sample Value : Type) where
  after : (total weight : Nat) → Nat
  share : Sample → (total : Nat) → Value
  whole : (total : Nat) → Value

/-
  Whether a candidate takes the place of the earlier pick.
  The first candidate with a weight always does.
-/
def Arithmetic.Replaces
    {Sample Value : Type}
    [LT Value]
    (arithmetic : Arithmetic Sample Value)
    (sample : Sample)
    (total weight : Nat) : Prop :=
  if total = 0 then
    0 < weight
  else
    arithmetic.whole total <
      arithmetic.share sample (arithmetic.after total weight)

instance
    {Sample Value : Type}
    [LT Value]
    [DecidableLT Value]
    (arithmetic : Arithmetic Sample Value)
    (sample : Sample)
    (total weight : Nat) :
    Decidable (arithmetic.Replaces sample total weight) :=
  inferInstanceAs (Decidable (ite _ _ _))

namespace Arithmetic

variable {Sample Value : Type}
variable [LT Value]
variable {arithmetic : Arithmetic Sample Value}
variable {sample : Sample}
variable {total weight : Nat}

theorem replaces_zero_iff :
    arithmetic.Replaces sample 0 weight ↔ 0 < weight := by
  rw [Replaces, if_pos rfl]

theorem replaces_iff_of_ne
    (hTotal : total ≠ 0) :
    arithmetic.Replaces sample total weight ↔
      arithmetic.whole total <
        arithmetic.share sample
          (arithmetic.after total weight) := by
  rw [Replaces, if_neg hTotal]

end Arithmetic

/- The weight seen after a candidate, in 53 bits. -/
def totalAfter
    (total weight : Nat) : Nat :=
  Precision.round (total + weight)

/- The arithmetic of 53 bits, in steps of 2^-53. -/
def rounded : Arithmetic UnitSample Nat where
  after := totalAfter
  share sample total :=
    Precision.round (sample.numerator * total)
  whole total := total * twoPow 53

/- The test of a candidate in 53 bits. -/
def replaces
    (sample : UnitSample)
    (total weight : Nat) : Bool :=
  rounded.Replaces sample total weight

------------------------------------------------------------
-- All Candidates
------------------------------------------------------------

/-
  Look at candidates from an index onwards, with the weight
  seen and the pick so far.
-/
def scan :
    (index total : Nat) → Option Nat → List UInt32 →
      Stream → Option Nat × Stream
| _, _, pick, [], stream => (pick, stream)
| index, total, pick, weight :: rest, stream =>
    let (sample, stream) := stream.unit
    let pick :=
      if replaces sample total weight.toNat then
        some index
      else
        pick
    scan (index + 1) (totalAfter total weight.toNat)
      pick rest stream

end Choice

namespace Stream

/-
  Choose an index by weight; there is none if no candidate
  has a weight.
-/
def choose
    (weights : List UInt32)
    (stream : Stream) : Option Nat × Stream :=
  Choice.scan 0 0 none weights stream

end Stream

end HiddenRule
