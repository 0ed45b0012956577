import HiddenRule.Draw.Precision
import HiddenRule.Draw.Stream

/-
  This file defines draws from the unit interval and how
  they are compared with chances.

  Key definitions include:
    * `UnitSample`
    * `UnitSample.bits`
    * `UnitSample.isBelow`
    * `Stream.unit`
-/

namespace HiddenRule

------------------------------------------------------------
-- Samples
------------------------------------------------------------

/-
  A number from 0 up to but not including 1, as a multiple
  of 2^-53.
-/
structure UnitSample where
  numerator : Nat
  numerator_lt : numerator < twoPow 53
deriving DecidableEq, Repr

namespace UnitSample

/-
  The 64 bits of a sample as a binary floating-point number:
  the exponent of its highest bit, and the bits after it.
-/
def bits
    (sample : UnitSample) : Nat :=
  if sample.numerator = 0 then
    0
  else
    let top := sample.numerator.log2
    let exponent := 1023 + top - 53
    let fraction :=
      (sample.numerator - twoPow top) * twoPow (52 - top)
    exponent * twoPow 52 + fraction

/-
  Whether a sample is below a chance, given as a fraction
  that is rounded first.
-/
def isBelow
    (sample : UnitSample)
    (num den : Nat) : Bool :=
  if num = 0 then
    false
  else if den ≤ num then
    true
  else
    let scale := Precision.quotientScale num den
    sample.numerator * twoPow scale <
      Precision.quotient num den * twoPow 53

end UnitSample

------------------------------------------------------------
-- Drawing
------------------------------------------------------------

namespace Stream

/- The upper 53 bits of a number of 64 bits. -/
private theorem upper_lt
    (n : UInt64) :
    (n >>> 11).toNat < twoPow 53 := by
  have hShift : (n >>> 11).toNat = n.toNat / 2048 := by
    simp [UInt64.toNat_shiftRight, Nat.shiftRight_eq_div_pow]
  rw [hShift]
  apply Nat.div_lt_of_lt_mul
  exact n.toNat_lt

/- Draw from the unit interval. -/
def unit
    (stream : Stream) : UnitSample × Stream :=
  let (n, stream) := stream.next64
  (⟨(n >>> 11).toNat, upper_lt n⟩, stream)

end Stream

end HiddenRule
