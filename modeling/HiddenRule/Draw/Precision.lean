import HiddenRule.Power

/-
  This file defines the precision in which chances are
  compared.

  Chances are binary fractions with 53 significant bits.
  The result of a product, a sum or a quotient is the
  nearest such fraction, and of two equally near ones the
  one with an even last bit.

  Key definitions include:
    * `Precision.nearest`
    * `Precision.round`
    * `Precision.quotientScale`
    * `Precision.quotient`
-/

namespace HiddenRule

namespace Precision

------------------------------------------------------------
-- Rounding
------------------------------------------------------------

/- The natural number nearest to a quotient. -/
def nearest
    (num den : Nat) : Nat :=
  let whole := num / den
  let rest := num % den
  if den < 2 * rest ∨ (2 * rest = den ∧ whole % 2 = 1) then
    whole + 1
  else
    whole

/- The number nearest to a number, in 53 bits. -/
def round
    (n : Nat) : Nat :=
  if n < twoPow 53 then
    n
  else
    let unit := twoPow (n.log2 - 52)
    nearest n unit * unit

------------------------------------------------------------
-- Quotients
------------------------------------------------------------

/-
  The scale at which a positive proper fraction has 53
  significant bits: the number of binary places that puts
  the fraction between 2^52 and 2^53.
-/
def quotientScale
    (num den : Nat) : Nat :=
  let scale := 53 + den.log2 - num.log2
  if num * twoPow scale < den * twoPow 53 then
    scale
  else
    scale - 1

/-
  A positive proper fraction in 53 bits, as a multiple of
  its last binary place.
-/
def quotient
    (num den : Nat) : Nat :=
  nearest (num * twoPow (quotientScale num den)) den

end Precision

end HiddenRule
