/-
  This file defines powers of two.

  A word of so many bits has a power of two of values; the
  limits of numbers, the widths of draws and the scales of
  binary fractions are all given by such a power.

  Key definitions include:
    * `twoPow`
-/

namespace HiddenRule

------------------------------------------------------------
-- Powers Of Two
------------------------------------------------------------

/- The number of values of a word of so many bits. -/
def twoPow
    (bits : Nat) : Nat :=
  Nat.pow 2 bits

/- One bit more doubles a power of two. -/
theorem twoPow_succ
    (bits : Nat) :
    twoPow (bits + 1) = twoPow bits * 2 :=
  rfl

/- A power of two is positive. -/
theorem twoPow_pos
    (bits : Nat) :
    0 < twoPow bits := by
  induction bits with
  | zero => decide
  | succ bits ih =>
      rw [twoPow_succ]
      omega

end HiddenRule
