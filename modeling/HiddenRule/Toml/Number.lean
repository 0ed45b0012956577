import HiddenRule.Power
import HiddenRule.Text.Numeral

/-
  This file defines the numbers of TOML.

  A single underscore may stand between two digits.  An
  integer has 64 bits and a sign.  A float is kept as it is
  written; one that is too large for a double is refused,
  unless it is negative.

  Key definitions include:
    * `Toml.ungrouped?`
    * `Toml.integer?`
    * `Toml.Decimal` and `Toml.Decimal.overflows`
    * `Toml.isFloat`
-/

namespace HiddenRule

namespace Toml

------------------------------------------------------------
-- Digits
------------------------------------------------------------

/- Digits of a base without the underscores between them. -/
def ungrouped?
    (base : Nat) : List Char → Option (List Char)
| [] => none
| [c] => do
    let _ ← Numeral.digitValue? base c
    return [c]
| c :: '_' :: rest => do
    let _ ← Numeral.digitValue? base c
    let later ← ungrouped? base rest
    return c :: later
| c :: next :: rest => do
    let _ ← Numeral.digitValue? base c
    let later ← ungrouped? base (next :: rest)
    return c :: later

/- Whether a number is negative, and its text after a sign. -/
def splitSign : List Char → Bool × List Char
| '-' :: rest => (true, rest)
| '+' :: rest => (false, rest)
| input => (false, input)

/- Decimal digits, of which the first of several is not 0. -/
def wholeDigits?
    (input : List Char) : Option (List Char) := do
  match ← ungrouped? 10 input with
  | '0' :: _ :: _ => none
  | digits => some digits

------------------------------------------------------------
-- Integers
------------------------------------------------------------

/- An integer of a base other than ten, without a sign. -/
def basedInteger?
    (base : Nat)
    (input : List Char) : Option Int := do
  let n ← Numeral.ofDigits? base (← ungrouped? base input)
  if n < twoPow 63 then
    return n
  else
    none

/- A decimal integer. -/
def decimalInteger?
    (input : List Char) : Option Int := do
  let (negative, input) := splitSign input
  let n ← Numeral.ofDigits? 10 (← wholeDigits? input)
  if negative then
    if n ≤ twoPow 63 then return -n else none
  else
    if n < twoPow 63 then return n else none

/- The integer that a text writes. -/
def integer? : List Char → Option Int
| '0' :: 'x' :: rest => basedInteger? 16 rest
| '0' :: 'o' :: rest => basedInteger? 8 rest
| '0' :: 'b' :: rest => basedInteger? 2 rest
| input => decimalInteger? input

------------------------------------------------------------
-- Decimal Numbers
------------------------------------------------------------

/- A number times a power of ten. -/
structure Decimal where
  negative : Bool
  significand : Nat
  exponent : Int
deriving DecidableEq, Repr

namespace Decimal

/-
  The least number that is rounded to infinity: halfway from
  the largest double to the next power of two.
-/
def overflowBound : Nat :=
  twoPow 1024 - twoPow 970

/-
  Whether a number without its sign is rounded to infinity.
  The number of its digits tells, except near the bound,
  which has 309 digits.
-/
def overflows
    (decimal : Decimal) : Bool :=
  let digits := (Nat.toDigits 10 decimal.significand).length
  let width := digits + decimal.exponent
  if decimal.significand = 0 ∨ width < 309 then
    false
  else if 309 < width then
    true
  else if 0 ≤ decimal.exponent then
    overflowBound ≤
      decimal.significand *
        Nat.pow 10 decimal.exponent.toNat
  else
    overflowBound * Nat.pow 10 (-decimal.exponent).toNat ≤
      decimal.significand

end Decimal

------------------------------------------------------------
-- Floats
------------------------------------------------------------

/- Whether a character begins an exponent. -/
def isExponentMark
    (c : Char) : Bool :=
  c == 'e' || c == 'E'

/- The power of ten in a text of nothing or an exponent. -/
def exponent? : List Char → Option Int
| [] => some 0
| mark :: rest => do
    let (negative, rest) := splitSign rest
    let n ← Numeral.ofDigits? 10 (← ungrouped? 10 rest)
    if isExponentMark mark then
      return if negative then -n else n
    else
      none

/- The decimal number with a fraction or an exponent. -/
def decimal?
    (input : List Char) : Option Decimal := do
  let (negative, input) := splitSign input
  let isEnd := fun c => isExponentMark c || c == '.'
  let whole ← wholeDigits? (input.takeWhile (!isEnd ·))
  let fraction ←
    match input.dropWhile (!isEnd ·) with
    | [] => none
    | '.' :: rest =>
        ungrouped? 10 (rest.takeWhile (!isExponentMark ·))
    | _ => some []
  let power ← exponent? (input.dropWhile (!isExponentMark ·))
  let significand ← Numeral.ofDigits? 10 (whole ++ fraction)
  return {
    negative
    significand
    exponent := power - fraction.length }

/- Whether a text is a float. -/
def isFloat
    (input : List Char) : Bool :=
  let unsigned := (splitSign input).2
  unsigned == ['i', 'n', 'f'] ||
    unsigned == ['n', 'a', 'n'] ||
    (decimal? input).any fun decimal =>
      decimal.negative || !decimal.overflows

end Toml

end HiddenRule
