import HiddenRule.Text.Numeral

/-
  This file defines the dates and times of TOML.

  A moment is a day, a time of day, or a day and a time,
  with the difference from universal time if it is known.

  Key definitions include:
    * `Toml.afterDate?`
    * `Toml.afterTime?`
    * `Toml.isDate`
    * `Toml.isOffsetTime`
    * `Toml.isMoment`
-/

namespace HiddenRule

namespace Toml

------------------------------------------------------------
-- Dates
------------------------------------------------------------

/- Whether a year has a day more. -/
def isLeapYear
    (year : Nat) : Bool :=
  year % 4 == 0 && (year % 100 != 0 || year % 400 == 0)

/- The number of days of a month. -/
def daysOf
    (year month : Nat) : Nat :=
  if month = 2 then
    if isLeapYear year then 29 else 28
  else if month = 4 ∨ month = 6 ∨ month = 9 ∨ month = 11 then
    30
  else
    31

/- The text after a date. -/
def afterDate? : List Char → Option (List Char)
| a :: b :: c :: d :: '-' :: e :: f :: '-' :: g :: h ::
    rest => do
    let year ← Numeral.ofDigits? 10 [a, b, c, d]
    let month ← Numeral.ofDigits? 10 [e, f]
    let day ← Numeral.ofDigits? 10 [g, h]
    if 1 ≤ month ∧ month ≤ 12 ∧
        1 ≤ day ∧ day ≤ daysOf year month then
      return rest
    else
      none
| _ => none

------------------------------------------------------------
-- Times
------------------------------------------------------------

/- The text after an hour and a minute. -/
def afterMinute? : List Char → Option (List Char)
| a :: b :: ':' :: c :: d :: rest => do
    let hour ← Numeral.ofDigits? 10 [a, b]
    let minute ← Numeral.ofDigits? 10 [c, d]
    if hour < 24 ∧ minute < 60 then
      return rest
    else
      none
| _ => none

/- The text after a fraction of a second, if there is one. -/
def afterFraction? : List Char → Option (List Char)
| '.' :: c :: rest =>
    if c.isDigit then
      some (rest.dropWhile Char.isDigit)
    else
      none
| input => some input

/- The text after a time of day, leap seconds included. -/
def afterTime?
    (input : List Char) : Option (List Char) := do
  match ← afterMinute? input with
  | ':' :: a :: b :: rest => do
      let second ← Numeral.ofDigits? 10 [a, b]
      if second ≤ 60 then
        afterFraction? rest
      else
        none
  | _ => none

/-
  Whether a text is nothing or a difference from universal
  time.
-/
def isOffset : List Char → Bool
| [] => true
| ['Z'] => true
| ['z'] => true
| '+' :: rest => afterMinute? rest == some []
| '-' :: rest => afterMinute? rest == some []
| _ => false

------------------------------------------------------------
-- Moments
------------------------------------------------------------

/- Whether a text is a date. -/
def isDate
    (input : List Char) : Bool :=
  afterDate? input == some []

/- Whether a text is a time, perhaps with its difference. -/
def isOffsetTime
    (input : List Char) : Bool :=
  (afterTime? input).any isOffset

/- Whether a text is a moment without a blank in it. -/
def isMoment
    (input : List Char) : Bool :=
  afterTime? input == some [] ||
    match afterDate? input with
    | none => false
    | some [] => true
    | some (mark :: rest) =>
        (mark == 'T' || mark == 't') && isOffsetTime rest

end Toml

end HiddenRule
