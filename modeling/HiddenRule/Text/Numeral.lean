/-
  This file defines how numbers are written and read.

  Key definitions include:
    * `Numeral.decimal` and `Numeral.hex`
    * `Numeral.hexPadded`
    * `Numeral.digitValue?`
    * `Numeral.ofDigits?`
    * `Numeral.unsigned?`
-/

namespace HiddenRule

namespace Numeral

------------------------------------------------------------
-- Writing
------------------------------------------------------------

/- The decimal digits of a number. -/
def decimal
    (n : Nat) : String :=
  String.ofList (Nat.toDigits 10 n)

/- The hexadecimal digits of a number, in small letters. -/
def hex
    (n : Nat) : String :=
  String.ofList (Nat.toDigits 16 n)

/- Hexadecimal digits with zeros in front up to a width. -/
def hexPadded
    (width n : Nat) : String :=
  let digits := Nat.toDigits 16 n
  String.ofList
    (List.replicate (width - digits.length) '0' ++ digits)

------------------------------------------------------------
-- Reading
------------------------------------------------------------

/- The value of a character as a digit of a base up to 16. -/
def digitValue?
    (base : Nat)
    (c : Char) : Option Nat :=
  let value :=
    if '0' ≤ c ∧ c ≤ '9' then
      some (c.toNat - '0'.toNat)
    else if 'a' ≤ c ∧ c ≤ 'f' then
      some (c.toNat - 'a'.toNat + 10)
    else if 'A' ≤ c ∧ c ≤ 'F' then
      some (c.toNat - 'A'.toNat + 10)
    else
      none
  value.filter (· < base)

/- The number that digits of a base write after a number. -/
def ofDigitsFrom?
    (base : Nat) : Nat → List Char → Option Nat
| n, [] => some n
| n, c :: rest => do
    let digit ← digitValue? base c
    ofDigitsFrom? base (n * base + digit) rest

/- The number that a text of at least one digit writes. -/
def ofDigits?
    (base : Nat)
    (digits : List Char) : Option Nat :=
  if digits.isEmpty then
    none
  else
    ofDigitsFrom? base 0 digits

/-
  An unsigned decimal number below a limit.  One plus sign
  may stand in front, and zeros may lead.
-/
def unsigned?
    (limit : Nat)
    (text : String) : Option Nat :=
  let digits :=
    match text.toList with
    | '+' :: rest => rest
    | other => other
  (ofDigits? 10 digits).filter (· < limit)

end Numeral

end HiddenRule
