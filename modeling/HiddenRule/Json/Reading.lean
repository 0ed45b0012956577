import HiddenRule.Json.Basic

/-
  This file defines how JSON is read.

  Blanks may stand around every part.  A reader takes the
  text in front of it and returns a value and the text that
  is left, or nothing if there is no such value.

  Key definitions include:
    * `Json.Piece` and `Json.joinPieces`
    * `Json.readString`
    * `Json.isNumber`
    * `Json.readValue`
    * `Json.parse?`
-/

namespace HiddenRule

namespace Json

------------------------------------------------------------
-- Strings
------------------------------------------------------------

/-
  A part of a string: a character, or half of a surrogate
  pair.
-/
inductive Piece where
| char : Char → Piece
| half : (unit : Nat) → Piece
deriving DecidableEq, Repr

/- The part that an escape by four digits stands for. -/
def Piece.ofUnit
    (unit : Nat) : Piece :=
  if 0xD800 ≤ unit ∧ unit < 0xE000 then
    .half unit
  else
    .char (Char.ofNat unit)

/- The character of a high and a low half. -/
def joinHalves
    (high low : Nat) : Char :=
  Char.ofNat
    (0x10000 + (high - 0xD800) * 0x400 + (low - 0xDC00))

/- The text of parts, if every half finds its other half. -/
def joinPieces : List Piece → Option (List Char)
| [] => some []
| .char c :: rest => do
    let later ← joinPieces rest
    return c :: later
| .half high :: .half low :: rest =>
    if high < 0xDC00 ∧ 0xDC00 ≤ low then do
      let later ← joinPieces rest
      return joinHalves high low :: later
    else
      none
| .half _ :: _ => none

/- The character that an escape by one letter stands for. -/
def escapeChar? : Char → Option Char
| '"' => some '"'
| '\\' => some '\\'
| '/' => some '/'
| 'b' => some '\x08'
| 'f' => some '\x0c'
| 'n' => some '\n'
| 'r' => some '\r'
| 't' => some '\t'
| _ => none

/- The parts of a string up to its closing quote. -/
def readPieces :
    List Char → Option (List Piece × List Char)
| [] => none
| '"' :: rest => some ([], rest)
| '\\' :: 'u' :: a :: b :: c :: d :: rest => do
    let unit ← Numeral.ofDigits? 16 [a, b, c, d]
    let (later, left) ← readPieces rest
    return (Piece.ofUnit unit :: later, left)
| '\\' :: letter :: rest => do
    let c ← escapeChar? letter
    let (later, left) ← readPieces rest
    return (.char c :: later, left)
| c :: rest =>
    if c < ' ' then
      none
    else do
      let (later, left) ← readPieces rest
      return (.char c :: later, left)

/- A string after its opening quote. -/
def readString
    (input : List Char) :
    Option (Option String × List Char) := do
  let (pieces, left) ← readPieces input
  return ((joinPieces pieces).map String.ofList, left)

------------------------------------------------------------
-- Numbers
------------------------------------------------------------

/- Whether a character may stand in a number. -/
def isNumberChar
    (c : Char) : Bool :=
  c.isDigit || c == '-' || c == '+' || c == '.' ||
    c == 'e' || c == 'E'

/- The text after digits, if there is one at least. -/
def afterDigits : List Char → Option (List Char)
| c :: rest =>
    if c.isDigit then
      some (rest.dropWhile Char.isDigit)
    else
      none
| [] => none

/- The text after a sign, if there is one. -/
def afterSign : List Char → List Char
| '+' :: rest => rest
| '-' :: rest => rest
| input => input

/- Whether a text is nothing or an exponent. -/
def isExponent : List Char → Bool
| [] => true
| c :: rest =>
    (c == 'e' || c == 'E') &&
      afterDigits (afterSign rest) == some []

/- Whether a text is a fraction and an exponent, if any. -/
def isFraction : List Char → Bool
| '.' :: rest => (afterDigits rest).any isExponent
| input => isExponent input

/- Whether a text is a number without a sign. -/
def isUnsigned : List Char → Bool
| '0' :: rest => isFraction rest
| input => (afterDigits input).any isFraction

/- Whether a text is a number. -/
def isNumber : List Char → Bool
| '-' :: rest => isUnsigned rest
| input => isUnsigned input

------------------------------------------------------------
-- Values
------------------------------------------------------------

/- Whether a character may stand between parts. -/
def isBlank
    (c : Char) : Bool :=
  c == ' ' || c == '\t' || c == '\n' || c == '\r'

/- The text after blanks. -/
def skipBlanks
    (input : List Char) : List Char :=
  input.dropWhile isBlank

mutual

/- A value, read in so many steps at most. -/
def readValue :
    (steps : Nat) → List Char → Option (Json × List Char)
| 0, _ => none
| steps + 1, input =>
    match skipBlanks input with
    | 'n' :: 'u' :: 'l' :: 'l' :: rest =>
        some (.null, rest)
    | 't' :: 'r' :: 'u' :: 'e' :: rest =>
        some (.bool true, rest)
    | 'f' :: 'a' :: 'l' :: 's' :: 'e' :: rest =>
        some (.bool false, rest)
    | '"' :: rest => do
        let (content, left) ← readString rest
        return (.string content, left)
    | '[' :: rest =>
        match skipBlanks rest with
        | ']' :: left => some (.array [], left)
        | items => do
            let (read, left) ← readItems steps items
            return (.array read, left)
    | '\x7b' :: rest =>
        match skipBlanks rest with
        | '\x7d' :: left => some (.object [], left)
        | members => do
            let (read, left) ← readMembers steps members
            return (.object read, left)
    | other =>
        let token := other.takeWhile isNumberChar
        if isNumber token then
          some (.number token, other.dropWhile isNumberChar)
        else
          none

/- Items up to the bracket that ends them. -/
def readItems :
    (steps : Nat) → List Char →
      Option (List Json × List Char)
| 0, _ => none
| steps + 1, input => do
    let (item, left) ← readValue steps input
    match skipBlanks left with
    | ']' :: left => return ([item], left)
    | ',' :: left => do
        let (later, left) ← readItems steps left
        return (item :: later, left)
    | _ => none

/- Members up to the brace that ends them. -/
def readMembers :
    (steps : Nat) → List Char →
      Option (List (Option String × Json) × List Char)
| 0, _ => none
| steps + 1, input =>
    match skipBlanks input with
    | '"' :: rest => do
        let (name, left) ← readString rest
        match skipBlanks left with
        | ':' :: left => do
            let (value, left) ← readValue steps left
            match skipBlanks left with
            | '\x7d' :: left => return ([(name, value)], left)
            | ',' :: left => do
                let (later, left) ← readMembers steps left
                return ((name, value) :: later, left)
            | _ => none
        | _ => none
    | _ => none

end

/-
  The value that a text writes.  Every second step takes a
  character at least, so the length of the text bounds the
  steps.
-/
def parse?
    (input : List Char) : Option Json := do
  let (value, left) ← readValue (2 * input.length + 2) input
  if (skipBlanks left).isEmpty then
    return value
  else
    none

end Json

end HiddenRule
