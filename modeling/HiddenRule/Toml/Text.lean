import HiddenRule.Text.Numeral

/-
  This file defines the smallest parts of a TOML text:
  blanks, comments, line ends and strings.

  A reader takes the text in front of it and returns what it
  read and the text that is left, or nothing if the text
  does not begin with such a part.

  Key definitions include:
    * `Toml.skipBlanks` and `Toml.skipGap`
    * `Toml.closeLine?`
    * `Toml.readBasic` and `Toml.readLiteral`
    * `Toml.readString`
-/

namespace HiddenRule

namespace Toml

------------------------------------------------------------
-- Lines
------------------------------------------------------------

/- Whether a character may stand between parts of a line. -/
def isBlank
    (c : Char) : Bool :=
  c == ' ' || c == '\t'

/-
  Whether a character may stand in a comment or a string.
  Control characters may not, other than tabs.
-/
def isPrintable
    (c : Char) : Bool :=
  c == '\t' || (' ' ≤ c && c != '\x7f')

/- The text after blanks. -/
def skipBlanks
    (input : List Char) : List Char :=
  input.dropWhile isBlank

/- The text after a comment, if there is one. -/
def skipComment : List Char → List Char
| '#' :: rest => rest.dropWhile isPrintable
| input => input

/- The text after a line end. -/
def afterLineEnd? : List Char → Option (List Char)
| '\n' :: rest => some rest
| '\r' :: '\n' :: rest => some rest
| _ => none

/-
  The text after the rest of a line.  It may hold blanks and
  a comment, and it may be the last line of the text.
-/
def closeLine?
    (input : List Char) : Option (List Char) :=
  match skipComment (skipBlanks input) with
  | [] => some []
  | rest => afterLineEnd? rest

/- Skip a gap of so many lines at most. -/
def skipLines :
    (lines : Nat) → List Char → List Char
| 0, input => skipBlanks input
| lines + 1, input =>
    match afterLineEnd? (skipComment (skipBlanks input)) with
    | some rest => skipLines lines rest
    | none => skipBlanks input

/- The text after blanks, comments and line ends. -/
def skipGap
    (input : List Char) : List Char :=
  skipLines input.length input

------------------------------------------------------------
-- Strings On One Line
------------------------------------------------------------

/- The character that an escape by one letter stands for. -/
def escapeChar? : Char → Option Char
| '"' => some '"'
| '\\' => some '\\'
| 'b' => some '\x08'
| 'f' => some '\x0c'
| 'n' => some '\n'
| 'r' => some '\r'
| 't' => some '\t'
| _ => none

/- The character with a number in hexadecimal digits. -/
def scalar?
    (digits : List Char) : Option Char := do
  let n ← Numeral.ofDigits? 16 digits
  if n.isValidChar then
    return Char.ofNat n
  else
    none

/- A basic string up to its closing quote. -/
def readBasic :
    List Char → Option (List Char × List Char)
| [] => none
| '"' :: rest => some ([], rest)
| '\\' :: 'u' :: a :: b :: c :: d :: rest => do
    let first ← scalar? [a, b, c, d]
    let (later, left) ← readBasic rest
    return (first :: later, left)
| '\\' :: 'U' :: a :: b :: c :: d :: e :: f :: g :: h ::
    rest => do
    let first ← scalar? [a, b, c, d, e, f, g, h]
    let (later, left) ← readBasic rest
    return (first :: later, left)
| '\\' :: letter :: rest => do
    let first ← escapeChar? letter
    let (later, left) ← readBasic rest
    return (first :: later, left)
| c :: rest =>
    if isPrintable c then do
      let (later, left) ← readBasic rest
      return (c :: later, left)
    else
      none

/- A literal string up to its closing quote. -/
def readLiteral :
    List Char → Option (List Char × List Char)
| [] => none
| '\x27' :: rest => some ([], rest)
| c :: rest =>
    if isPrintable c then do
      let (later, left) ← readLiteral rest
      return (c :: later, left)
    else
      none

------------------------------------------------------------
-- Strings On Several Lines
------------------------------------------------------------

/-
  The end of a string after three closing quotes.  One or
  two quotes more belong to the string.
-/
def closeLines
    (quote : Char) : List Char → List Char × List Char
| a :: b :: rest =>
    if a = quote ∧ b = quote then
      ([quote, quote], rest)
    else if a = quote then
      ([quote], b :: rest)
    else
      ([], a :: b :: rest)
| [a] => if a = quote then ([quote], []) else ([], [a])
| [] => ([], [])

/- The text after blanks and line ends. -/
def skipFold : List Char → List Char
| '\r' :: '\n' :: rest => skipFold rest
| c :: rest =>
    if isBlank c || c == '\n' then
      skipFold rest
    else
      c :: rest
| [] => []

/-
  The text after a folded line end: blanks up to the line
  end, and all blanks and line ends that follow it.
-/
def afterFold?
    (input : List Char) : Option (List Char) := do
  let rest ← afterLineEnd? (skipBlanks input)
  return skipFold rest

/-
  A basic string on several lines up to its closing quotes,
  read in so many steps at most.
-/
def readBasicLines :
    (steps : Nat) → List Char →
      Option (List Char × List Char)
| 0, _ => none
| _, [] => none
| _, '"' :: '"' :: '"' :: rest => some (closeLines '"' rest)
| steps + 1, '\r' :: '\n' :: rest => do
    let (later, left) ← readBasicLines steps rest
    return ('\n' :: later, left)
| steps + 1, '\\' :: rest =>
    match afterFold? rest with
    | some rest => readBasicLines steps rest
    | none =>
        match rest with
        | 'u' :: a :: b :: c :: d :: rest => do
            let first ← scalar? [a, b, c, d]
            let (later, left) ← readBasicLines steps rest
            return (first :: later, left)
        | 'U' :: a :: b :: c :: d :: e :: f :: g :: h ::
            rest => do
            let first ← scalar? [a, b, c, d, e, f, g, h]
            let (later, left) ← readBasicLines steps rest
            return (first :: later, left)
        | letter :: rest => do
            let first ← escapeChar? letter
            let (later, left) ← readBasicLines steps rest
            return (first :: later, left)
        | [] => none
| steps + 1, c :: rest =>
    if isPrintable c || c == '\n' then do
      let (later, left) ← readBasicLines steps rest
      return (c :: later, left)
    else
      none

/- A literal string on several lines. -/
def readLiteralLines :
    List Char → Option (List Char × List Char)
| [] => none
| '\x27' :: '\x27' :: '\x27' :: rest =>
    some (closeLines '\x27' rest)
| '\r' :: '\n' :: rest => do
    let (later, left) ← readLiteralLines rest
    return ('\n' :: later, left)
| c :: rest =>
    if isPrintable c || c == '\n' then do
      let (later, left) ← readLiteralLines rest
      return (c :: later, left)
    else
      none

/-
  A string of any form.  A line end right after three
  opening quotes does not belong to it.
-/
def readString :
    List Char → Option (List Char × List Char)
| '"' :: '"' :: '"' :: rest =>
    let content := (afterLineEnd? rest).getD rest
    readBasicLines (content.length + 1) content
| '"' :: rest => readBasic rest
| '\x27' :: '\x27' :: '\x27' :: rest =>
    readLiteralLines ((afterLineEnd? rest).getD rest)
| '\x27' :: rest => readLiteral rest
| _ => none

end Toml

end HiddenRule
