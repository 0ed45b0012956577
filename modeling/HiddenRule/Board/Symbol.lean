import HiddenRule.Label

/-
  This file defines the symbols that lie on a board.

  A cell is empty or holds one symbol, which has a color and
  a shape.  Colors and shapes are numbered from 0 in the
  order of `Color.all` and `Shape.all`.

  Key definitions include:
    * `Color`
    * `Shape`
    * `Symbol`
    * `Symbol.code` and `Symbol.ofCode?`
    * `Symbol.text` and `Symbol.ofToken?`
-/

namespace HiddenRule

------------------------------------------------------------
-- Colors
------------------------------------------------------------

/- The three colors. -/
inductive Color where
| red
| yellow
| blue
deriving DecidableEq, Repr, Inhabited

namespace Color

/- Every color, in the order of their numbers. -/
def all : List Color :=
  [.red, .yellow, .blue]

/- The number of a color. -/
def index : Color → Nat
| .red => 0
| .yellow => 1
| .blue => 2

/- The color with a given number. -/
def ofIndex?
    (i : Nat) : Option Color :=
  all[i]?

/- The letter of a color in a board table. -/
def letter : Color → Char
| .red => 'r'
| .yellow => 'y'
| .blue => 'b'

/- The color with a given letter. -/
def ofLetter?
    (c : Char) : Option Color :=
  all.find? fun color => color.letter == c

/- The English word for a color. -/
def name : Color → String
| .red => "red"
| .yellow => "yellow"
| .blue => "blue"

instance : Labelled Color where
  all := all
  label
  | .red => "Red"
  | .yellow => "Yellow"
  | .blue => "Blue"

end Color

------------------------------------------------------------
-- Shapes
------------------------------------------------------------

/- The three shapes. -/
inductive Shape where
| circle
| triangle
| square
deriving DecidableEq, Repr, Inhabited

namespace Shape

/- Every shape, in the order of their numbers. -/
def all : List Shape :=
  [.circle, .triangle, .square]

/- The number of a shape. -/
def index : Shape → Nat
| .circle => 0
| .triangle => 1
| .square => 2

/- The shape with a given number. -/
def ofIndex?
    (i : Nat) : Option Shape :=
  all[i]?

/- The letter of a shape in a board table. -/
def letter : Shape → Char
| .circle => 'C'
| .triangle => 'T'
| .square => 'S'

/- The shape with a given letter. -/
def ofLetter?
    (c : Char) : Option Shape :=
  all.find? fun shape => shape.letter == c

/- The English word for one symbol of a shape. -/
def name : Shape → String
| .circle => "circle"
| .triangle => "triangle"
| .square => "square"

/- The English word for several symbols of a shape. -/
def pluralName : Shape → String
| .circle => "circles"
| .triangle => "triangles"
| .square => "squares"

instance : Labelled Shape where
  all := all
  label
  | .circle => "Circle"
  | .triangle => "Triangle"
  | .square => "Square"

end Shape

------------------------------------------------------------
-- Symbols
------------------------------------------------------------

/- The content of one cell. -/
inductive Symbol where
| empty : Symbol
| filled : Color → Shape → Symbol
deriving DecidableEq, Repr, Inhabited

namespace Symbol

/- Whether a cell with this content is empty. -/
def isEmpty : Symbol → Bool
| .empty => true
| .filled _ _ => false

/- The color of a symbol. -/
def color? : Symbol → Option Color
| .empty => none
| .filled color _ => some color

/- The shape of a symbol. -/
def shape? : Symbol → Option Shape
| .empty => none
| .filled _ shape => some shape

/-
  One number for a content: 0 for an empty cell, and 1 to 9
  for the symbols, shape by shape.
-/
def code : Symbol → Nat
| .empty => 0
| .filled color shape => color.index + shape.index * 3 + 1

/- The content with a given number. -/
def ofCode? : Nat → Option Symbol
| 0 => some .empty
| n + 1 => do
    let color ← Color.ofIndex? (n % 3)
    let shape ← Shape.ofIndex? (n / 3)
    return .filled color shape

/-
  The two characters of a content in a board table; an empty
  cell is drawn as two blanks.
-/
def text : Symbol → String
| .empty => "  "
| .filled color shape =>
    String.ofList [color.letter, shape.letter]

/-
  The content that a two-character token stands for.  An
  empty cell is written with two underscores or two dots.
-/
def ofToken? : List Char → Option Symbol
| ['_', '_'] => some .empty
| ['.', '.'] => some .empty
| [first, second] => do
    let color ← Color.ofLetter? first
    let shape ← Shape.ofLetter? second
    return .filled color shape
| _ => none

end Symbol

end HiddenRule
