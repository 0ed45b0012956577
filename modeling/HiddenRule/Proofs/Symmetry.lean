import HiddenRule.Proofs.Relabelling

/-
  This file proves that evaluation respects the symmetries of
  the game.

  The board can be turned over its diagonal or its middle
  column, colors and shapes can be permuted among themselves,
  and colors can trade places with shapes.  Each of these is
  a lawful relabelling.

  Main declarations:
    * `Symmetry` and `Symmetry.relabelling`
    * `Symmetry.lawful`
    * `Symmetry.evaluate_relabelled`
-/

------------------------------------------------------------
-- Moving Cells
------------------------------------------------------------

namespace HiddenRule

/- The cell on the other side of the diagonal. -/
def Cell.transposed
    (cell : Cell) : Cell :=
  if cell < 9 then
    Cell.side * Cell.column cell + Cell.row cell
  else
    cell

/- The cell on the other side of the middle column. -/
def Cell.mirrored
    (cell : Cell) : Cell :=
  if cell < 9 then
    Cell.side * Cell.row cell +
      (Cell.side - 1 - Cell.column cell)
  else
    cell

/- The column that a row becomes. -/
def Row.transposed : Row → Column
| .top => .left
| .middle => .middle
| .bottom => .right

/- The row that a column becomes. -/
def Column.transposed : Column → Row
| .left => .top
| .middle => .middle
| .right => .bottom

/- The column on the other side. -/
def Column.mirrored : Column → Column
| .left => .right
| .middle => .middle
| .right => .left

def Axis.transposed : Axis → Axis
| .row => .column
| .column => .row

def Place.transposed : Place → Place
| .row r => .column r.transposed
| .column c => .row c.transposed

def Place.mirrored : Place → Place
| .row r => .row r
| .column c => .column c.mirrored

/- A move that undoes itself on the board does so off it. -/
private theorem involutive_of_lt
    {move : Cell → Cell}
    (hOn : ∀ cell < 9, move (move cell) = cell)
    (hOff : ∀ cell, ¬ cell < 9 → move cell = cell) :
    Function.Involutive move := by
  intro cell
  by_cases hCell : cell < 9
  · exact hOn cell hCell
  · rw [hOff cell hCell, hOff cell hCell]

theorem Cell.involutive_transposed :
    Function.Involutive Cell.transposed :=
  involutive_of_lt (by decide) fun _ hOff => if_neg hOff

theorem Cell.involutive_mirrored :
    Function.Involutive Cell.mirrored :=
  involutive_of_lt (by decide) fun _ hOff => if_neg hOff

theorem Place.has_transposed
    (place : Place)
    {cell : Cell}
    (hCell : cell < 9) :
    place.transposed.Has cell.transposed ↔
      place.Has cell := by
  have hAll :
      ∀ cell < 9,
        place.transposed.Has (Cell.transposed cell) ↔
          place.Has cell := by
    rcases place with r | c
    · cases r <;> decide
    · cases c <;> decide
  exact hAll cell hCell

theorem Place.has_mirrored
    (place : Place)
    {cell : Cell}
    (hCell : cell < 9) :
    place.mirrored.Has cell.mirrored ↔ place.Has cell := by
  have hAll :
      ∀ cell < 9,
        place.mirrored.Has (Cell.mirrored cell) ↔
          place.Has cell := by
    rcases place with r | c
    · cases r <;> decide
    · cases c <;> decide
  exact hAll cell hCell

------------------------------------------------------------
-- Changing Contents
------------------------------------------------------------

/- The symbol with its color and its shape replaced. -/
def Symbol.repainted
    (colors : Equiv.Perm Color)
    (shapes : Equiv.Perm Shape) : Symbol → Symbol
| .empty => .empty
| .filled c s => .filled (colors c) (shapes s)

/- The symbol that has, of each pair, the other half. -/
def Symbol.exchanged
    (pairing : Color ≃ Shape) : Symbol → Symbol
| .empty => .empty
| .filled c s => .filled (pairing.symm s) (pairing c)

def Value.repainted
    (colors : Equiv.Perm Color)
    (shapes : Equiv.Perm Shape) : Value → Value
| .color c => .color (colors c)
| .shape s => .shape (shapes s)

def Value.exchanged
    (pairing : Color ≃ Shape) : Value → Value
| .color c => .shape (pairing c)
| .shape s => .color (pairing.symm s)

def Trait.exchanged : Trait → Trait
| .color => .shape
| .shape => .color

namespace Symbol

@[simp] theorem color?_repainted
    (colors : Equiv.Perm Color)
    (shapes : Equiv.Perm Shape)
    (symbol : Symbol) :
    (symbol.repainted colors shapes).color? =
      symbol.color?.map colors := by
  cases symbol <;> rfl

@[simp] theorem shape?_repainted
    (colors : Equiv.Perm Color)
    (shapes : Equiv.Perm Shape)
    (symbol : Symbol) :
    (symbol.repainted colors shapes).shape? =
      symbol.shape?.map shapes := by
  cases symbol <;> rfl

@[simp] theorem color?_exchanged
    (pairing : Color ≃ Shape)
    (symbol : Symbol) :
    (symbol.exchanged pairing).color? =
      symbol.shape?.map pairing.symm := by
  cases symbol <;> rfl

@[simp] theorem shape?_exchanged
    (pairing : Color ≃ Shape)
    (symbol : Symbol) :
    (symbol.exchanged pairing).shape? =
      symbol.color?.map pairing := by
  cases symbol <;> rfl

end Symbol

------------------------------------------------------------
-- Symmetries
------------------------------------------------------------

/- Nothing is changed. -/
def Relabelling.same : Relabelling where
  cell := id
  symbol := id
  value := id
  place := id
  axis := id
  trait := id

/- Colors and shapes are permuted, each among themselves. -/
def Relabelling.repainting
    (colors : Equiv.Perm Color)
    (shapes : Equiv.Perm Shape) : Relabelling :=
  { Relabelling.same with
    symbol := Symbol.repainted colors shapes
    value := Value.repainted colors shapes }

/- The symmetries of the game. -/
inductive Symmetry where
| transposition : Symmetry
| mirroring : Symmetry
| recoloring : Equiv.Perm Color → Symmetry
| reshaping : Equiv.Perm Shape → Symmetry
| exchange : Color ≃ Shape → Symmetry

namespace Symmetry

/-
  What a symmetry changes: rows and columns; left and right;
  the colors; the shapes; or colors and shapes.
-/
def relabelling : Symmetry → Relabelling
| .transposition =>
    { Relabelling.same with
      cell := Cell.transposed
      place := Place.transposed
      axis := Axis.transposed }
| .mirroring =>
    { Relabelling.same with
      cell := Cell.mirrored
      place := Place.mirrored }
| .recoloring change => .repainting change (.refl Shape)
| .reshaping change => .repainting (.refl Color) change
| .exchange pairing =>
    { Relabelling.same with
      symbol := Symbol.exchanged pairing
      value := Value.exchanged pairing
      trait := Trait.exchanged }

private theorem lawful_same :
    Relabelling.same.Lawful where
  involutive_cell := fun _ => rfl
  cell_lt := fun _ hCell => hCell
  cell_neighbors := fun _ _ _ hNear => hNear
  isEmpty_symbol := fun _ => rfl
  of_value := fun _ _ => Iff.rfl
  has_place := fun _ _ _ => Iff.rfl
  lineOf_axis := fun _ _ _ _ _ => Iff.rfl
  involutive_trait := fun _ => rfl
  agree_trait := fun _ _ _ => Iff.rfl

private theorem lawful_transposition :
    transposition.relabelling.Lawful :=
  { lawful_same with
    involutive_cell := Cell.involutive_transposed
    cell_lt := by decide
    cell_neighbors := by decide
    has_place := fun place _ hCell =>
      place.has_transposed hCell
    lineOf_axis := by
      intro axis
      cases axis <;> decide }

private theorem lawful_mirroring :
    mirroring.relabelling.Lawful :=
  { lawful_same with
    involutive_cell := Cell.involutive_mirrored
    cell_lt := by decide
    cell_neighbors := by decide
    has_place := fun place _ hCell =>
      place.has_mirrored hCell
    lineOf_axis := by
      intro axis
      cases axis <;> decide }

/- A change one to one can be undone. -/
private theorem map_eq_map_iff
    {α β : Type}
    (change : α ≃ β)
    {left right : Option α} :
    left.map change = right.map change ↔ left = right :=
  (Option.map_injective change.injective).eq_iff

private theorem lawful_repainting
    (colors : Equiv.Perm Color)
    (shapes : Equiv.Perm Shape) :
    (Relabelling.repainting colors shapes).Lawful :=
  { lawful_same with
    isEmpty_symbol := by
      intro symbol
      cases symbol <;> rfl
    of_value := by
      intro value symbol
      cases value <;>
        simp [Relabelling.repainting, Value.repainted,
          Value.Of]
    agree_trait := by
      intro trait left right
      cases trait <;>
        simp [Relabelling.repainting, Relabelling.same,
          Trait.Agree, map_eq_map_iff] }

private theorem lawful_exchange
    (pairing : Color ≃ Shape) :
    (exchange pairing).relabelling.Lawful :=
  { lawful_same with
    isEmpty_symbol := by
      intro symbol
      cases symbol <;> rfl
    of_value := by
      intro value symbol
      cases value <;>
        simp [relabelling, Value.exchanged, Value.Of]
    involutive_trait := by
      intro trait
      cases trait <;> rfl
    agree_trait := by
      intro trait left right
      cases trait <;>
        simp [relabelling, Trait.exchanged, Trait.Agree,
          map_eq_map_iff] }

/- Every symmetry is lawful. -/
theorem lawful
    (symmetry : Symmetry) :
    symmetry.relabelling.Lawful := by
  cases symmetry with
  | transposition => exact lawful_transposition
  | mirroring => exact lawful_mirroring
  | recoloring change => exact lawful_repainting change _
  | reshaping change => exact lawful_repainting _ change
  | exchange pairing => exact lawful_exchange pairing

/-
  Evaluation respects the symmetries of the game: a rule has
  an answer on a board, and the relabelled rule has the same
  answer on the relabelled board.
-/
theorem evaluate_relabelled
    (symmetry : Symmetry)
    (rule : Rule)
    (board : Board) :
    ∃ answer,
      rule.evaluate board = .ok answer ∧
      (symmetry.relabelling.rule rule).evaluate
          (symmetry.relabelling.board board) =
        .ok answer := by
  have hAnswer := rule.evaluate_eq board
  refine ⟨rule.follows board, hAnswer, ?_⟩
  rw [symmetry.lawful.evaluate_rule rule board, hAnswer]

end Symmetry

end HiddenRule
