import HiddenRule.Proofs.Connectedness

/-
  This file states what lies where on a board: what a cell
  holds, which contents agree in a trait, which line a cell
  is on, and which cells share a side.

  Main declarations:
    * `Board.content` and `Board.Filled`
    * `Trait` and `Trait.Agree`
    * `Trait.Variant` and `Trait.variant?`
    * `Axis.lineOf` and `Axis.mem_line_iff`
    * `Cell.Borders` and `Cell.mem_neighbors_iff_borders`
-/

------------------------------------------------------------
-- Contents
------------------------------------------------------------

namespace HiddenRule

namespace Board

/- The content of a cell; off the board there is nothing. -/
def content
    (board : Board)
    (cell : Cell) : Symbol :=
  if h : cell < 9 then
    board.symbolAt ⟨cell, h⟩
  else
    .empty

/- A look at a cell of the board shows its content. -/
theorem get_eq_content
    (board : Board)
    {cell : Cell}
    (hCell : cell < 9) :
    board.get cell = .ok (board.content cell) := by
  rw [board.get_of_lt hCell, content, dif_pos hCell]

/- A cell that holds a symbol. -/
def Filled
    (board : Board)
    (cell : Cell) : Prop :=
  (board.content cell).isEmpty = false

theorem Filled.lt
    {board : Board}
    {cell : Cell}
    (hFilled : board.Filled cell) :
    cell < 9 := by
  by_contra hOff
  rw [Filled, content, dif_neg hOff] at hFilled
  exact nomatch hFilled

/- A filled cell has a color and a shape. -/
theorem Filled.exists_traits
    {board : Board}
    {cell : Cell}
    (hFilled : board.Filled cell) :
    ∃ c s, board.content cell = .filled c s := by
  rw [Filled] at hFilled
  cases hContent : board.content cell with
  | empty =>
      rw [hContent] at hFilled
      exact nomatch hFilled
  | filled c s => exact ⟨c, s, rfl⟩

end Board

/- A trait of symbols. -/
inductive Trait where
| color
| shape
deriving DecidableEq, Repr

namespace Trait

/- The contents that cannot be told apart by a trait. -/
def Agree : Trait → Symbol → Symbol → Prop
| .color, left, right => left.color? = right.color?
| .shape, left, right => left.shape? = right.shape?

theorem Agree.refl
    (trait : Trait)
    (symbol : Symbol) :
    trait.Agree symbol symbol := by
  cases trait <;> rfl

theorem Agree.symm
    {trait : Trait}
    {left right : Symbol}
    (hAgree : trait.Agree left right) :
    trait.Agree right left := by
  cases trait with
  | color => exact Eq.symm hAgree
  | shape => exact Eq.symm hAgree

/- There are only two traits. -/
theorem exists_iff
    {property : Trait → Prop} :
    (∃ trait, property trait) ↔
      property .color ∨ property .shape := by
  constructor
  · rintro ⟨trait, hTrait⟩
    cases trait with
    | color => exact Or.inl hTrait
    | shape => exact Or.inr hTrait
  · rintro (hColor | hShape)
    · exact ⟨.color, hColor⟩
    · exact ⟨.shape, hShape⟩

end Trait

theorem Color.mem_all
    (color : Color) :
    color ∈ all := by
  cases color <;> decide

theorem Shape.mem_all
    (shape : Shape) :
    shape ∈ all := by
  cases shape <;> decide

namespace Trait

/- What a symbol can be in a trait. -/
def Variant : Trait → Type
| .color => Color
| .shape => Shape

instance
    (trait : Trait) :
    DecidableEq trait.Variant :=
  match trait with
  | .color => inferInstanceAs (DecidableEq Color)
  | .shape => inferInstanceAs (DecidableEq Shape)

/- What a content is in a trait; an empty cell is nothing. -/
def variant? :
    (trait : Trait) → Symbol → Option trait.Variant
| .color => Symbol.color?
| .shape => Symbol.shape?

/- Everything that a symbol can be in a trait. -/
def variants : (trait : Trait) → List trait.Variant
| .color => Color.all
| .shape => Shape.all

theorem mem_variants
    {trait : Trait}
    (variant : trait.Variant) :
    variant ∈ trait.variants := by
  cases trait with
  | color => exact Color.mem_all variant
  | shape => exact Shape.mem_all variant

theorem nodup_some_variants
    (trait : Trait) :
    (trait.variants.map some).Nodup := by
  cases trait with
  | color => exact (by decide : (Color.all.map some).Nodup)
  | shape => exact (by decide : (Shape.all.map some).Nodup)

theorem length_variants
    (trait : Trait) :
    trait.variants.length = 3 := by
  cases trait <;> rfl

/- Only symbols are something in a trait. -/
theorem isSome_variant?
    (trait : Trait)
    (symbol : Symbol) :
    (trait.variant? symbol).isSome = !symbol.isEmpty := by
  cases trait <;> cases symbol <;> rfl

theorem agree_iff
    {trait : Trait}
    {left right : Symbol} :
    trait.Agree left right ↔
      trait.variant? left = trait.variant? right := by
  cases trait <;> rfl

end Trait

namespace Axis

/- The number of the line that a cell is on. -/
def lineOf : Axis → Cell → Nat
| .row, cell => Cell.row cell
| .column, cell => Cell.column cell

/- A line is made of the cells with its number. -/
theorem cells_eq_filter
    (axis : Axis)
    {line : Nat}
    (hLine : line ∈ [0, 1, 2]) :
    axis.cells line =
      Cell.all.filter fun cell =>
        axis.lineOf cell = line := by
  have hAll :
      ∀ line ∈ [0, 1, 2],
        axis.cells line =
          Cell.all.filter fun cell =>
            axis.lineOf cell = line := by
    cases axis <;> decide
  exact hAll line hLine

theorem lineOf_mem
    (axis : Axis)
    {cell : Cell}
    (hCell : cell < 9) :
    axis.lineOf cell ∈ [0, 1, 2] := by
  have hAll : ∀ cell < 9, axis.lineOf cell ∈ [0, 1, 2] := by
    cases axis <;> decide
  exact hAll cell hCell

/- The lines of the board are the classes of its cells. -/
theorem mem_line_iff
    (axis : Axis)
    {line : List Cell}
    (hLine : line ∈ axis.lines)
    {here there : Cell}
    (hHere : here ∈ line)
    (hThere : there < 9) :
    there ∈ line ↔ axis.lineOf here = axis.lineOf there := by
  rw [lines] at hLine
  rcases List.mem_map.mp hLine with ⟨number, hNumber, rfl⟩
  rw [axis.cells_eq_filter hNumber, List.mem_filter,
    decide_eq_true_iff] at hHere ⊢
  rw [hHere.2, Cell.mem_all_iff, eq_comm]
  exact and_iff_right hThere

/- Each cell is on a line in each direction. -/
theorem exists_line
    (axis : Axis)
    {cell : Cell}
    (hCell : cell < 9) :
    ∃ line ∈ axis.lines, cell ∈ line := by
  have hNumber := axis.lineOf_mem hCell
  refine ⟨_, List.mem_map_of_mem hNumber, ?_⟩
  rw [axis.cells_eq_filter hNumber, List.mem_filter]
  exact ⟨Cell.mem_all_iff.mpr hCell, decide_eq_true rfl⟩

theorem exists_mem_line
    (axis : Axis)
    {line : List Cell}
    (hLine : line ∈ axis.lines) :
    ∃ cell, cell ∈ line := by
  have hAll : ∀ line ∈ axis.lines, line ≠ [] := by
    cases axis <;> decide
  exact List.exists_mem_of_ne_nil line (hAll line hLine)

end Axis

end HiddenRule

------------------------------------------------------------
-- Cells That Share A Side
------------------------------------------------------------

namespace HiddenRule

namespace Cell

/-
  Cells of the board that share a side: they lie in one row
  and in columns next to each other, or in one column and in
  rows next to each other.
-/
def Borders
    (here there : Cell) : Prop :=
  here < 9 ∧ there < 9 ∧
    ((row here = row there ∧
        (column here + 1 = column there ∨
          column there + 1 = column here)) ∨
      (column here = column there ∧
        (row here + 1 = row there ∨
          row there + 1 = row here)))

instance
    (here there : Cell) :
    Decidable (here.Borders there) :=
  inferInstanceAs (Decidable (_ ∧ _))

/- No cell borders itself. -/
theorem Borders.ne
    {here there : Cell}
    (hBorders : here.Borders there) :
    here ≠ there := by
  rintro rfl
  rcases hBorders.2.2 with ⟨_, hNext⟩ | ⟨_, hNext⟩ <;> omega

/- The neighbors of a cell are the cells that border it. -/
theorem mem_neighbors_iff_borders
    {here there : Cell}
    (hHere : here < 9) :
    there ∈ neighbors here ↔ here.Borders there := by
  have hAll :
      ∀ here < 9, ∀ there < 9,
        there ∈ neighbors here ↔ here.Borders there := by
    decide
  by_cases hThere : there < 9
  · exact hAll here hHere there hThere
  · refine ⟨fun hNear => ?_, fun hNear => ?_⟩
    · exact absurd (onBoard_neighbors hHere there hNear)
        hThere
    · exact absurd hNear.2.1 hThere

end Cell

end HiddenRule
