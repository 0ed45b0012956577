import HiddenRule.Proofs.Evaluation
import Mathlib.Logic.Equiv.Basic

/-
  This file proves that a rule says of a board what the
  relabelled rule says of the relabelled board.

  A relabelling changes a board and a rule at once: it moves
  cells, changes contents, and renames whatever a rule names
  accordingly.  A few laws, which each look at no more than
  two cells or two contents, make it lawful.  The rest
  follows by induction on the nested tests, as the meaning of
  a rule knows no order of cells or groups.

  Main declarations:
    * `Relabelling` and `Relabelling.Lawful`
    * `Relabelling.Lawful.holds_predicate`
    * `Relabelling.Lawful.isGroup_group`
    * `Relabelling.Lawful.holds_groupTest`
    * `Relabelling.Lawful.holds_rule`
    * `Relabelling.Lawful.evaluate_rule`
-/

------------------------------------------------------------
-- What Rules Name
------------------------------------------------------------

namespace HiddenRule

/- A color or a shape. -/
inductive Value where
| color : Color → Value
| shape : Shape → Value
deriving DecidableEq, Repr

namespace Value

/- The noun that names symbols of a value. -/
def noun : Value → Predicate
| .color c => .colorNoun c
| .shape s => .shapeNoun s

/- The test for a value. -/
def test : Value → Predicate
| .color c => .color c
| .shape s => .shape s

/- The contents that have a value. -/
def Of : Value → Symbol → Prop
| .color c, symbol => symbol.color? = some c
| .shape s, symbol => symbol.shape? = some s

theorem holds_noun
    (value : Value)
    (board : Board)
    (cell : Cell) :
    value.noun.Holds board cell ↔
      value.Of (board.content cell) := by
  cases value <;> rfl

theorem holds_test
    (value : Value)
    (board : Board)
    (cell : Cell) :
    value.test.Holds board cell ↔
      value.Of (board.content cell) := by
  cases value <;> rfl

end Value

/- A row or a column. -/
inductive Place where
| row : Row → Place
| column : Column → Place
deriving DecidableEq, Repr

namespace Place

/- The noun that names symbols in a place. -/
def noun : Place → Predicate
| .row r => .rowNoun r
| .column c => .columnNoun c

/- The test for a place. -/
def test : Place → Predicate
| .row r => .row r
| .column c => .column c

/- The cells that lie in a place. -/
def Has : Place → Cell → Prop
| .row r, cell => Cell.row cell = r.index
| .column c, cell => Cell.column cell = c.index

instance :
    (place : Place) → (cell : Cell) →
      Decidable (place.Has cell)
| .row r, cell =>
    inferInstanceAs (Decidable (Cell.row cell = r.index))
| .column c, cell =>
    inferInstanceAs (Decidable (Cell.column cell = c.index))

theorem holds_noun
    (place : Place)
    (board : Board)
    (cell : Cell) :
    place.noun.Holds board cell ↔
      board.Filled cell ∧ place.Has cell := by
  cases place <;> rfl

theorem holds_test
    (place : Place)
    (board : Board)
    (cell : Cell) :
    place.test.Holds board cell ↔ place.Has cell := by
  cases place <;> rfl

end Place

namespace Trait

theorem holds_same
    (trait : Trait)
    (board : Board)
    (members : Cell → Prop) :
    trait.same.Holds board members ↔
      GroupPredicate.Uniform board trait members := by
  cases trait <;> rfl

theorem holds_distinct
    (trait : Trait)
    (board : Board)
    (members : Cell → Prop) :
    trait.distinct.Holds board members ↔
      GroupPredicate.Distinct board trait members := by
  cases trait <;> rfl

end Trait

end HiddenRule

------------------------------------------------------------
-- Relabellings
------------------------------------------------------------

namespace HiddenRule

/-
  A change of cells and contents together with a change of
  the values, places, directions and traits that rules name.
-/
structure Relabelling where
  cell : Cell → Cell
  symbol : Symbol → Symbol
  value : Value → Value
  place : Place → Place
  axis : Axis → Axis
  trait : Trait → Trait

namespace Relabelling

/- The board after the change; cells trade places. -/
def board
    (relabelling : Relabelling)
    (board : Board) : Board where
  cells := Vector.ofFn fun i =>
    relabelling.symbol (board.content (relabelling.cell i))

/- The test of a cell after the change. -/
def predicate
    (relabelling : Relabelling) : Predicate → Predicate
| .colorNoun c => (relabelling.value (.color c)).noun
| .shapeNoun s => (relabelling.value (.shape s)).noun
| .rowNoun r => (relabelling.place (.row r)).noun
| .columnNoun c => (relabelling.place (.column c)).noun
| .emptyCellNoun => .emptyCellNoun
| .color c => (relabelling.value (.color c)).test
| .shape s => (relabelling.value (.shape s)).test
| .row r => (relabelling.place (.row r)).test
| .column c => (relabelling.place (.column c)).test
| .adjacentTo noun =>
    .adjacentTo (predicate relabelling noun)

/- The grouping after the change. -/
def group
    (relabelling : Relabelling) : Group → Group
| .color => (relabelling.trait .color).group
| .shape => (relabelling.trait .shape).group
| .identical => .identical
| .line axis => .line (relabelling.axis axis)
| .adjacent => .adjacent

/- The test of a group after the change. -/
def groupTest
    (relabelling : Relabelling) :
    GroupPredicate → GroupPredicate
| .sameColor => (relabelling.trait .color).same
| .sameShape => (relabelling.trait .shape).same
| .distinctColors => (relabelling.trait .color).distinct
| .distinctShapes => (relabelling.trait .shape).distinct
| .sameColorOrShape => .sameColorOrShape
| .contiguous => .contiguous

/- The rule after the change. -/
def rule
    (relabelling : Relabelling) : Rule → Rule
| .universal noun predicate =>
    .universal (relabelling.predicate noun)
      (relabelling.predicate predicate)
| .existential noun predicate =>
    .existential (relabelling.predicate noun)
      (relabelling.predicate predicate)
| .negativeUniversal noun predicate =>
    .negativeUniversal (relabelling.predicate noun)
      (relabelling.predicate predicate)
| .grouped group predicate =>
    .grouped (relabelling.group group)
      (relabelling.groupTest predicate)
| .line axis noun =>
    .line (relabelling.axis axis)
      (relabelling.predicate noun)

/- What makes the two changes one. -/
structure Lawful
    (relabelling : Relabelling) : Prop where
  involutive_cell : Function.Involutive relabelling.cell
  cell_lt : ∀ cell < 9, relabelling.cell cell < 9
  cell_neighbors :
    ∀ here < 9, ∀ there ∈ Cell.neighbors here,
      relabelling.cell there ∈
        Cell.neighbors (relabelling.cell here)
  isEmpty_symbol :
    ∀ symbol,
      (relabelling.symbol symbol).isEmpty = symbol.isEmpty
  of_value :
    ∀ value symbol,
      (relabelling.value value).Of
          (relabelling.symbol symbol) ↔
        value.Of symbol
  has_place :
    ∀ place, ∀ cell < 9,
      (relabelling.place place).Has (relabelling.cell cell) ↔
        place.Has cell
  lineOf_axis :
    ∀ axis, ∀ here < 9, ∀ there < 9,
      (relabelling.axis axis).lineOf
            (relabelling.cell here) =
          (relabelling.axis axis).lineOf
            (relabelling.cell there) ↔
        axis.lineOf here = axis.lineOf there
  involutive_trait : Function.Involutive relabelling.trait
  agree_trait :
    ∀ trait left right,
      (relabelling.trait trait).Agree
          (relabelling.symbol left)
          (relabelling.symbol right) ↔
        trait.Agree left right

end Relabelling

end HiddenRule

------------------------------------------------------------
-- Cells And Contents
------------------------------------------------------------

namespace HiddenRule

namespace Relabelling

namespace Lawful

variable {relabelling : Relabelling}

theorem cell_lt_iff
    (hLawful : relabelling.Lawful)
    {cell : Cell} :
    relabelling.cell cell < 9 ↔ cell < 9 := by
  constructor
  · intro hImage
    rw [← hLawful.involutive_cell cell]
    exact hLawful.cell_lt _ hImage
  · exact hLawful.cell_lt cell

theorem cell_neighbors_iff
    (hLawful : relabelling.Lawful)
    {here : Cell}
    (hHere : here < 9)
    {there : Cell} :
    relabelling.cell there ∈
        Cell.neighbors (relabelling.cell here) ↔
      there ∈ Cell.neighbors here := by
  constructor
  · intro hImage
    have hBack := hLawful.cell_neighbors _
      (hLawful.cell_lt here hHere) _ hImage
    rwa [hLawful.involutive_cell,
      hLawful.involutive_cell] at hBack
  · exact hLawful.cell_neighbors here hHere there

/- Contents are where the cells have been moved to. -/
theorem content_board
    (hLawful : relabelling.Lawful)
    (board : Board)
    (cell : Cell) :
    (relabelling.board board).content
        (relabelling.cell cell) =
      relabelling.symbol (board.content cell) := by
  by_cases hCell : cell < 9
  · have hImage := hLawful.cell_lt cell hCell
    rw [Board.content, dif_pos hImage]
    simp [Relabelling.board, Board.symbolAt,
      hLawful.involutive_cell cell]
  · have hImage : ¬ relabelling.cell cell < 9 :=
      fun hLt => hCell (hLawful.cell_lt_iff.mp hLt)
    have hEmpty := hLawful.isEmpty_symbol .empty
    rw [Board.content, dif_neg hImage, Board.content,
      dif_neg hCell]
    cases hSymbol : relabelling.symbol .empty with
    | empty => rfl
    | filled c s =>
        rw [hSymbol] at hEmpty
        exact absurd hEmpty Bool.false_ne_true

theorem filled_board
    (hLawful : relabelling.Lawful)
    {board : Board}
    {cell : Cell} :
    (relabelling.board board).Filled
        (relabelling.cell cell) ↔
      board.Filled cell := by
  rw [Board.Filled, hLawful.content_board,
    hLawful.isEmpty_symbol, Board.Filled]

/- A relabelled test says the same of a moved cell. -/
theorem holds_predicate
    (hLawful : relabelling.Lawful)
    (board : Board)
    (predicate : Predicate)
    {cell : Cell}
    (hCell : cell < 9) :
    (relabelling.predicate predicate).Holds
        (relabelling.board board) (relabelling.cell cell) ↔
      predicate.Holds board cell := by
  induction predicate generalizing cell with
  | colorNoun | shapeNoun =>
      rw [Relabelling.predicate, Value.holds_noun,
        hLawful.content_board, hLawful.of_value]
      rfl
  | color | shape =>
      rw [Relabelling.predicate, Value.holds_test,
        hLawful.content_board, hLawful.of_value]
      rfl
  | rowNoun | columnNoun =>
      rw [Relabelling.predicate, Place.holds_noun,
        hLawful.filled_board, hLawful.has_place _ _ hCell]
      rfl
  | row | column =>
      rw [Relabelling.predicate, Place.holds_test,
        hLawful.has_place _ _ hCell]
      rfl
  | emptyCellNoun =>
      simp only [Relabelling.predicate, Predicate.Holds,
        Predicate.Marks, hLawful.content_board,
        hLawful.isEmpty_symbol]
  | adjacentTo noun ih =>
      -- Each cell is a moved one, so `near` may be taken as
      -- the neighbor before the move.
      rw [Relabelling.predicate, Predicate.Holds,
        Predicate.Holds,
        hLawful.involutive_cell.surjective.exists]
      apply exists_congr
      intro near
      rw [hLawful.cell_neighbors_iff hCell]
      apply and_congr_right
      intro hNear
      exact ih (Cell.onBoard_neighbors hCell near hNear)

end Lawful

end Relabelling

end HiddenRule

------------------------------------------------------------
-- Groups
------------------------------------------------------------

namespace HiddenRule

namespace Relabelling

namespace Lawful

variable {relabelling : Relabelling}

/- Contents agree after the change if they did before. -/
theorem agree_board
    (hLawful : relabelling.Lawful)
    {board : Board}
    {trait : Trait}
    {here there : Cell} :
    (relabelling.trait trait).Agree
        ((relabelling.board board).content
          (relabelling.cell here))
        ((relabelling.board board).content
          (relabelling.cell there)) ↔
      trait.Agree (board.content here)
        (board.content there) := by
  rw [hLawful.content_board, hLawful.content_board,
    hLawful.agree_trait]

theorem joins_group
    (hLawful : relabelling.Lawful)
    {board : Board}
    {group : Group}
    {here there : Cell}
    (hHere : here < 9)
    (hThere : there < 9) :
    (relabelling.group group).Joins
        (relabelling.board board)
        (relabelling.cell here) (relabelling.cell there) ↔
      group.Joins board here there := by
  cases group with
  | color | shape =>
      rw [Relabelling.group, Trait.joins_group,
        hLawful.agree_board]
      rfl
  | identical =>
      rw [Relabelling.group, Group.Joins, Group.Joins,
        hLawful.involutive_trait.surjective.forall]
      exact forall_congr' fun trait => hLawful.agree_board
  | line axis =>
      exact hLawful.lineOf_axis axis _ hHere _ hThere
  | adjacent => exact hLawful.cell_neighbors_iff hHere

/- Only pairs of neighbors become such pairs. -/
theorem group_eq_adjacent_iff
    (relabelling : Relabelling)
    (group : Group) :
    relabelling.group group = .adjacent ↔
      group = .adjacent := by
  have hTrait (trait : Trait) : trait.group ≠ .adjacent := by
    cases trait <;> decide
  cases group with
  | color | shape => simp [Relabelling.group, hTrait]
  | _ => simp [Relabelling.group]

/- A pair of neighbors is moved to a pair of neighbors. -/
private theorem isGroup_adjacent
    (hLawful : relabelling.Lawful)
    {board : Board}
    {members : Cell → Prop} :
    Group.adjacent.IsGroup (relabelling.board board)
        (members ∘ relabelling.cell) ↔
      Group.adjacent.IsGroup board members := by
  have hSurjective := hLawful.involutive_cell.surjective
  have hInjective := hLawful.involutive_cell.injective
  rw [Group.IsGroup, Group.IsGroup, hSurjective.exists]
  apply exists_congr
  intro here
  rw [hSurjective.exists]
  apply exists_congr
  intro there
  rw [hLawful.filled_board, hLawful.filled_board]
  apply and_congr_right
  intro hHere
  apply and_congr_right
  intro hThere
  apply and_congr
  · exact hLawful.cell_neighbors_iff hHere.lt
  · rw [hSurjective.forall]
    apply forall_congr'
    intro cell
    rw [Function.comp_apply, hLawful.involutive_cell,
      hInjective.eq_iff, hInjective.eq_iff]

/- Moving its cells makes a group a group. -/
theorem isGroup_group
    (hLawful : relabelling.Lawful)
    {board : Board}
    {group : Group}
    {members : Cell → Prop} :
    (relabelling.group group).IsGroup
        (relabelling.board board)
        (members ∘ relabelling.cell) ↔
      group.IsGroup board members := by
  by_cases hGroup : group = .adjacent
  · rw [hGroup]
    exact hLawful.isGroup_adjacent
  · have hImage : relabelling.group group ≠ .adjacent :=
      fun hEq =>
        hGroup ((group_eq_adjacent_iff _ _).mp hEq)
    have hSurjective := hLawful.involutive_cell.surjective
    rw [Group.isGroup_iff hImage, Group.isGroup_iff hGroup,
      hSurjective.exists]
    apply exists_congr
    intro here
    rw [hLawful.filled_board, hSurjective.forall]
    apply and_congr_right
    intro hHere
    apply forall_congr'
    intro cell
    rw [Function.comp_apply, hLawful.involutive_cell,
      hLawful.filled_board]
    apply iff_congr Iff.rfl
    apply and_congr_right
    intro hCell
    exact hLawful.joins_group hHere.lt hCell.lt

------------------------------------------------------------
-- Tests Of Groups
------------------------------------------------------------

theorem uniform_trait
    (hLawful : relabelling.Lawful)
    {board : Board}
    {trait : Trait}
    {members : Cell → Prop} :
    GroupPredicate.Uniform (relabelling.board board)
        (relabelling.trait trait)
        (members ∘ relabelling.cell) ↔
      GroupPredicate.Uniform board trait members := by
  have hSurjective := hLawful.involutive_cell.surjective
  rw [GroupPredicate.Uniform, hSurjective.forall₂]
  simp only [Function.comp_apply, hLawful.agree_board,
    hLawful.involutive_cell _]
  rfl

theorem distinct_trait
    (hLawful : relabelling.Lawful)
    {board : Board}
    {trait : Trait}
    {members : Cell → Prop} :
    GroupPredicate.Distinct (relabelling.board board)
        (relabelling.trait trait)
        (members ∘ relabelling.cell) ↔
      GroupPredicate.Distinct board trait members := by
  have hSurjective := hLawful.involutive_cell.surjective
  have hInjective := hLawful.involutive_cell.injective
  rw [GroupPredicate.Distinct, hSurjective.forall₂]
  simp only [Function.comp_apply, hLawful.agree_board,
    hLawful.involutive_cell _, hInjective.ne_iff]
  rfl

/- A path is moved with its cells. -/
private theorem joined_of_joined
    (hLawful : relabelling.Lawful)
    {members : Cell → Prop}
    (hMembers : ∀ cell, members cell → cell < 9)
    {here there : Cell}
    (hJoined : Cell.Joined members here there) :
    Cell.Joined (members ∘ relabelling.cell)
      (relabelling.cell here) (relabelling.cell there) := by
  apply Relation.ReflTransGen.lift relabelling.cell ?_ _ _
    hJoined
  intro first second hStep
  rcases hStep with ⟨hNear, hFirst, hSecond⟩
  refine ⟨?_, ?_, ?_⟩
  · exact hLawful.cell_neighbors _ (hMembers _ hFirst) _
      hNear
  · rwa [Function.comp_apply, hLawful.involutive_cell]
  · rwa [Function.comp_apply, hLawful.involutive_cell]

private theorem contiguous_of_contiguous
    (hLawful : relabelling.Lawful)
    {members : Cell → Prop}
    (hMembers : ∀ cell, members cell → cell < 9)
    (hContiguous : Cell.Contiguous members) :
    Cell.Contiguous (members ∘ relabelling.cell) := by
  intro here there hHere hThere
  have hJoined :=
    hLawful.joined_of_joined hMembers
      (hContiguous _ _ hHere hThere)
  rwa [hLawful.involutive_cell, hLawful.involutive_cell]
    at hJoined

/- Cells hang together where they are moved to. -/
theorem contiguous_members
    (hLawful : relabelling.Lawful)
    {members : Cell → Prop}
    (hMembers : ∀ cell, members cell → cell < 9) :
    Cell.Contiguous (members ∘ relabelling.cell) ↔
      Cell.Contiguous members := by
  constructor
  · intro hContiguous
    have hBack :
        Cell.Contiguous
          ((members ∘ relabelling.cell) ∘ relabelling.cell) :=
      hLawful.contiguous_of_contiguous
        (fun cell hCell =>
          hLawful.cell_lt_iff.mp (hMembers _ hCell))
        hContiguous
    rwa [Function.comp_assoc,
      hLawful.involutive_cell.comp_self,
      Function.comp_id] at hBack
  · exact hLawful.contiguous_of_contiguous hMembers

/- A relabelled test says the same of a moved group. -/
theorem holds_groupTest
    (hLawful : relabelling.Lawful)
    {board : Board}
    (predicate : GroupPredicate)
    {members : Cell → Prop}
    (hMembers : ∀ cell, members cell → cell < 9) :
    (relabelling.groupTest predicate).Holds
        (relabelling.board board)
        (members ∘ relabelling.cell) ↔
      predicate.Holds board members := by
  cases predicate with
  | sameColor | sameShape =>
      rw [groupTest, Trait.holds_same, hLawful.uniform_trait]
      rfl
  | distinctColors | distinctShapes =>
      rw [groupTest, Trait.holds_distinct,
        hLawful.distinct_trait]
      rfl
  | sameColorOrShape =>
      rw [groupTest, GroupPredicate.Holds,
        GroupPredicate.Holds,
        hLawful.involutive_trait.surjective.exists]
      exact exists_congr fun trait => hLawful.uniform_trait
  | contiguous => exact hLawful.contiguous_members hMembers

end Lawful

end Relabelling

end HiddenRule

------------------------------------------------------------
-- Rules
------------------------------------------------------------

namespace HiddenRule

namespace Relabelling

namespace Lawful

variable {relabelling : Relabelling}

private theorem exists_holds
    (hLawful : relabelling.Lawful)
    (board : Board)
    (noun predicate : Predicate) :
    (∃ cell < 9,
      (relabelling.predicate noun).Holds
          (relabelling.board board) cell ∧
        (relabelling.predicate predicate).Holds
          (relabelling.board board) cell) ↔
      ∃ cell < 9,
        noun.Holds board cell ∧
          predicate.Holds board cell := by
  rw [hLawful.involutive_cell.surjective.exists]
  apply exists_congr
  intro cell
  rw [hLawful.cell_lt_iff]
  apply and_congr_right
  intro hCell
  rw [hLawful.holds_predicate board noun hCell,
    hLawful.holds_predicate board predicate hCell]

/- A relabelled rule says the same of a relabelled board. -/
theorem holds_rule
    (hLawful : relabelling.Lawful)
    (rule : Rule)
    (board : Board) :
    (relabelling.rule rule).Holds (relabelling.board board) ↔
      rule.Holds board := by
  have hSurjective := hLawful.involutive_cell.surjective
  cases rule with
  | universal noun predicate =>
      rw [Relabelling.rule, Rule.Holds, Rule.Holds,
        hSurjective.forall]
      apply forall_congr'
      intro cell
      rw [hLawful.cell_lt_iff]
      apply imp_congr_right
      intro hCell
      rw [hLawful.holds_predicate board noun hCell,
        hLawful.holds_predicate board predicate hCell]
  | existential noun predicate =>
      exact hLawful.exists_holds board noun predicate
  | negativeUniversal noun predicate =>
      exact not_congr
        (hLawful.exists_holds board noun predicate)
  | grouped group predicate =>
      have hInjective := hLawful.involutive_cell.injective
      have hMembers :=
        hInjective.surjective_comp_right (γ := Prop)
      rw [Relabelling.rule, Rule.Holds, Rule.Holds,
        hMembers.forall]
      apply forall_congr'
      intro members
      rw [hLawful.isGroup_group]
      apply imp_congr_right
      intro hGroup
      exact hLawful.holds_groupTest predicate
        fun cell hCell => (hGroup.filled hCell).lt
  | line axis noun =>
      rw [Relabelling.rule, Rule.Holds, Rule.Holds,
        hSurjective.exists]
      apply exists_congr
      intro here
      rw [hLawful.cell_lt_iff, hSurjective.forall]
      apply and_congr_right
      intro hHere
      apply forall_congr'
      intro there
      rw [hLawful.cell_lt_iff]
      apply imp_congr_right
      intro hThere
      rw [hLawful.lineOf_axis axis _ hHere _ hThere,
        hLawful.holds_predicate board noun hThere]

/- Both evaluations have the same answer. -/
theorem evaluate_rule
    (hLawful : relabelling.Lawful)
    (rule : Rule)
    (board : Board) :
    (relabelling.rule rule).evaluate
        (relabelling.board board) =
      rule.evaluate board :=
  ((relabelling.rule rule).evaluate_decides _).unique
    (rule.evaluate_decides board)
    (hLawful.holds_rule rule board)

end Lawful

end Relabelling

end HiddenRule
