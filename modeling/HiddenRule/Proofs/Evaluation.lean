import Mathlib.Data.Set.Pairwise.List
import HiddenRule.Proofs.Classes
import HiddenRule.Proofs.Traits
import HiddenRule.Rule.Basic

/-
  This file states what a rule says of a board, without the
  order in which its cells and groups are looked through, and
  proves that an evaluation decides it: every rule has an
  answer on every board, and never looks off the board.

  A group is given by its members.  A color, shape, sort or
  line has the filled cells that it joins to one of them as a
  group; neighboring filled cells are a group of two.

  Main declarations:
    * `Predicate.Holds` and `Predicate.holdsAt_decides`
    * `Group.IsGroup` and `Group.groups_yields_lists`
    * `GroupPredicate.Holds` and
      `GroupPredicate.holdsOn_decides`
    * `Rule.Holds` and `Rule.evaluate_decides`
    * `Rule.follows` and `Rule.evaluate_eq`
-/

------------------------------------------------------------
-- Tests Of Cells
------------------------------------------------------------

namespace HiddenRule

namespace Predicate

/-
  What a test that asks for no neighbor says of the content
  of a cell.
-/
def Marks : Predicate → Symbol → Cell → Prop
| .colorNoun c, symbol, _ => symbol.color? = some c
| .shapeNoun s, symbol, _ => symbol.shape? = some s
| .rowNoun r, symbol, cell =>
    symbol.isEmpty = false ∧ Cell.row cell = r.index
| .columnNoun c, symbol, cell =>
    symbol.isEmpty = false ∧ Cell.column cell = c.index
| .emptyCellNoun, symbol, _ => symbol.isEmpty = true
| .color c, symbol, _ => symbol.color? = some c
| .shape s, symbol, _ => symbol.shape? = some s
| .row r, _, cell => Cell.row cell = r.index
| .column c, _, cell => Cell.column cell = c.index
| .adjacentTo _, _, _ => False

/- What a test says of a cell of a board. -/
def Holds
    (board : Board) : Predicate → Cell → Prop
| .adjacentTo noun, cell =>
    ∃ near ∈ Cell.neighbors cell, Holds board noun near
| test, cell => test.Marks (board.content cell) cell

/- Testing a cell decides what the test says of it. -/
theorem holdsAt_decides
    (board : Board)
    (predicate : Predicate)
    {cell : Cell}
    (hCell : cell < 9) :
    Decides (predicate.holdsAt board cell)
      (predicate.Holds board cell) := by
  induction predicate generalizing cell with
  | adjacentTo noun ih =>
      rw [holdsAt, board.get_eq_content hCell, ok_bind,
        Holds]
      apply decides_anyM
      intro near hNear
      exact ih (Cell.onBoard_neighbors hCell near hNear)
  | _ =>
      rw [holdsAt, board.get_eq_content hCell, ok_bind]
      apply decides_ok
      simp [Holds, Marks, Row.contains, Column.contains]

end Predicate

end HiddenRule

------------------------------------------------------------
-- Groups
------------------------------------------------------------

namespace HiddenRule

namespace Group

/- The members of a group of a board. -/
def IsGroup
    (board : Board) : Group → (Cell → Prop) → Prop
| .adjacent, members =>
    ∃ here there,
      board.Filled here ∧ board.Filled there ∧
      Group.adjacent.Joins board here there ∧
      ∀ cell, members cell ↔ cell = here ∨ cell = there
| group, members =>
    ∃ here,
      board.Filled here ∧
      ∀ cell, members cell ↔
        board.Filled cell ∧ group.Joins board here cell

/- A list of groups that has every group of a board. -/
structure Lists
    (board : Board)
    (group : Group)
    (groups : List (List Cell)) : Prop where
  nodup : ∀ cells ∈ groups, cells.Nodup
  isGroup :
    ∀ cells ∈ groups, cells ≠ [] →
      group.IsGroup board (· ∈ cells)
  exists_of_isGroup :
    ∀ members, group.IsGroup board members →
      ∃ cells ∈ groups, ∀ cell, cell ∈ cells ↔ members cell

/- Groups other than pairs have one cell that tells all. -/
theorem isGroup_iff
    {board : Board}
    {group : Group}
    (hGroup : group ≠ .adjacent)
    {members : Cell → Prop} :
    group.IsGroup board members ↔
      ∃ here,
        board.Filled here ∧
        ∀ cell, members cell ↔
          board.Filled cell ∧
            group.Joins board here cell := by
  cases group with
  | adjacent => exact absurd rfl hGroup
  | _ => rfl

/- Groups that cover the filled cells are all there are. -/
private theorem lists_of_covers
    {board : Board}
    {group : Group}
    (hGroup : group ≠ .adjacent)
    {groups : List (List Cell)}
    (hCovers : Covers board group groups) :
    Lists board group groups := by
  have hMembers :
      ∀ cells ∈ groups, ∀ here ∈ cells,
        ∀ cell, cell ∈ cells ↔
          board.Filled cell ∧
            group.Joins board here cell := by
    intro cells hCells here hHere cell
    have hFilled := hCovers.filled cells hCells
    constructor
    · intro hCell
      exact ⟨hFilled cell hCell,
        (hCovers.together here cell (hFilled here hHere)
          (hFilled cell hCell)).mp
            ⟨cells, hCells, hHere, hCell⟩⟩
    · intro ⟨hSymbol, hJoins⟩
      rcases (hCovers.together here cell (hFilled here hHere)
        hSymbol).mpr hJoins with
        ⟨others, hOthers, hOther, hCell⟩
      rw [hCovers.eq_of_mem hCells hOthers hHere hOther]
      exact hCell
  refine ⟨?_, ?_, ?_⟩
  · intro cells hCells
    apply (hCovers.increasing cells hCells).imp
    exact fun hLt => Nat.ne_of_lt hLt
  · intro cells hCells hSome
    rcases List.exists_mem_of_ne_nil cells hSome with
      ⟨here, hHere⟩
    exact (isGroup_iff hGroup).mpr
      ⟨here, hCovers.filled cells hCells here hHere,
        hMembers cells hCells here hHere⟩
  · intro members hIsGroup
    rcases (isGroup_iff hGroup).mp hIsGroup with
      ⟨here, hFilled, hAll⟩
    rcases hCovers.exists_mem hFilled with
      ⟨cells, hCells, hHere⟩
    refine ⟨cells, hCells, ?_⟩
    intro cell
    rw [hMembers cells hCells here hHere cell, hAll cell]

/- Pairs of neighbors are groups of two. -/
private theorem lists_of_listsPairs
    {board : Board}
    {groups : List (List Cell)}
    (hPairs : ListsPairs board groups) :
    Lists board .adjacent groups := by
  refine ⟨?_, ?_, ?_⟩
  · intro cells hCells
    rcases hPairs.pair cells hCells with
      ⟨here, there, rfl, _, _, hBorders⟩
    simpa using hBorders.ne
  · intro cells hCells _
    rcases hPairs.pair cells hCells with
      ⟨here, there, rfl, hHere, hThere, hBorders⟩
    refine ⟨here, there, hHere, hThere,
      (Cell.mem_neighbors_iff_borders hHere.lt).mpr hBorders,
      ?_⟩
    simp
  · intro members
      ⟨here, there, hHere, hThere, hNear, hMembers⟩
    have hOnce :=
      hPairs.once here there hHere hThere
        ((Cell.mem_neighbors_iff_borders hHere.lt).mp hNear)
    have hSome :
        0 < groups.countP fun cells =>
          cells = [here, there] ∨ cells = [there, here] := by
      omega
    rcases List.countP_pos_iff.mp hSome with
      ⟨cells, hCells, hPair⟩
    refine ⟨cells, hCells, ?_⟩
    intro cell
    rw [hMembers cell]
    rcases of_decide_eq_true hPair with rfl | rfl
    · simp
    · simp [Or.comm]

/- A board has its groups listed. -/
theorem groups_yields_lists
    (board : Board)
    (group : Group) :
    Yields (group.groups board) (Lists board group) := by
  by_cases hGroup : group = .adjacent
  · rw [hGroup]
    exact (listsPairs_adjacent board).mono
      fun _ => lists_of_listsPairs
  · exact (groups_yields_covers board hGroup).mono
      fun _ => lists_of_covers hGroup

end Group

end HiddenRule

------------------------------------------------------------
-- Tests Of Groups
------------------------------------------------------------

namespace HiddenRule

namespace GroupPredicate

/- No two members agree in a trait. -/
def Distinct
    (board : Board)
    (trait : Trait)
    (members : Cell → Prop) : Prop :=
  ∀ here there, members here → members there →
    here ≠ there →
      ¬ trait.Agree (board.content here)
        (board.content there)

/- What a test says of a group of filled cells. -/
def Holds
    (board : Board) :
    GroupPredicate → (Cell → Prop) → Prop
| .sameColor, members => Uniform board .color members
| .sameShape, members => Uniform board .shape members
| .distinctColors, members => Distinct board .color members
| .distinctShapes, members => Distinct board .shape members
| .sameColorOrShape, members =>
    ∃ trait : Trait, Uniform board trait members
| .contiguous, members => Cell.Contiguous members

/- In a group no symbol is listed twice. -/
private theorem unrepeated_iff_distinct
    {board : Board}
    {trait : Trait}
    {cells : List Cell}
    (hFilled : ∀ cell ∈ cells, board.Filled cell)
    (hNodup : cells.Nodup) :
    Unrepeated board trait cells ↔
      Distinct board trait (· ∈ cells) := by
  have hSymm := symm_unlike board trait
  rw [Unrepeated, ← hNodup.pairwise_coe]
  constructor
  · intro hPairs here there hHere hThere hNe
    exact hPairs hHere hThere hNe (hFilled here hHere)
      (hFilled there hThere)
  · intro hDistinct here hHere there hThere hNe _ _
    exact hDistinct here there hHere hThere hNe

/- Testing a group decides what the test says of it. -/
theorem holdsOn_decides
    (board : Board)
    (predicate : GroupPredicate)
    {cells : List Cell}
    (hFilled : ∀ cell ∈ cells, board.Filled cell)
    (hNodup : cells.Nodup) :
    Decides (predicate.holdsOn board cells)
      (predicate.Holds board (· ∈ cells)) := by
  have hCells : Cell.OnBoard cells :=
    fun cell hCell => (hFilled cell hCell).lt
  apply (predicate.holdsOn_decides_pairs board hCells).congr
  cases predicate with
  | distinctColors | distinctShapes =>
      exact unrepeated_iff_distinct hFilled hNodup
  | _ => exact Iff.rfl

end GroupPredicate

end HiddenRule

------------------------------------------------------------
-- Rules
------------------------------------------------------------

namespace HiddenRule

/- Members of groups hold symbols. -/
theorem Group.IsGroup.filled
    {board : Board}
    {group : Group}
    {members : Cell → Prop}
    (hGroup : group.IsGroup board members)
    {cell : Cell}
    (hCell : members cell) :
    board.Filled cell := by
  cases group with
  | adjacent =>
      rcases hGroup with
        ⟨here, there, hHere, hThere, _, hAll⟩
      rcases (hAll cell).mp hCell with hSame | hSame
      · rw [hSame]
        exact hHere
      · rw [hSame]
        exact hThere
  | _ =>
      rcases hGroup with ⟨_, _, hAll⟩
      exact ((hAll cell).mp hCell).1

/- A group has members. -/
theorem Group.IsGroup.exists_mem
    {board : Board}
    {group : Group}
    {members : Cell → Prop}
    (hGroup : group.IsGroup board members) :
    ∃ cell, members cell := by
  cases group with
  | adjacent =>
      rcases hGroup with ⟨here, _, _, _, _, hAll⟩
      exact ⟨here, (hAll here).mpr (Or.inl rfl)⟩
  | identical =>
      rcases hGroup with ⟨here, hFilled, hAll⟩
      refine ⟨here, (hAll here).mpr ⟨hFilled, ?_⟩⟩
      exact fun trait => .refl trait _
  | _ =>
      rcases hGroup with ⟨here, hFilled, hAll⟩
      exact ⟨here, (hAll here).mpr ⟨hFilled, rfl⟩⟩

namespace Rule

/- What a rule says of a board. -/
def Holds
    (board : Board) : Rule → Prop
| .universal noun predicate =>
    ∀ cell < 9,
      noun.Holds board cell → predicate.Holds board cell
| .existential noun predicate =>
    ∃ cell < 9,
      noun.Holds board cell ∧ predicate.Holds board cell
| .negativeUniversal noun predicate =>
    ¬ ∃ cell < 9,
      noun.Holds board cell ∧ predicate.Holds board cell
| .grouped group predicate =>
    ∀ members, group.IsGroup board members →
      predicate.Holds board members
| .line axis noun =>
    ∃ here < 9, ∀ there < 9,
      axis.lineOf here = axis.lineOf there →
        noun.Holds board there

private theorem someCell_decides
    (board : Board)
    (noun predicate : Predicate) :
    Decides (someCell board noun predicate)
      (∃ cell < 9,
        noun.Holds board cell ∧
          predicate.Holds board cell) := by
  have hSome :
      Decides (someCell board noun predicate)
        (∃ cell ∈ Cell.all,
          noun.Holds board cell ∧
            predicate.Holds board cell) := by
    apply decides_anyM
    intro cell hCell
    have hOn := Cell.onBoard_all cell hCell
    exact (noun.holdsAt_decides board hOn).and
      (predicate.holdsAt_decides board hOn)
  apply hSome.congr
  simp only [Cell.mem_all_iff]

/- Testing each listed group tests every group. -/
private theorem grouped_decides
    (board : Board)
    (group : Group)
    (predicate : GroupPredicate) :
    Decides ((Rule.grouped group predicate).evaluate board)
      (∀ members, group.IsGroup board members →
        predicate.Holds board members) := by
  rcases group.groups_yields_lists board with
    ⟨groups, hGroups, hLists⟩
  rw [evaluate, hGroups, ok_bind]
  have hIsGroup :
      ∀ cells ∈ groups.filter fun cells => !cells.isEmpty,
        cells ∈ groups ∧
          group.IsGroup board (· ∈ cells) := by
    intro cells hCells
    rcases List.mem_filter.mp hCells with ⟨hMem, hSome⟩
    exact ⟨hMem,
      hLists.isGroup cells hMem (by simpa using hSome)⟩
  have hEvery :
      Decides
        ((groups.filter fun cells => !cells.isEmpty).allM
          fun cells => predicate.holdsOn board cells)
        (∀ cells ∈
            groups.filter fun cells => !cells.isEmpty,
          predicate.Holds board (· ∈ cells)) := by
    apply decides_allM
    intro cells hCells
    rcases hIsGroup cells hCells with ⟨hMem, hGroup⟩
    exact predicate.holdsOn_decides board
      (fun _ hCell => hGroup.filled hCell)
      (hLists.nodup cells hMem)
  apply hEvery.congr
  constructor
  · intro hAll members hMembers
    rcases hLists.exists_of_isGroup members hMembers with
      ⟨cells, hCells, hSame⟩
    have hEq : (· ∈ cells) = members := by
      funext cell
      exact propext (hSame cell)
    -- A group is not lost when empty lists are dropped.
    have hSome : cells ≠ [] := by
      rcases hMembers.exists_mem with ⟨cell, hCell⟩
      exact List.ne_nil_of_mem ((hSame cell).mpr hCell)
    rw [← hEq]
    exact hAll cells (List.mem_filter.mpr
      ⟨hCells, by simpa using hSome⟩)
  · intro hAll cells hCells
    exact hAll _ (hIsGroup cells hCells).2

/- Looking through each line looks through all of them. -/
private theorem line_decides
    (board : Board)
    (axis : Axis)
    (noun : Predicate) :
    Decides ((Rule.line axis noun).evaluate board)
      (∃ here < 9, ∀ there < 9,
        axis.lineOf here = axis.lineOf there →
          noun.Holds board there) := by
  have hSome :
      Decides ((Rule.line axis noun).evaluate board)
        (∃ line ∈ axis.lines, ∀ cell ∈ line,
          noun.Holds board cell) := by
    apply decides_anyM
    intro line hLine
    apply decides_allM
    intro cell hCell
    exact noun.holdsAt_decides board
      (Cell.onBoard_lines hLine cell hCell)
  apply hSome.congr
  constructor
  · intro hFound
    rcases hFound with ⟨line, hLine, hAll⟩
    rcases axis.exists_mem_line hLine with ⟨here, hHere⟩
    refine ⟨here, Cell.onBoard_lines hLine here hHere, ?_⟩
    intro there hThere hSame
    exact hAll there
      ((axis.mem_line_iff hLine hHere hThere).mpr hSame)
  · intro ⟨here, hHere, hAll⟩
    rcases axis.exists_line hHere with ⟨line, hLine, hMem⟩
    refine ⟨line, hLine, ?_⟩
    intro cell hCell
    have hOn := Cell.onBoard_lines hLine cell hCell
    exact hAll cell hOn
      ((axis.mem_line_iff hLine hMem hOn).mp hCell)

/- Evaluating a rule decides what it says of a board. -/
theorem evaluate_decides
    (rule : Rule)
    (board : Board) :
    Decides (rule.evaluate board) (rule.Holds board) := by
  cases rule with
  | universal noun predicate =>
      have hEvery :
          Decides
            ((Rule.universal noun predicate).evaluate board)
            (∀ cell ∈ Cell.all,
              noun.Holds board cell →
                predicate.Holds board cell) := by
        apply decides_allM
        intro cell hCell
        have hOn := Cell.onBoard_all cell hCell
        exact (noun.holdsAt_decides board hOn).imp
          (predicate.holdsAt_decides board hOn)
      apply hEvery.congr
      simp only [Cell.mem_all_iff, Holds]
  | existential noun predicate =>
      exact someCell_decides board noun predicate
  | negativeUniversal noun predicate =>
      exact (someCell_decides board noun predicate).not
  | grouped group predicate =>
      exact grouped_decides board group predicate
  | line axis noun => exact line_decides board axis noun

/- Whether a board follows a rule. -/
def follows
    (rule : Rule)
    (board : Board) : Bool :=
  rule.evaluate board = .ok true

/- An evaluation says whether a board follows a rule. -/
theorem evaluate_eq
    (rule : Rule)
    (board : Board) :
    rule.evaluate board = .ok (rule.follows board) := by
  rcases rule.evaluate_decides board with
    ⟨answer, hAnswer, _⟩
  cases answer <;> simp [follows, hAnswer]

end Rule

end HiddenRule
