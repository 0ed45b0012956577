import HiddenRule.Proofs.Contents
import HiddenRule.Rule.Group

/-
  This file proves that the groups of a board cover its
  filled cells without loss or duplication.

  Colors, shapes, sorts and lines each give a cell a key, and
  the groups are the filled cells of the board with one key
  after another.  As no key is listed twice and each cell has
  a listed one, every filled cell is in one group, together
  with the cells of the same key.  Neighbors are given by a
  list of pairs, which has each pair once and in one order.

  Main declarations:
    * `Group.Joins`
    * `Group.classes` and `Group.Covers`
    * `Group.covers_classes` and `Group.groups_yields_covers`
    * `Group.ListsPairs` and `Group.listsPairs_adjacent`
    * `Group.groups_cover_filled`
-/

------------------------------------------------------------
-- Classes Of Cells
------------------------------------------------------------

namespace HiddenRule

namespace Board

/- The filled cells of a board, in order. -/
def filledCells
    (board : Board) : List Cell :=
  Cell.all.filter fun cell => !(board.content cell).isEmpty

theorem mem_filledCells
    {board : Board}
    {cell : Cell} :
    cell ∈ board.filledCells ↔ board.Filled cell := by
  rw [filledCells, List.mem_filter, Cell.mem_all_iff,
    Bool.not_eq_true']
  exact and_iff_right_of_imp Filled.lt

theorem filledCells_increase
    (board : Board) :
    board.filledCells.Pairwise (· < ·) := by
  have hAll : Cell.all.Pairwise (· < ·) := by
    decide
  exact hAll.filter _

end Board

namespace Group

/- The cells that a grouping puts together. -/
def Joins
    (board : Board) : Group → Cell → Cell → Prop
| .color, here, there =>
    Trait.color.Agree (board.content here)
      (board.content there)
| .shape, here, there =>
    Trait.shape.Agree (board.content here)
      (board.content there)
| .identical, here, there =>
    ∀ trait : Trait, trait.Agree (board.content here)
      (board.content there)
| .line axis, here, there =>
    axis.lineOf here = axis.lineOf there
| .adjacent, here, there =>
    there ∈ Cell.neighbors here

end Group

namespace Trait

/- The grouping by a trait. -/
def group : Trait → Group
| .color => .color
| .shape => .shape

theorem joins_group
    (trait : Trait)
    (board : Board)
    (here there : Cell) :
    trait.group.Joins board here there ↔
      trait.Agree (board.content here)
        (board.content there) := by
  cases trait <;> rfl

end Trait

namespace Group

/- The filled cells with each of the listed keys. -/
def classes
    {κ : Type}
    [DecidableEq κ]
    (board : Board)
    (keyOf : Cell → κ)
    (keys : List κ) : List (List Cell) :=
  keys.map fun key =>
    board.filledCells.filter fun cell => keyOf cell = key

/-
  Groups that cover the filled cells of a board: each of them
  is in one group, at one place of the list, and the groups
  have no other cells.  The cells of a group are in order,
  and two cells are in the same group exactly if the grouping
  joins them.
-/
structure Covers
    (board : Board)
    (group : Group)
    (groups : List (List Cell)) : Prop where
  once :
    ∀ cell, board.Filled cell →
      (groups.countP fun cells => cell ∈ cells) = 1
  filled :
    ∀ cells ∈ groups, ∀ cell ∈ cells, board.Filled cell
  increasing : ∀ cells ∈ groups, cells.Pairwise (· < ·)
  together :
    ∀ here there, board.Filled here → board.Filled there →
      ((∃ cells ∈ groups, here ∈ cells ∧ there ∈ cells) ↔
        group.Joins board here there)

section

variable {board : Board}
variable {group : Group}
variable {groups : List (List Cell)}
variable {cell : Cell}

theorem Covers.exists_mem
    (hCovers : Covers board group groups)
    (hFilled : board.Filled cell) :
    ∃ cells ∈ groups, cell ∈ cells := by
  have hOnce := hCovers.once cell hFilled
  have hSome :
      0 < groups.countP fun cells => cell ∈ cells := by
    omega
  simpa using List.countP_pos_iff.mp hSome

/- A cell is in one group only. -/
theorem Covers.eq_of_mem
    (hCovers : Covers board group groups)
    {cells others : List Cell}
    (hCells : cells ∈ groups)
    (hOthers : others ∈ groups)
    (hMem : cell ∈ cells)
    (hOther : cell ∈ others) :
    cells = others := by
  have hOnce :=
    hCovers.once cell (hCovers.filled cells hCells cell hMem)
  rw [List.countP_eq_length_filter,
    List.length_eq_one_iff] at hOnce
  rcases hOnce with ⟨only, hOnly⟩
  have hEq :
      ∀ found ∈ groups, cell ∈ found → found = only := by
    intro found hFound hCell
    rw [← List.mem_singleton, ← hOnly, List.mem_filter,
      decide_eq_true_iff]
    exact ⟨hFound, hCell⟩
  rw [hEq cells hCells hMem, hEq others hOthers hOther]

end

section

variable {κ : Type}
variable [DecidableEq κ]
variable {board : Board}
variable {keyOf : Cell → κ}
variable {keys : List κ}

private theorem mem_class
    {key : κ}
    {cell : Cell} :
    (cell ∈ board.filledCells.filter fun cell =>
        keyOf cell = key) ↔
      board.Filled cell ∧ keyOf cell = key := by
  rw [List.mem_filter, Board.mem_filledCells,
    decide_eq_true_iff]

/- A filled cell is in the class of its key only. -/
theorem countP_classes
    (hNodup : keys.Nodup)
    {cell : Cell}
    (hFilled : board.Filled cell)
    (hKey : keyOf cell ∈ keys) :
    ((classes board keyOf keys).countP fun cells =>
      cell ∈ cells) = 1 := by
  have hSame :
      ∀ key ∈ keys,
        (decide (cell ∈ board.filledCells.filter fun cell =>
            keyOf cell = key) = true ↔
          (key == keyOf cell) = true) := by
    intro key _
    rw [decide_eq_true_iff, mem_class, beq_iff_eq, eq_comm]
    exact and_iff_right hFilled
  calc
    _ = keys.countP (· == keyOf cell) := by
        rw [classes, List.countP_map]
        exact List.countP_congr hSame
    _ = 1 := List.count_eq_one_of_mem hNodup hKey

/-
  Classes by keys cover the filled cells if no key is listed
  twice, each filled cell has a listed one, and the grouping
  joins the cells with the same key.
-/
theorem covers_classes
    {group : Group}
    (hNodup : keys.Nodup)
    (hKeys : ∀ cell, board.Filled cell → keyOf cell ∈ keys)
    (hJoins :
      ∀ here there,
        group.Joins board here there ↔
          keyOf here = keyOf there) :
    Covers board group (classes board keyOf keys) := by
  refine
    { once := fun cell hFilled =>
        countP_classes hNodup hFilled (hKeys cell hFilled)
      filled := ?_
      increasing := ?_
      together := ?_ }
  · intro cells hCells cell hCell
    rcases List.mem_map.mp hCells with ⟨key, _, rfl⟩
    exact (mem_class.mp hCell).1
  · intro cells hCells
    rcases List.mem_map.mp hCells with ⟨key, _, rfl⟩
    exact board.filledCells_increase.filter _
  · intro here there hHere hThere
    rw [hJoins]
    constructor
    · intro ⟨cells, hCells, hMem, hOther⟩
      rcases List.mem_map.mp hCells with ⟨key, _, rfl⟩
      exact (mem_class.mp hMem).2.trans
        (mem_class.mp hOther).2.symm
    · intro hSame
      refine ⟨_, List.mem_map_of_mem (hKeys here hHere),
        mem_class.mpr ⟨hHere, rfl⟩,
        mem_class.mpr ⟨hThere, hSame.symm⟩⟩

end

end Group

end HiddenRule

------------------------------------------------------------
-- Groups As Classes
------------------------------------------------------------

namespace HiddenRule

namespace Group

/- The listed cells that hold a symbol of some sort. -/
def sorted
    (board : Board)
    (cells : List Cell)
    (keep : Symbol → Bool) : List Cell :=
  cells.filter fun cell =>
    !(board.content cell).isEmpty &&
      keep (board.content cell)

theorem cellsWhere_eq
    (board : Board)
    {cells : List Cell}
    (hCells : Cell.OnBoard cells)
    (keep : Symbol → Bool) :
    cellsWhere board cells keep =
      .ok (sorted board cells keep) := by
  apply filterM_eq_filter
  intro cell hCell
  rw [board.get_eq_content (hCells cell hCell)]
  rfl

/- The groups by a trait, one for each color or shape. -/
theorem groups_trait
    (board : Board)
    (trait : Trait) :
    trait.group.groups board =
      .ok (trait.variants.map fun variant =>
        sorted board Cell.all fun symbol =>
          trait.variant? symbol == some variant) := by
  cases trait <;>
    exact mapM_eq_map fun _ _ =>
      cellsWhere_eq board Cell.onBoard_all _

/- The groups by both, one for each sort of symbols. -/
theorem groups_identical
    (board : Board) :
    Group.identical.groups board =
      .ok (sorts.map fun sort =>
        sorted board Cell.all fun symbol =>
          symbol.color? == some sort.1 &&
            symbol.shape? == some sort.2) :=
  mapM_eq_map fun _ _ =>
    cellsWhere_eq board Cell.onBoard_all _

/- The groups in lines, one for each line. -/
theorem groups_line
    (board : Board)
    (axis : Axis) :
    (Group.line axis).groups board =
      .ok (axis.lines.map fun line =>
        sorted board line fun _ => true) :=
  mapM_eq_map fun _ hLine =>
    cellsWhere_eq board (Cell.onBoard_lines hLine) _

variable (board : Board)

/- The symbols of some sort are those with some key. -/
theorem sorted_eq_class
    {κ : Type}
    [DecidableEq κ]
    {keep : Symbol → Bool}
    {keyOf : Cell → κ}
    {key : κ}
    (hKeep :
      ∀ cell,
        keep (board.content cell) = true ↔
          keyOf cell = key) :
    sorted board Cell.all keep =
      board.filledCells.filter fun cell =>
        keyOf cell = key := by
  rw [sorted, Board.filledCells, List.filter_filter]
  refine List.filter_congr fun cell _ => ?_
  rw [Bool.and_comm, Bool.eq_iff_iff, Bool.and_eq_true,
    Bool.and_eq_true, hKeep, decide_eq_true_iff]

theorem groups_trait_eq_classes
    (trait : Trait) :
    trait.group.groups board =
      .ok (classes board
        (fun cell => trait.variant? (board.content cell))
        (trait.variants.map some)) := by
  rw [groups_trait, classes, List.map_map]
  congr 1
  exact List.map_congr_left fun variant _ =>
    sorted_eq_class board fun _ => beq_iff_eq

theorem groups_identical_eq_classes :
    Group.identical.groups board =
      .ok (classes board
        (fun cell =>
          ((board.content cell).color?,
            (board.content cell).shape?))
        (sorts.map fun sort =>
          (some sort.1, some sort.2))) := by
  rw [groups_identical, classes, List.map_map]
  congr 1
  refine List.map_congr_left fun sort _ => ?_
  apply sorted_eq_class
  intro cell
  rw [Bool.and_eq_true, beq_iff_eq, beq_iff_eq,
    Prod.mk.injEq]

theorem groups_line_eq_classes
    (axis : Axis) :
    (Group.line axis).groups board =
      .ok (classes board axis.lineOf [0, 1, 2]) := by
  rw [groups_line, Axis.lines, List.map_map, classes]
  congr 1
  refine List.map_congr_left fun line hLine => ?_
  rw [Function.comp_apply, axis.cells_eq_filter hLine,
    sorted, Board.filledCells, List.filter_filter,
    List.filter_filter]
  refine List.filter_congr fun cell _ => ?_
  rw [Bool.and_true, Bool.and_comm]

/- The groups by a trait cover the filled cells. -/
theorem groups_trait_yields_covers
    (trait : Trait) :
    Yields (trait.group.groups board)
      (Covers board trait.group) := by
  refine ⟨_, groups_trait_eq_classes board trait, ?_⟩
  apply covers_classes trait.nodup_some_variants
  · intro cell hFilled
    have hSome :
        (trait.variant? (board.content cell)).isSome := by
      rw [trait.isSome_variant?, hFilled]
      rfl
    rcases Option.isSome_iff_exists.mp hSome with
      ⟨variant, hVariant⟩
    rw [hVariant]
    exact List.mem_map_of_mem (Trait.mem_variants variant)
  · intro here there
    rw [trait.joins_group, Trait.agree_iff]

/- A board has its groups cover the filled cells. -/
theorem groups_yields_covers
    {group : Group}
    (hGroup : group ≠ .adjacent) :
    Yields (group.groups board) (Covers board group) := by
  cases group with
  | color => exact groups_trait_yields_covers board .color
  | shape => exact groups_trait_yields_covers board .shape
  | identical =>
      refine ⟨_, groups_identical_eq_classes board, ?_⟩
      apply covers_classes (by decide)
      · intro cell hFilled
        rcases hFilled.exists_traits with ⟨c, s, hContent⟩
        rw [hContent]
        cases c <;> cases s <;> decide
      · intro here there
        rw [Prod.mk.injEq]
        constructor
        · intro hAgree
          exact ⟨hAgree .color, hAgree .shape⟩
        · intro ⟨hColor, hShape⟩ trait
          cases trait with
          | color => exact hColor
          | shape => exact hShape
  | line axis =>
      refine ⟨_, groups_line_eq_classes board axis, ?_⟩
      apply covers_classes (by decide)
      · intro cell hFilled
        exact axis.lineOf_mem hFilled.lt
      · intro here there
        exact Iff.rfl
  | adjacent => exact absurd rfl hGroup

/- The cells of two sorts are common to those of each. -/
theorem sorted_and
    (one other : Symbol → Bool) :
    (sorted board Cell.all fun symbol =>
        one symbol && other symbol) =
      (sorted board Cell.all one).filter
        (· ∈ sorted board Cell.all other) := by
  simp only [sorted, List.filter_filter]
  refine List.filter_congr fun cell hCell => ?_
  rw [Bool.eq_iff_iff]
  simp only [List.mem_filter, Bool.and_eq_true,
    decide_eq_true_eq]
  constructor
  · rintro ⟨hFilled, hOne, hOther⟩
    exact ⟨⟨hCell, hFilled, hOther⟩, hFilled, hOne⟩
  · rintro ⟨⟨_, hFilled, hOther⟩, _, hOne⟩
    exact ⟨hFilled, hOne, hOther⟩

/-
  Identical symbols are what a group by color has in common
  with a group by shape.
-/
theorem groups_identical_eq_common :
    ∃ ofColor ofShape,
      Group.color.groups board = .ok ofColor ∧
      Group.shape.groups board = .ok ofShape ∧
      Group.identical.groups board =
        .ok (ofColor.flatMap fun cells =>
          ofShape.map fun others =>
            cells.filter (· ∈ others)) := by
  refine ⟨_, _, groups_trait board .color,
    groups_trait board .shape, ?_⟩
  rw [groups_identical, sorts, List.flatMap_map,
    List.map_flatMap]
  congr 1
  refine List.flatMap_congr fun c _ => ?_
  rw [List.map_map, List.map_map]
  refine List.map_congr_left fun s _ => ?_
  exact sorted_and board (·.color? == some c)
    (·.shape? == some s)

end Group

end HiddenRule

------------------------------------------------------------
-- Pairs Of Neighbors
------------------------------------------------------------

namespace HiddenRule

namespace Group

/- The listed pairs are the pairs of neighbors. -/
theorem neighbors_of_mem_pairs
    {pair : Cell × Cell}
    (hPair : pair ∈ Cell.adjacentPairs) :
    pair.1 < 9 ∧ pair.2 < 9 ∧ pair.1 ≠ pair.2 ∧
      pair.2 ∈ Cell.neighbors pair.1 := by
  have hAll :
      ∀ pair ∈ Cell.adjacentPairs,
        pair.1 < 9 ∧ pair.2 < 9 ∧ pair.1 ≠ pair.2 ∧
          pair.2 ∈ Cell.neighbors pair.1 := by
    decide
  exact hAll pair hPair

/- The listed pairs of cells that both hold a symbol. -/
def filledPairs
    (board : Board) : List (Cell × Cell) :=
  Cell.adjacentPairs.filter fun pair =>
    !(board.content pair.1).isEmpty &&
      !(board.content pair.2).isEmpty

theorem mem_filledPairs
    {board : Board}
    {pair : Cell × Cell} :
    pair ∈ filledPairs board ↔
      pair ∈ Cell.adjacentPairs ∧
        board.Filled pair.1 ∧ board.Filled pair.2 := by
  simp [filledPairs, Board.Filled]

private theorem bothFilled_eq
    (board : Board)
    {pair : Cell × Cell}
    (hPair : pair ∈ Cell.adjacentPairs) :
    bothFilled board pair =
      .ok (!(board.content pair.1).isEmpty &&
        !(board.content pair.2).isEmpty) := by
  rcases neighbors_of_mem_pairs hPair with
    ⟨hFirst, hSecond, _, _⟩
  rw [bothFilled, board.get_eq_content hFirst, ok_bind,
    board.get_eq_content hSecond, ok_bind]
  cases (board.content pair.1).isEmpty <;> rfl

/- The groups of neighbors are the pairs that are filled. -/
theorem groups_adjacent
    (board : Board) :
    Group.adjacent.groups board =
      .ok ((filledPairs board).map fun (first, second) =>
        [first, second]) := by
  rw [groups, filterM_eq_filter fun pair hPair =>
    bothFilled_eq board hPair, ok_bind]
  rfl

/-
  Groups that are the pairs of filled cells that share a
  side, each pair once and in one of its two orders.
-/
structure ListsPairs
    (board : Board)
    (groups : List (List Cell)) : Prop where
  pair :
    ∀ cells ∈ groups,
      ∃ here there,
        cells = [here, there] ∧
          board.Filled here ∧ board.Filled there ∧
          here.Borders there
  once :
    ∀ here there, board.Filled here → board.Filled there →
      here.Borders there →
        (groups.countP fun cells =>
          cells = [here, there] ∨ cells = [there, here]) = 1

/- Cells that share a side are one of the listed pairs. -/
theorem countP_adjacentPairs
    {here there : Cell}
    (hBorders : here.Borders there) :
    (Cell.adjacentPairs.countP fun pair =>
      pair = (here, there) ∨ pair = (there, here)) = 1 := by
  have hAll :
      ∀ here < 9, ∀ there < 9, Cell.Borders here there →
        (Cell.adjacentPairs.countP fun pair =>
          pair = (here, there) ∨ pair = (there, here)) =
            1 := by
    decide
  exact hAll here hBorders.1 there hBorders.2.1 hBorders

theorem listsPairs_adjacent
    (board : Board) :
    Yields (Group.adjacent.groups board)
      (ListsPairs board) := by
  refine ⟨_, groups_adjacent board, ?_, ?_⟩
  · intro cells hCells
    rcases List.mem_map.mp hCells with ⟨pair, hPair, rfl⟩
    rcases mem_filledPairs.mp hPair with
      ⟨hMem, hFirst, hSecond⟩
    rcases neighbors_of_mem_pairs hMem with ⟨_, _, _, hNear⟩
    exact ⟨pair.1, pair.2, rfl, hFirst, hSecond,
      (Cell.mem_neighbors_iff_borders hFirst.lt).mp hNear⟩
  · intro here there hHere hThere hBorders
    rw [← countP_adjacentPairs hBorders, List.countP_map,
      filledPairs, List.countP_filter]
    -- The pair in question is filled in either order.
    refine List.countP_congr fun pair _ => ?_
    have hBoth :
        pair = (here, there) ∨ pair = (there, here) →
          (board.content pair.1).isEmpty = false ∧
            (board.content pair.2).isEmpty = false := by
      rintro (rfl | rfl)
      · exact ⟨hHere, hThere⟩
      · exact ⟨hThere, hHere⟩
    simpa [Prod.ext_iff] using hBoth

end Group

end HiddenRule

------------------------------------------------------------
-- Covering The Filled Cells
------------------------------------------------------------

namespace HiddenRule

namespace Group

/-
  The groups by color, shape, sort or line put each filled
  cell of a board into one group, with the cells it is joined
  to.  Those of identical symbols are what the groups by
  color and by shape have in common.  The groups of neighbors
  are the pairs of filled cells that share a side, each once.
-/
theorem groups_cover_filled
    (board : Board) :
    (∀ group : Group, group ≠ .adjacent →
      Yields (group.groups board) (Covers board group)) ∧
    (∃ ofColor ofShape,
      Group.color.groups board = .ok ofColor ∧
      Group.shape.groups board = .ok ofShape ∧
      Group.identical.groups board =
        .ok (ofColor.flatMap fun cells =>
          ofShape.map fun others =>
            cells.filter (· ∈ others))) ∧
    Yields (Group.adjacent.groups board)
      (ListsPairs board) :=
  ⟨fun _ hGroup => groups_yields_covers board hGroup,
    groups_identical_eq_common board,
    listsPairs_adjacent board⟩

/-
  Two red circles are a group of identical symbols beside a
  red square, and the circle that touches the square is in
  one of two pairs.
-/
theorem groups_of_three_symbols :
    let board : Board :=
      .ofList [.filled .red .circle, .filled .red .square,
        .empty, .filled .red .circle]
    Group.identical ≠ .adjacent ∧
      Group.color.groups board = .ok [[0, 1, 3], [], []] ∧
      Group.adjacent.groups board = .ok [[0, 1], [0, 3]] ∧
      board.Filled 0 ∧ board.Filled 3 ∧
      Cell.Borders 3 0 ∧
      ∃ groups pairs,
        Group.identical.groups board = .ok groups ∧
        Group.adjacent.groups board = .ok pairs ∧
        (groups.countP fun cells => 0 ∈ cells) = 1 ∧
        (∃ cells ∈ groups, 0 ∈ cells ∧ 3 ∈ cells) ∧
        (pairs.countP fun cells =>
          cells = [3, 0] ∨ cells = [0, 3]) = 1 := by
  intro board
  have hGroup : Group.identical ≠ .adjacent := by decide
  have hZero : board.Filled 0 := by rfl
  have hThree : board.Filled 3 := by rfl
  have hBorders : Cell.Borders 3 0 := by decide
  have hJoins : Group.identical.Joins board 0 3 := by
    intro trait
    cases trait <;> rfl
  rcases groups_cover_filled board with
    ⟨hCovers, _, pairs, hPairs, hLists⟩
  rcases hCovers .identical hGroup with
    ⟨groups, hGroups, hCover⟩
  refine ⟨hGroup, by decide +kernel, by decide +kernel, hZero,
    hThree, hBorders, groups, pairs, hGroups, hPairs,
    hCover.once 0 hZero, ?_, ?_⟩
  · exact (hCover.together 0 3 hZero hThree).mpr hJoins
  · exact hLists.once 3 0 hThree hZero hBorders

end Group

end HiddenRule
