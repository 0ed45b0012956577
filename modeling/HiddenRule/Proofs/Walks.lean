import Mathlib.Logic.Function.Iterate
import HiddenRule.Proofs.Evaluation

/-
  This file proves what a rule says of a board in terms of
  rows, columns and walks, and that an evaluation decides it.

  A test that asks so many times for a neighbor looks at the
  ends of the walks of so many steps that begin in a cell.
  So every test comes down to one that asks for no neighbor,
  made where a walk ends.

  Main declarations:
    * `Cell.Walk`
    * `Predicate.holds_iterate_iff`
    * `Predicate.Meets` and `Predicate.meets_iff_holds`
    * `Rule.Says` and `Rule.says_iff_holds`
    * `Rule.evaluate_decides_meaning`
-/

------------------------------------------------------------
-- Walks
------------------------------------------------------------

namespace HiddenRule

namespace Cell

/- A walk of so many steps over the board. -/
inductive Walk : Nat → Cell → Cell → Prop
| stay (cell : Cell) : Walk 0 cell cell
| step {steps : Nat} {here near there : Cell} :
    here.Borders near →
    Walk steps near there →
    Walk (steps + 1) here there

theorem walk_zero_iff
    {here there : Cell} :
    Walk 0 here there ↔ here = there := by
  refine ⟨fun hWalk => ?_, fun hSame => ?_⟩
  · cases hWalk
    rfl
  · rw [hSame]
    exact .stay there

/- A walk begins with a step to a neighbor. -/
theorem walk_succ_iff
    {steps : Nat}
    {here there : Cell} :
    Walk (steps + 1) here there ↔
      ∃ near, here.Borders near ∧ Walk steps near there := by
  refine ⟨fun hWalk => ?_, fun hWalk => ?_⟩
  · cases hWalk with
    | step hNear hRest => exact ⟨_, hNear, hRest⟩
  · rcases hWalk with ⟨near, hNear, hRest⟩
    exact .step hNear hRest

end Cell

end HiddenRule

------------------------------------------------------------
-- Tests At The End Of A Walk
------------------------------------------------------------

namespace HiddenRule

namespace Predicate

/- A test that looks at no other cell. -/
def AsksNoNeighbor
    (test : Predicate) : Prop :=
  ∀ noun, test ≠ .adjacentTo noun

/- Such a test holds where it marks the content. -/
theorem AsksNoNeighbor.holds_iff
    {test : Predicate}
    (hTest : test.AsksNoNeighbor)
    (board : Board)
    (cell : Cell) :
    test.Holds board cell ↔
      test.Marks (board.content cell) cell := by
  cases test with
  | adjacentTo noun => exact absurd rfl (hTest noun)
  | _ => rfl

/- Every test asks so many times for a neighbor. -/
theorem exists_iterate_eq
    (test : Predicate) :
    ∃ steps core,
      AsksNoNeighbor core ∧
        test = Predicate.adjacentTo^[steps] core := by
  induction test with
  | adjacentTo noun ih =>
      rcases ih with ⟨steps, core, hCore, hNoun⟩
      refine ⟨steps + 1, core, hCore, ?_⟩
      rw [Function.iterate_succ_apply', ← hNoun]
  | _ =>
      refine ⟨0, _, ?_, rfl⟩
      intro noun hSame
      exact nomatch hSame

/-
  To ask so many times for a neighbor is to ask for a walk
  of so many steps.  By induction on the steps: the first
  one leads to a neighbor of the cell.
-/
theorem holds_iterate_iff
    (board : Board)
    (test : Predicate)
    (steps : Nat)
    {cell : Cell}
    (hCell : cell < 9) :
    (Predicate.adjacentTo^[steps] test).Holds board cell ↔
      ∃ there,
        Cell.Walk steps cell there ∧
          test.Holds board there := by
  induction steps generalizing cell with
  | zero => simp [Cell.walk_zero_iff]
  | succ steps ih =>
      rw [Function.iterate_succ_apply', Holds]
      refine ⟨fun hSome => ?_, fun hWalk => ?_⟩
      · rcases hSome with ⟨near, hNear, hHolds⟩
        have hBorders :=
          (Cell.mem_neighbors_iff_borders hCell).mp hNear
        rcases (ih hBorders.2.1).mp hHolds with
          ⟨there, hRest, hThere⟩
        exact ⟨there, .step hBorders hRest, hThere⟩
      · rcases hWalk with ⟨there, hWalk, hThere⟩
        rcases Cell.walk_succ_iff.mp hWalk with
          ⟨near, hBorders, hRest⟩
        refine ⟨near, ?_, ?_⟩
        · exact (Cell.mem_neighbors_iff_borders hCell).mpr
            hBorders
        · exact (ih hBorders.2.1).mpr ⟨there, hRest, hThere⟩

/-
  A cell meets a test if a walk from it, of as many steps as
  the test asks for neighbors, ends in a cell that the rest
  of the test marks.
-/
def Meets
    (board : Board)
    (test : Predicate)
    (cell : Cell) : Prop :=
  ∃ steps core there,
    test = Predicate.adjacentTo^[steps] core ∧
      core.AsksNoNeighbor ∧
      Cell.Walk steps cell there ∧
      core.Marks (board.content there) there

/- The end of a walk meets what is left of a test. -/
theorem AsksNoNeighbor.holds_iterate_iff_marks
    {core : Predicate}
    (hCore : core.AsksNoNeighbor)
    (board : Board)
    (steps : Nat)
    {cell : Cell}
    (hCell : cell < 9) :
    (Predicate.adjacentTo^[steps] core).Holds board cell ↔
      ∃ there,
        Cell.Walk steps cell there ∧
          core.Marks (board.content there) there := by
  rw [holds_iterate_iff board core steps hCell]
  simp only [hCore.holds_iff]

/- To meet a test and to hold it are the same. -/
theorem meets_iff_holds
    (board : Board)
    (test : Predicate)
    {cell : Cell}
    (hCell : cell < 9) :
    test.Meets board cell ↔ test.Holds board cell := by
  refine ⟨fun hMeets => ?_, fun hHolds => ?_⟩
  · rcases hMeets with
      ⟨steps, core, there, hTest, hCore, hWalk, hMarks⟩
    rw [hTest,
      hCore.holds_iterate_iff_marks board steps hCell]
    exact ⟨there, hWalk, hMarks⟩
  · rcases test.exists_iterate_eq with
      ⟨steps, core, hCore, hTest⟩
    rw [hTest,
      hCore.holds_iterate_iff_marks board steps hCell]
      at hHolds
    rcases hHolds with ⟨there, hWalk, hMarks⟩
    exact ⟨steps, core, there, hTest, hCore, hWalk, hMarks⟩

end Predicate

end HiddenRule

------------------------------------------------------------
-- Rules
------------------------------------------------------------

namespace HiddenRule

namespace Rule

/-
  What a rule says of a board: every, some or no cell that
  meets the noun meets the predicate; every group passes the
  test; or all cells of the row or column of some number
  meet the noun.
-/
def Says
    (board : Board) : Rule → Prop
| .universal noun predicate =>
    ∀ cell < 9,
      noun.Meets board cell → predicate.Meets board cell
| .existential noun predicate =>
    ∃ cell < 9,
      noun.Meets board cell ∧ predicate.Meets board cell
| .negativeUniversal noun predicate =>
    ¬ ∃ cell < 9,
      noun.Meets board cell ∧ predicate.Meets board cell
| .grouped group predicate =>
    ∀ members, group.IsGroup board members →
      predicate.Holds board members
| .line axis noun =>
    ∃ line < 3, ∀ cell < 9,
      axis.lineOf cell = line → noun.Meets board cell

/- A line is given by its number or by a cell on it. -/
private theorem exists_line_iff
    (axis : Axis)
    (passes : Cell → Prop) :
    (∃ line < 3, ∀ cell < 9,
        axis.lineOf cell = line → passes cell) ↔
      ∃ here < 9, ∀ there < 9,
        axis.lineOf here = axis.lineOf there →
          passes there := by
  have hNumber : ∀ cell < 9, axis.lineOf cell < 3 := by
    cases axis <;> decide
  have hCell :
      ∀ line < 3, ∃ cell < 9, axis.lineOf cell = line := by
    cases axis <;> decide
  refine ⟨fun hLine => ?_, fun hLine => ?_⟩
  · rcases hLine with ⟨line, hLine, hAll⟩
    rcases hCell line hLine with ⟨here, hHere, hOn⟩
    refine ⟨here, hHere, ?_⟩
    intro there hThere hSame
    exact hAll there hThere (hSame.symm.trans hOn)
  · rcases hLine with ⟨here, hHere, hAll⟩
    refine ⟨axis.lineOf here, hNumber here hHere, ?_⟩
    intro there hThere hOn
    exact hAll there hThere hOn.symm

theorem says_iff_holds
    (rule : Rule)
    (board : Board) :
    rule.Says board ↔ rule.Holds board := by
  have hBoth :
      ∀ noun predicate : Predicate,
        (∃ cell < 9,
            noun.Meets board cell ∧
              predicate.Meets board cell) ↔
          ∃ cell < 9,
            noun.Holds board cell ∧
              predicate.Holds board cell := by
    intro noun predicate
    refine exists_congr fun cell => and_congr_right ?_
    intro hCell
    rw [noun.meets_iff_holds board hCell,
      predicate.meets_iff_holds board hCell]
  cases rule with
  | universal noun predicate =>
      refine forall₂_congr fun cell hCell => ?_
      rw [noun.meets_iff_holds board hCell,
        predicate.meets_iff_holds board hCell]
  | existential noun predicate => exact hBoth noun predicate
  | negativeUniversal noun predicate =>
      exact not_congr (hBoth noun predicate)
  | grouped group predicate => exact Iff.rfl
  | line axis noun =>
      rw [Says, exists_line_iff, Holds]
      refine exists_congr fun here => and_congr_right ?_
      intro _
      refine forall₂_congr fun there hThere => ?_
      rw [noun.meets_iff_holds board hThere]

/-
  On every board a rule has an answer, which is whether the
  board is as the rule says.  A test that asks so many times
  for a neighbor has an answer in every cell, which is
  whether a walk of so many steps leads to a cell that the
  rest of the test marks.
-/
theorem evaluate_decides_meaning
    (board : Board) :
    (∀ rule : Rule,
      Decides (rule.evaluate board) (rule.Says board)) ∧
    ∀ (core : Predicate) (steps : Nat) (cell : Cell),
      core.AsksNoNeighbor →
        cell < 9 →
          Decides
            ((Predicate.adjacentTo^[steps] core).holdsAt
              board cell)
            (∃ there,
              Cell.Walk steps cell there ∧
                core.Marks (board.content there) there) := by
  refine ⟨fun rule => ?_, ?_⟩
  · exact (rule.evaluate_decides board).congr
      (rule.says_iff_holds board).symm
  · intro core steps cell hCore hCell
    apply (Predicate.holdsAt_decides board _ hCell).congr
    exact hCore.holds_iterate_iff_marks board steps hCell

/-
  On a board with one red circle in the middle, two steps
  lead from the corner to a red symbol.
-/
theorem two_steps_to_the_middle :
    let board : Board :=
      .ofList [.empty, .empty, .empty, .empty,
        .filled .red .circle]
    let core : Predicate := .colorNoun .red
    core.AsksNoNeighbor ∧ 0 < 9 ∧
      (Predicate.adjacentTo^[2] core).holdsAt board 0 =
        .ok true ∧
      ∃ there,
        Cell.Walk 2 0 there ∧
          core.Marks (board.content there) there := by
  intro board core
  have hCore : core.AsksNoNeighbor := fun _ h => nomatch h
  have hCell : (0 : Cell) < 9 := by decide
  rcases (evaluate_decides_meaning board).2 core 2 0 hCore
      hCell with
    ⟨answer, hAnswer, hIff⟩
  have hTrue :
      (Predicate.adjacentTo^[2] core).holdsAt board 0 =
        .ok true := by
    decide +kernel
  rw [hTrue] at hAnswer
  exact ⟨hCore, hCell, hTrue,
    hIff.mp (Except.ok.inj hAnswer).symm⟩

end Rule

end HiddenRule
