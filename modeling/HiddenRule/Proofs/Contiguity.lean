import Mathlib.Data.List.Chain
import HiddenRule.Proofs.Walks

/-
  This file proves that the test of a group for contiguity
  decides whether paths through the group join its cells.

  A path is a list of cells, each bordering the one before
  it.  Being joined by neighbors inside a group is to have
  such a path.  Only the cells that are in a group count, so
  neither their order nor repetitions matter.

  Main declarations:
    * `Cell.IsPath`
    * `Cell.joined_iff_exists_path`
    * `Cell.contiguous_iff_paths`
    * `GroupPredicate.contiguous_decides_paths`
-/

------------------------------------------------------------
-- Paths
------------------------------------------------------------

namespace HiddenRule

namespace Cell

/-
  A path from one cell to another by steps between cells that
  share a side, all of its cells in a group.
-/
structure IsPath
    (group : Cell → Prop)
    (here there : Cell)
    (path : List Cell) : Prop where
  head_eq : path.head? = some here
  last_eq : path.getLast? = some there
  steps : path.IsChain Borders
  inside : ∀ cell ∈ path, group cell

variable {group : Cell → Prop}
variable {here there : Cell}

/- On the board a step in a group is one to a border. -/
theorem step_iff_borders
    (hGroup : ∀ cell, group cell → cell < 9) :
    Step group here there ↔
      here.Borders there ∧ group here ∧ group there := by
  refine and_congr_left fun hBoth => ?_
  exact mem_neighbors_iff_borders (hGroup _ hBoth.1)

/- Cells of a group are joined exactly if a path leads on. -/
theorem joined_iff_exists_path
    (hGroup : ∀ cell, group cell → cell < 9)
    (hHere : group here) :
    Joined group here there ↔
      ∃ path, IsPath group here there path := by
  constructor
  · intro hJoined
    rcases List.exists_isChain_cons_of_relationReflTransGen
        hJoined with
      ⟨rest, hChain, hLast⟩
    refine ⟨here :: rest, rfl, ?_, ?_, ?_⟩
    · rw [← hLast]
      exact List.getLast?_eq_getLast_of_ne_nil
        (List.cons_ne_nil _ _)
    · exact hChain.imp fun _ _ hStep =>
        ((step_iff_borders hGroup).mp hStep).1
    · -- Every step ends in the group, and so does the start.
      exact hChain.induction group _
        (fun _ _ hStep _ => hStep.2.2) fun _ => hHere
  · intro ⟨path, hHead, hLast, hSteps, hInside⟩
    rcases List.head?_eq_some_iff.mp hHead with ⟨rest, rfl⟩
    apply List.relationReflTransGen_of_exists_isChain_cons rest
    · refine hSteps.imp_of_mem_imp ?_
      intro one next hOne hNext hBorders
      exact (step_iff_borders hGroup).mpr
        ⟨hBorders, hInside one hOne, hInside next hNext⟩
    · rw [List.getLast?_eq_getLast_of_ne_nil
        (List.cons_ne_nil _ _)] at hLast
      exact Option.some.inj hLast

/- So a group hangs together by paths. -/
theorem contiguous_iff_paths
    {cells : List Cell}
    (hCells : OnBoard cells) :
    Contiguous (· ∈ cells) ↔
      ∀ here ∈ cells, ∀ there ∈ cells,
        ∃ path, IsPath (· ∈ cells) here there path := by
  refine forall_congr' fun here => ?_
  constructor
  · intro hJoined hHere there hThere
    exact (joined_iff_exists_path hCells hHere).mp
      (hJoined there hHere hThere)
  · intro hPaths there hHere hThere
    exact (joined_iff_exists_path hCells hHere).mpr
      (hPaths hHere there hThere)

end Cell

end HiddenRule

------------------------------------------------------------
-- Contiguous Groups
------------------------------------------------------------

namespace HiddenRule

namespace GroupPredicate

open Cell

/- Only the cells in a group count for its contiguity. -/
theorem connected_eq_of_mem_iff
    {cells others : List Cell}
    (hCells : OnBoard cells)
    (hSame : ∀ cell, cell ∈ others ↔ cell ∈ cells) :
    connected others = connected cells := by
  have hOthers : OnBoard others :=
    fun cell hCell => hCells cell ((hSame cell).mp hCell)
  have hGroup : (· ∈ others) = (· ∈ cells) :=
    funext fun cell => propext (hSame cell)
  apply (connected_decides hOthers).unique
    (connected_decides hCells)
  rw [hGroup]

/-
  The flood that tests a group for contiguity never leaves
  the board.  After nine steps nothing waits, and the answer
  is whether nothing stayed unvisited, which is whether any
  two cells of the group are joined by a path inside it.  The
  answer is the same for every list of the same cells and on
  every board.
-/
theorem contiguous_decides_paths
    (board : Board)
    {cells : List Cell}
    (hSome : cells ≠ [])
    (hCells : OnBoard cells) :
    (∀ steps,
      ∃ flood,
        (Flood.start cells).after steps = .ok flood ∧
          ∀ cell ∈ flood.waiting,
            cell < 9 ∧ OnBoard (neighbors cell)) ∧
    (∃ flood answer,
      (Flood.start cells).after 9 = .ok flood ∧
        flood.waiting = [] ∧
        answer = flood.unvisited.isEmpty ∧
        holdsOn board cells .contiguous = .ok answer ∧
        (answer = true ↔
          ∀ here ∈ cells, ∀ there ∈ cells,
            ∃ path, IsPath (· ∈ cells) here there path)) ∧
    ∀ (others : List Cell) (other : Board),
      (∀ cell, cell ∈ others ↔ cell ∈ cells) →
        holdsOn other others .contiguous =
          holdsOn board cells .contiguous := by
  rcases List.exists_cons_of_ne_nil hSome with
    ⟨first, rest, rfl⟩
  refine ⟨fun steps => ?_, ?_, ?_⟩
  · rcases spreading_after_start hCells steps with
      ⟨flood, hFlood, hSpreading, _⟩
    refine ⟨flood, hFlood, fun cell hWaits => ?_⟩
    have hCell :=
      hCells cell (hSpreading.waiting_mem cell hWaits).1
    exact ⟨hCell, onBoard_neighbors hCell⟩
  · rcases spreading_after_start hCells 9 with
      ⟨flood, hFlood, _, hDone⟩
    rcases connected_decides hCells with
      ⟨answer, hAnswer, hIff⟩
    have hTest := connected_eq_flood hCells
    rw [hAnswer] at hTest
    refine ⟨flood, answer, hFlood, hDone (Nat.le_refl _), ?_,
      hAnswer, hIff.trans (contiguous_iff_paths hCells)⟩
    have hNine :
        (Flood.start (first :: rest)).after count =
          .ok flood :=
      hFlood
    rw [hNine] at hTest
    exact Except.ok.inj hTest
  · intro others _ hSame
    exact connected_eq_of_mem_iff hCells hSame

/-
  A square of four cells is contiguous in any order, and each
  two of its cells are joined.  Two cells with numbers next
  to each other need not be, at the end of one row and the
  beginning of the next.
-/
theorem square_contiguous :
    let board : Board := .empty
    let square : List Cell := [8, 4, 5, 7, 4]
    let ends : List Cell := [2, 3]
    square ≠ [] ∧ OnBoard square ∧
      (∀ cell, cell ∈ [4, 5, 7, 8] ↔ cell ∈ square) ∧
      holdsOn board square .contiguous = .ok true ∧
      holdsOn board [4, 5, 7, 8] .contiguous = .ok true ∧
      (∃ path, IsPath (· ∈ square) 8 4 path) ∧
      ends ≠ [] ∧ OnBoard ends ∧
      holdsOn board ends .contiguous = .ok false ∧
      ¬ ∀ here ∈ ends, ∀ there ∈ ends,
        ∃ path, IsPath (· ∈ ends) here there path := by
  intro board square ends
  have hSquare : square ≠ [] := List.cons_ne_nil _ _
  have hEnds : ends ≠ [] := List.cons_ne_nil _ _
  have hSquareCells : OnBoard square := by decide
  have hEndsCells : OnBoard ends := by decide
  have hSame : ∀ cell, cell ∈ [4, 5, 7, 8] ↔ cell ∈ square := by
    intro cell
    simp only [square, List.mem_cons, List.not_mem_nil]
    grind
  have hTrue :
      holdsOn board square .contiguous = .ok true := by
    decide
  have hFalse :
      holdsOn board ends .contiguous = .ok false := by
    decide
  rcases contiguous_decides_paths board hSquare
      hSquareCells with
    ⟨_, ⟨_, answer, _, _, _, hAnswer, hPaths⟩, hOrder⟩
  rcases contiguous_decides_paths board hEnds hEndsCells with
    ⟨_, ⟨_, apart, _, _, _, hApart, hNoPaths⟩, _⟩
  rw [hTrue] at hAnswer
  rw [hFalse] at hApart
  have hJoined :=
    hPaths.mp (Except.ok.inj hAnswer).symm 8 (by decide) 4
      (by decide)
  refine ⟨hSquare, hSquareCells, hSame, hTrue, ?_, hJoined,
    hEnds, hEndsCells, hFalse, ?_⟩
  · rw [hOrder [4, 5, 7, 8] board hSame, hTrue]
  · rw [← hNoPaths, ← Except.ok.inj hApart]
    exact Bool.false_ne_true

end GroupPredicate

end HiddenRule
