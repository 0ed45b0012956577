import Mathlib.Data.List.Nodup
import Mathlib.Data.List.Perm.Subperm
import Mathlib.Logic.Relation
import HiddenRule.Proofs.Outcome
import HiddenRule.Rule.GroupPredicate

/-
  This file proves that spreading from the first cell of a
  group decides whether its cells hang together.

  While it spreads, a cell of the group is unvisited, or
  waits, or has been left behind.  What was visited is
  joined to the first cell, and what was left behind has no
  unvisited neighbor.  When nothing waits any more, the
  unvisited cells are those that are not joined to the
  first.  Being joined does not depend on where it begins.

  Main declarations:
    * `Cell.OnBoard`
    * `Cell.Joined` and `Cell.Contiguous`
    * `GroupPredicate.Flood`
    * `GroupPredicate.connected_eq_flood`
    * `GroupPredicate.Spreading` and `Spreading.after`
    * `GroupPredicate.connected_decides`
-/

------------------------------------------------------------
-- Cells
------------------------------------------------------------

namespace HiddenRule

namespace Cell

/- The cells that lie on the board. -/
def OnBoard
    (cells : List Cell) : Prop :=
  ∀ cell ∈ cells, cell < 9

instance
    (cells : List Cell) :
    Decidable (OnBoard cells) :=
  inferInstanceAs (Decidable (∀ cell ∈ cells, cell < 9))

/- Neighbors of a cell of the board lie on it. -/
theorem onBoard_neighbors
    {cell : Cell}
    (hCell : cell < 9) :
    OnBoard (neighbors cell) := by
  have hAll : ∀ cell < 9, OnBoard (neighbors cell) := by
    decide
  exact hAll cell hCell

theorem onBoard_all : OnBoard all := by
  decide

theorem onBoard_lines
    {axis : Axis}
    {line : List Cell}
    (hLine : line ∈ axis.lines) :
    OnBoard line := by
  have hAll : ∀ line ∈ axis.lines, OnBoard line := by
    cases axis <;> decide
  exact hAll line hLine

/- On the board neighbors are neighbors of each other. -/
theorem mem_neighbors_comm
    {here there : Cell}
    (hHere : here < 9)
    (hThere : there < 9) :
    there ∈ neighbors here ↔ here ∈ neighbors there := by
  have hAll :
      ∀ here < 9, ∀ there < 9,
        there ∈ neighbors here ↔ here ∈ neighbors there := by
    decide
  exact hAll here hHere there hThere

/- A cell of the board has each neighbor once. -/
theorem nodup_neighbors
    {cell : Cell}
    (hCell : cell < 9) :
    (neighbors cell).Nodup := by
  have hAll : ∀ cell < 9, (neighbors cell).Nodup := by
    decide
  exact hAll cell hCell

theorem mem_all_iff
    {cell : Cell} :
    cell ∈ all ↔ cell < 9 := by
  constructor
  · exact onBoard_all cell
  · intro hCell
    have hAll : ∀ cell < 9, cell ∈ all := by
      decide
    exact hAll cell hCell

theorem nodup_all : all.Nodup := by
  decide

end Cell

end HiddenRule

------------------------------------------------------------
-- Paths
------------------------------------------------------------

namespace HiddenRule

namespace Cell

/- A step between two cells of a group. -/
def Step
    (group : Cell → Prop)
    (here there : Cell) : Prop :=
  there ∈ neighbors here ∧ group here ∧ group there

/- A path of such steps. -/
def Joined
    (group : Cell → Prop) : Cell → Cell → Prop :=
  Relation.ReflTransGen (Step group)

/- Any two cells of a group are joined. -/
def Contiguous
    (group : Cell → Prop) : Prop :=
  ∀ here there,
    group here → group there → Joined group here there

/- A path can be walked backwards. -/
theorem Joined.symm
    {group : Cell → Prop}
    (hGroup : ∀ cell, group cell → cell < 9)
    {here there : Cell}
    (hJoined : Joined group here there) :
    Joined group there here := by
  induction hJoined with
  | refl => exact .refl
  | tail _ hStep ih =>
      rcases hStep with ⟨hNeighbor, hFrom, hTo⟩
      have hBack :=
        (mem_neighbors_comm (hGroup _ hFrom)
          (hGroup _ hTo)).mp hNeighbor
      exact .head ⟨hBack, hTo, hFrom⟩ ih

/- Cells hang together if all are joined to one of them. -/
theorem contiguous_iff_joined
    {group : Cell → Prop}
    (hGroup : ∀ cell, group cell → cell < 9)
    {first : Cell}
    (hFirst : group first) :
    Contiguous group ↔
      ∀ cell, group cell → Joined group first cell := by
  constructor
  · intro hContiguous cell hCell
    exact hContiguous first cell hFirst hCell
  · intro hJoined here there hHere hThere
    exact ((hJoined here hHere).symm hGroup).trans
      (hJoined there hThere)

end Cell

end HiddenRule

------------------------------------------------------------
-- Floods
------------------------------------------------------------

namespace HiddenRule

namespace GroupPredicate

open Cell

/- Cells of the board are in range. -/
private theorem mapM_index
    {cells : List Cell}
    (hCells : OnBoard cells) :
    cells.mapM (Checked.index 9) = .ok cells := by
  have hIndex :
      ∀ cell ∈ cells, Checked.index 9 cell = .ok (id cell) :=
    fun cell hCell => Checked.index_of_lt (hCells cell hCell)
  rw [mapM_eq_map hIndex, List.map_id]

/- The cells of a group apart from its first. -/
def others
    (cells : List Cell)
    (first : Cell) : List Cell :=
  Cell.all.filter fun cell =>
    cells.contains cell && cell != first

/-
  How far a group has been spread over: the cells that wait,
  and those that were not visited yet.
-/
structure Flood where
  waiting : List Cell
  unvisited : List Cell

namespace Flood

/- At first the first cell waits, and no other is visited. -/
def start : List Cell → Flood
| [] => { waiting := [], unvisited := [] }
| first :: rest =>
    { waiting := [first]
      unvisited := others (first :: rest) first }

/- The first waiting cell spreads, if one waits. -/
def step
    (flood : Flood) : Except Fault Flood :=
  match flood.waiting with
  | [] => .ok flood
  | cell :: waiting => do
      let around ←
        (neighbors cell).mapM (Checked.index 9)
      let fresh := around.filter flood.unvisited.contains
      let left := flood.unvisited.filter fun other =>
        !fresh.contains other
      return { waiting := waiting ++ fresh, unvisited := left }

/- The flood after so many steps. -/
def after :
    Nat → Flood → Except Fault Flood
| 0, flood => .ok flood
| steps + 1, flood => do
    let next ← flood.step
    next.after steps

/- Nothing spreads when nothing waits. -/
theorem after_of_done
    (steps : Nat)
    (unvisited : List Cell) :
    after steps { waiting := [], unvisited } =
      .ok { waiting := [], unvisited } := by
  induction steps with
  | zero => rfl
  | succ steps ih => exact ih

/- Spreading is to take these steps. -/
theorem spread_eq_after
    (steps : Nat)
    (waiting unvisited : List Cell) :
    spread steps waiting unvisited =
      (after steps { waiting, unvisited }).map
        Flood.unvisited := by
  induction steps generalizing waiting unvisited with
  | zero => cases waiting <;> rfl
  | succ steps ih =>
      cases waiting with
      | nil =>
          rw [after_of_done]
          rfl
      | cons cell waiting =>
          rw [spread, after, step]
          dsimp only
          cases (neighbors cell).mapM (Checked.index 9) with
          | error _ => rfl
          | ok around =>
              simp only [ok_bind]
              exact ih _ _

end Flood

/- So nine steps tell whether a group hangs together. -/
theorem connected_eq_flood
    {cells : List Cell}
    (hCells : OnBoard cells) :
    connected cells =
      ((Flood.start cells).after count).map fun last =>
        last.unvisited.isEmpty := by
  cases cells with
  | nil => rfl
  | cons first rest =>
      rw [connected, mapM_index hCells, ok_bind, Flood.start,
        others]
      dsimp only
      rw [Flood.spread_eq_after]
      generalize Flood.after count _ = outcome
      cases outcome <;> rfl

end GroupPredicate

end HiddenRule

------------------------------------------------------------
-- Spreading
------------------------------------------------------------

namespace HiddenRule

namespace GroupPredicate

open Cell

/-
  What holds while a group is spread over from its first
  cell.
-/
structure Spreading
    (cells : List Cell)
    (first : Cell)
    (waiting unvisited : List Cell) : Prop where
  unvisited_mem : ∀ cell ∈ unvisited, cell ∈ cells
  waiting_mem :
    ∀ cell ∈ waiting, cell ∈ cells ∧ cell ∉ unvisited
  first_mem : first ∈ cells ∧ first ∉ unvisited
  joined :
    ∀ cell ∈ cells, cell ∉ unvisited →
      Joined (· ∈ cells) first cell
  left_behind :
    ∀ cell ∈ cells, cell ∉ unvisited → cell ∉ waiting →
      ∀ other ∈ neighbors cell, other ∉ unvisited

/- The unvisited neighbors of a cell. -/
private def freshAround
    (cell : Cell)
    (unvisited : List Cell) : List Cell :=
  (neighbors cell).filter unvisited.contains

/- The unvisited cells that are no neighbors of a cell. -/
private def farFrom
    (cell : Cell)
    (unvisited : List Cell) : List Cell :=
  unvisited.filter fun other =>
    !(freshAround cell unvisited).contains other

private theorem mem_freshAround
    {cell other : Cell}
    {unvisited : List Cell} :
    other ∈ freshAround cell unvisited ↔
      other ∈ neighbors cell ∧ other ∈ unvisited := by
  simp [freshAround]

private theorem mem_farFrom
    {cell other : Cell}
    {unvisited : List Cell} :
    other ∈ farFrom cell unvisited ↔
      other ∈ unvisited ∧ other ∉ neighbors cell := by
  simp only [farFrom, List.mem_filter, Bool.not_eq_true',
    List.contains_eq_mem, decide_eq_false_iff_not,
    mem_freshAround]
  constructor
  · intro ⟨hOther, hFar⟩
    exact ⟨hOther, fun hNear => hFar ⟨hNear, hOther⟩⟩
  · intro ⟨hOther, hFar⟩
    exact ⟨hOther, fun hNear => hFar hNear.1⟩

/- One waiting cell spreads over its neighbors. -/
private theorem Spreading.step
    {cells : List Cell}
    {first cell : Cell}
    {waiting unvisited : List Cell}
    (hSpreading :
      Spreading cells first (cell :: waiting) unvisited) :
    Spreading cells first
      (waiting ++ freshAround cell unvisited)
      (farFrom cell unvisited) := by
  rcases hSpreading with
    ⟨hUnvisited, hWaiting, ⟨hFirst, hStart⟩, hJoined, hLeft⟩
  rcases hWaiting cell List.mem_cons_self with
    ⟨hCell, hVisited⟩
  refine
    { unvisited_mem := ?_
      waiting_mem := ?_
      first_mem := ?_
      joined := ?_
      left_behind := ?_ }
  · intro other hOther
    exact hUnvisited other (mem_farFrom.mp hOther).1
  · intro other hOther
    rcases List.mem_append.mp hOther with hOld | hNew
    · have hWaits := List.mem_cons_of_mem cell hOld
      rcases hWaiting other hWaits with ⟨hMem, hSeen⟩
      exact ⟨hMem, fun hFar => hSeen (mem_farFrom.mp hFar).1⟩
    · rcases mem_freshAround.mp hNew with ⟨hNear, hUnseen⟩
      exact ⟨hUnvisited other hUnseen,
        fun hFar => (mem_farFrom.mp hFar).2 hNear⟩
  · exact ⟨hFirst,
      fun hFar => hStart (mem_farFrom.mp hFar).1⟩
  · intro other hOther hSeen
    by_cases hBefore : other ∈ unvisited
    · have hNear : other ∈ neighbors cell := by
        by_contra hFar
        exact hSeen (mem_farFrom.mpr ⟨hBefore, hFar⟩)
      exact (hJoined cell hCell hVisited).tail
        ⟨hNear, hCell, hOther⟩
    · exact hJoined other hOther hBefore
  · -- A neighbor that stays unvisited is apart from `cell`,
    -- so the one left behind has been so before.
    intro other hOther hSeen hGone next hNext hFar
    rw [List.mem_append, not_or] at hGone
    rcases hGone with ⟨hNotOld, hNotNew⟩
    rcases mem_farFrom.mp hFar with ⟨hUnseen, hApart⟩
    have hBefore : other ∉ unvisited := by
      intro hMem
      by_cases hNear : other ∈ neighbors cell
      · exact hNotNew (mem_freshAround.mpr ⟨hNear, hMem⟩)
      · exact hSeen (mem_farFrom.mpr ⟨hMem, hNear⟩)
    by_cases hSame : other = cell
    · rw [hSame] at hNext
      exact hApart hNext
    · refine hLeft other hOther hBefore ?_ next hNext hUnseen
      rw [List.mem_cons, not_or]
      exact ⟨hSame, hNotOld⟩

/- A cell that is no longer unvisited waits at most once. -/
private theorem length_step_le
    {cell : Cell}
    (hCell : cell < 9)
    (waiting unvisited : List Cell) :
    (waiting ++ freshAround cell unvisited).length +
        (farFrom cell unvisited).length ≤
      waiting.length + unvisited.length := by
  have hFresh :
      (freshAround cell unvisited).length ≤
        (unvisited.filter
          (freshAround cell unvisited).contains).length := by
    apply List.Subperm.length_le
    apply List.subperm_of_subset
    · exact (nodup_neighbors hCell).filter _
    · intro other hOther
      rw [List.mem_filter, List.contains_iff_mem]
      exact ⟨(mem_freshAround.mp hOther).2, hOther⟩
  have hSplit :
      unvisited.length =
        (unvisited.filter
          (freshAround cell unvisited).contains).length +
        (farFrom cell unvisited).length := by
    rw [farFrom, ← List.countP_eq_length_filter,
      ← List.countP_eq_length_filter]
    simpa only [Bool.not_eq_true, Bool.decide_eq_false]
      using unvisited.length_eq_countP_add_countP
        (freshAround cell unvisited).contains
  rw [List.length_append]
  omega

/- One step of a flood takes a waiting cell. -/
private theorem Spreading.flood_step
    {cells : List Cell}
    (hCells : OnBoard cells)
    {first cell : Cell}
    {waiting unvisited : List Cell}
    (hSpreading :
      Spreading cells first (cell :: waiting) unvisited) :
    Flood.step { waiting := cell :: waiting, unvisited } =
      .ok
        { waiting := waiting ++ freshAround cell unvisited
          unvisited := farFrom cell unvisited } := by
  have hWaits :=
    hSpreading.waiting_mem cell List.mem_cons_self
  have hNear := onBoard_neighbors (hCells cell hWaits.1)
  rw [Flood.step]
  dsimp only
  rw [mapM_index hNear, ok_bind]
  rfl

/-
  After any number of steps what holds on the way still
  holds.  No step adds to the cells that wait or are
  unvisited, and each takes one away, so with as many steps
  nothing waits any more.
-/
theorem Spreading.after
    {cells : List Cell}
    (hCells : OnBoard cells)
    {first : Cell}
    {waiting unvisited : List Cell}
    (hSpreading : Spreading cells first waiting unvisited)
    (steps : Nat) :
    Yields (Flood.after steps { waiting, unvisited })
      fun last =>
        Spreading cells first last.waiting last.unvisited ∧
          (waiting.length + unvisited.length ≤ steps →
            last.waiting = []) := by
  induction steps generalizing waiting unvisited with
  | zero =>
      refine yields_ok ⟨hSpreading, fun hNone => ?_⟩
      have hLength : waiting.length = 0 := by omega
      exact List.length_eq_zero_iff.mp hLength
  | succ steps ih =>
      cases waiting with
      | nil =>
          rw [Flood.after_of_done]
          exact yields_ok ⟨hSpreading, fun _ => rfl⟩
      | cons cell waiting =>
          have hWaits :=
            hSpreading.waiting_mem cell List.mem_cons_self
          have hLength :=
            length_step_le (hCells cell hWaits.1) waiting
              unvisited
          rw [Flood.after, hSpreading.flood_step hCells,
            ok_bind]
          apply (ih hSpreading.step).mono
          intro last ⟨hLast, hDone⟩
          refine ⟨hLast, fun hSteps => hDone ?_⟩
          rw [List.length_cons] at hSteps
          omega

------------------------------------------------------------
-- Deciding
------------------------------------------------------------

private theorem mem_others
    {cells : List Cell}
    (hCells : OnBoard cells)
    {first cell : Cell} :
    cell ∈ others cells first ↔
      cell ∈ cells ∧ cell ≠ first := by
  simp only [others, List.mem_filter, mem_all_iff,
    Bool.and_eq_true, List.contains_iff_mem, bne_iff_ne]
  constructor
  · exact fun hCell => hCell.2
  · exact fun hCell => ⟨hCells cell hCell.1, hCell⟩

/- At first only the first cell waits. -/
private theorem spreading_start
    {cells : List Cell}
    (hCells : OnBoard cells)
    {first : Cell}
    (hFirst : first ∈ cells) :
    Spreading cells first [first] (others cells first) := by
  have hStart : first ∉ others cells first :=
    fun hMem => ((mem_others hCells).mp hMem).2 rfl
  have hVisited :
      ∀ cell ∈ cells, cell ∉ others cells first →
        cell = first := by
    intro cell hCell hSeen
    by_contra hOther
    exact hSeen ((mem_others hCells).mpr ⟨hCell, hOther⟩)
  refine
    { unvisited_mem := ?_
      waiting_mem := ?_
      first_mem := ?_
      joined := ?_
      left_behind := ?_ }
  · exact fun cell hCell => ((mem_others hCells).mp hCell).1
  · intro cell hCell
    rw [List.mem_singleton.mp hCell]
    exact ⟨hFirst, hStart⟩
  · exact ⟨hFirst, hStart⟩
  · intro cell hCell hSeen
    rw [hVisited cell hCell hSeen]
    exact .refl
  · intro cell hCell hSeen hGone
    have hSame := hVisited cell hCell hSeen
    exact absurd (List.mem_singleton.mpr hSame) hGone

/- Nine steps are enough. -/
private theorem length_others_lt
    (cells : List Cell)
    {first : Cell}
    (hFirst : first < 9) :
    (others cells first).length < count := by
  have hSubset : first :: others cells first ⊆ Cell.all := by
    intro cell hCell
    rcases List.mem_cons.mp hCell with hSame | hOther
    · rw [hSame]
      exact mem_all_iff.mpr hFirst
    · exact List.mem_of_mem_filter hOther
  have hNodup : (first :: others cells first).Nodup := by
    apply List.nodup_cons.mpr
    constructor
    · simp [others]
    · exact nodup_all.filter _
  exact (List.subperm_of_subset hNodup hSubset).length_le

/- In the end no path leads to an unvisited cell. -/
private theorem Spreading.not_mem_of_joined
    {cells left : List Cell}
    {first cell : Cell}
    (hSpreading : Spreading cells first [] left)
    (hJoined : Joined (· ∈ cells) first cell) :
    cell ∉ left := by
  induction hJoined with
  | refl => exact hSpreading.first_mem.2
  | tail _ hStep ih =>
      rcases hStep with ⟨hNeighbor, hFrom, _⟩
      exact hSpreading.left_behind _ hFrom ih
        List.not_mem_nil _ hNeighbor

/- In the end the visited cells are the joined ones. -/
private theorem Spreading.isEmpty_iff
    {cells left : List Cell}
    {first : Cell}
    (hSpreading : Spreading cells first [] left) :
    left.isEmpty = true ↔
      ∀ cell ∈ cells, Joined (· ∈ cells) first cell := by
  rw [List.isEmpty_iff]
  constructor
  · intro hEmpty cell hCell
    apply hSpreading.joined cell hCell
    rw [hEmpty]
    exact List.not_mem_nil
  · intro hJoined
    rw [List.eq_nil_iff_forall_not_mem]
    intro cell hCell
    have hMem := hSpreading.unvisited_mem cell hCell
    exact hSpreading.not_mem_of_joined (hJoined cell hMem)
      hCell

/-
  A flood from the first cell of a group never leaves the
  board, and after nine steps nothing waits any more.
-/
theorem spreading_after_start
    {first : Cell}
    {rest : List Cell}
    (hCells : OnBoard (first :: rest))
    (steps : Nat) :
    Yields ((Flood.start (first :: rest)).after steps)
      fun last =>
        Spreading (first :: rest) first last.waiting
            last.unvisited ∧
          (count ≤ steps → last.waiting = []) := by
  have hFirst : first ∈ first :: rest := List.mem_cons_self
  have hLength :=
    length_others_lt (first :: rest) (hCells first hFirst)
  apply ((spreading_start hCells hFirst).after hCells
    steps).mono
  intro last ⟨hLast, hDone⟩
  refine ⟨hLast, fun hSteps => hDone ?_⟩
  rw [List.length_singleton]
  omega

/- Spreading decides whether cells hang together. -/
theorem connected_decides
    {cells : List Cell}
    (hCells : OnBoard cells) :
    Decides (connected cells) (Contiguous (· ∈ cells)) := by
  cases cells with
  | nil =>
      apply decides_ok
      simp [Contiguous]
  | cons first rest =>
      rcases spreading_after_start hCells count with
        ⟨last, hLast, hSpreading, hDone⟩
      rw [hDone (Nat.le_refl _)] at hSpreading
      rw [connected_eq_flood hCells, hLast]
      apply decides_ok
      rw [contiguous_iff_joined hCells List.mem_cons_self]
      exact hSpreading.isEmpty_iff

end GroupPredicate

end HiddenRule
