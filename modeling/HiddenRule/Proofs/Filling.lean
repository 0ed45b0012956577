import HiddenRule.Examples.Sampler
import HiddenRule.Proofs.Draw
import HiddenRule.Proofs.Evaluation

/-
  This file proves that a random board holds exactly as many
  symbols as were drawn for it.

  Nothing on the way through the cells counts the symbols.
  The number is kept by the chances alone: they are certain
  when as many symbols remain as cells are left, and nil when
  no symbol remains.  So there are never more symbols to come
  than cells, and with the last cell the last symbol is gone.

  Main declarations:
    * `SamplingSettings.validate_eq_ok_iff`
    * `Board.filledCount_set`
    * `Sweep`, `Sweep.visit` and `Sweep.visits`
    * `Sweep.finish_of_visits`
    * `Sweep.OnCourse` and `Sweep.OnCourse.visits`
    * `Sampler.randomBoard_yields`
    * `Sampler.randomBoard_fills_target`
-/

------------------------------------------------------------
-- Valid Settings
------------------------------------------------------------

namespace HiddenRule

namespace SamplingSettings

/- Settings are valid if some board can be drawn by them. -/
theorem validate_eq_ok_iff
    {settings : SamplingSettings} :
    settings.validate = .ok () ↔
      settings.maxAttempts ≠ 0 ∧
        settings.minFill ≤ settings.maxFill ∧
          settings.maxFill ≤ 9 := by
  unfold validate
  by_cases hAttempts : settings.maxAttempts = 0
  · simp [hAttempts]
  · by_cases hLarge : settings.maxFill > 9
    · have hNot : ¬ settings.maxFill ≤ 9 :=
        UInt64.not_le.mpr hLarge
      simp [hAttempts, hLarge, hNot]
    · by_cases hInverted :
          settings.minFill > settings.maxFill
      · have hNot : ¬ settings.minFill ≤ settings.maxFill :=
          UInt64.not_le.mpr hInverted
        simp [hAttempts, hLarge, hInverted, hNot]
      · simp [hAttempts, hLarge, hInverted,
          UInt64.not_lt.mp hLarge,
          UInt64.not_lt.mp hInverted]

end SamplingSettings

namespace Sampler

/- The fewest symbols are no more than the most, at most 9. -/
theorem fills_le
    (sampler : Sampler) :
    sampler.settings.minFill.toNat ≤
        sampler.settings.maxFill.toNat ∧
      sampler.settings.maxFill.toNat ≤ 9 := by
  have hValid :=
    SamplingSettings.validate_eq_ok_iff.mp sampler.valid
  exact ⟨UInt64.le_iff_toNat_le.mp hValid.2.1,
    UInt64.le_iff_toNat_le.mp hValid.2.2⟩

end Sampler

end HiddenRule

------------------------------------------------------------
-- One Cell
------------------------------------------------------------

namespace HiddenRule

namespace UnitSample

variable {sample : UnitSample}
variable {remaining left : Nat}

/- Nothing is below a chance of zero. -/
theorem remaining_pos
    (hBelow : sample.isBelow remaining left = true) :
    0 < remaining := by
  apply Nat.pos_of_ne_zero
  intro hZero
  simp [isBelow, hZero] at hBelow

/- Everything is below a chance of one. -/
theorem remaining_lt
    (hPos : 0 < left)
    (hNotBelow : sample.isBelow remaining left = false) :
    remaining < left := by
  apply Nat.lt_of_not_le
  intro hLe
  have hNe : remaining ≠ 0 := by omega
  simp [isBelow, hNe, hLe] at hNotBelow

end UnitSample

namespace Board

/- A cell of the board can be filled, and then it is. -/
theorem set_yields
    (board : Board)
    {cell : Cell}
    (hCell : cell < 9)
    (symbol : Symbol) :
    Yields (board.set cell symbol) fun changed =>
      board.set cell symbol = .ok changed := by
  unfold set
  rw [dif_pos hCell]
  exact yields_ok rfl

/- A symbol in an empty cell is one more on the board. -/
theorem filledCount_set
    {board changed : Board}
    {cell : Cell}
    {symbol : Symbol}
    (hSet : board.set cell symbol = .ok changed)
    (hBlank : board.get cell = .ok .empty)
    (hSymbol : symbol.isEmpty = false) :
    changed.filledCount = board.filledCount + 1 := by
  by_cases hCell : cell < 9
  · rw [set, dif_pos hCell] at hSet
    rw [get_of_lt board hCell] at hBlank
    have hHere : board.cells[cell] = .empty :=
      Except.ok.inj hBlank
    have hEmpty : Symbol.empty.isEmpty = true := rfl
    rw [← Except.ok.inj hSet]
    simp [filledCount, toList, Vector.countP_set, hHere,
      hSymbol, hEmpty]
  · rw [get_of_le board (Nat.le_of_not_lt hCell)] at hBlank
    cases hBlank

end Board

/- Something is drawn from a range that is not empty. -/
theorem Stream.range_yields
    {low high : Nat}
    (hLt : low < high)
    (stream : Stream) :
    Yields (stream.range low high) fun drawn =>
      low ≤ drawn.1 ∧ drawn.1 < high := by
  rcases range_of_lt hLt stream with
    ⟨n, next, hRange, hWithin⟩
  rw [hRange]
  exact yields_ok hWithin

/- A random symbol can be drawn, and it is one. -/
theorem Sampler.randomSymbol_yields
    (stream : Stream) :
    Yields (randomSymbol stream) fun drawn =>
      drawn.1.isEmpty = false := by
  have hColors : 0 < Color.all.length := by decide
  have hShapes : 0 < Shape.all.length := by decide
  unfold randomSymbol
  apply (stream.range_yields hColors).bind
  rintro ⟨color, next⟩ ⟨_, hColor⟩
  dsimp only at hColor ⊢
  rw [Checked.lookup_of_lt hColor, ok_bind]
  apply (next.range_yields hShapes).bind
  rintro ⟨shape, later⟩ ⟨_, hShape⟩
  dsimp only at hShape ⊢
  rw [Checked.lookup_of_lt hShape, ok_bind]
  exact yields_ok rfl

end HiddenRule

------------------------------------------------------------
-- Sweeps
------------------------------------------------------------

namespace HiddenRule

/-
  A sweep on its way through the cells of a board: the cells
  still to visit, how many symbols remain, what lies on the
  board so far, and the stream.
-/
structure Sweep where
  cells : List Cell
  remaining : Nat
  board : Board
  stream : Stream

namespace Sweep

/- The sweep over an empty board before its first visit. -/
def start
    (target : Nat)
    (stream : Stream) : Sweep where
  cells := Cell.all
  remaining := target
  board := .empty
  stream := stream

/- Whether the next cell gets a symbol. -/
def fills
    (sweep : Sweep) : Bool :=
  sweep.stream.unit.1.isBelow sweep.remaining
    sweep.cells.length

/- Visit the next cell, if there is one. -/
def visit
    (sweep : Sweep) : Except Fault Sweep :=
  let stream := sweep.stream.unit.2
  match sweep.cells with
  | [] => .ok sweep
  | cell :: rest =>
      if sweep.fills then do
        let (symbol, stream) ← Sampler.randomSymbol stream
        let board ← sweep.board.set cell symbol
        let remaining ← Checked.sub sweep.remaining 1
        return { cells := rest, remaining, board, stream }
      else
        .ok { sweep with cells := rest, stream := stream }

/- Visit so many cells. -/
def visits :
    Nat → Sweep → Except Fault Sweep
| 0, sweep => .ok sweep
| count + 1, sweep => do
    let next ← sweep.visit
    next.visits count

/- Fill the cells that are still to visit. -/
def finish
    (sweep : Sweep) : Except Fault (Board × Stream) :=
  Sampler.fillCells sweep.cells sweep.remaining sweep.board
    sweep.stream

/- A visit is the first step of filling the cells. -/
theorem finish_of_visit
    {sweep next : Sweep}
    (hVisit : sweep.visit = .ok next) :
    next.finish = sweep.finish := by
  rcases sweep with ⟨cells, remaining, board, stream⟩
  cases cells with
  | nil =>
      cases hVisit
      rfl
  | cons cell rest =>
      rw [visit, fills] at hVisit
      rw [finish, finish, Sampler.fillCells]
      dsimp only [List.length_cons] at hVisit ⊢
      split at hVisit
      · rename_i hFills
        rcases bind_eq_ok_iff.mp hVisit with
          ⟨drawn, hDrawn, hVisit⟩
        rcases bind_eq_ok_iff.mp hVisit with
          ⟨changed, hChanged, hVisit⟩
        rcases bind_eq_ok_iff.mp hVisit with
          ⟨less, hLess, hVisit⟩
        cases hVisit
        rw [if_pos hFills, hDrawn, ok_bind, hChanged, ok_bind,
          hLess, ok_bind]
      · rename_i hFills
        cases hVisit
        rw [if_neg hFills]

/- Visits are the first steps of filling the cells. -/
theorem finish_of_visits
    {visited : Nat}
    {sweep last : Sweep}
    (hVisits : sweep.visits visited = .ok last) :
    last.finish = sweep.finish := by
  induction visited generalizing sweep with
  | zero =>
      cases hVisits
      rfl
  | succ visited ih =>
      rcases bind_eq_ok_iff.mp hVisits with
        ⟨next, hVisit, hLater⟩
      rw [ih hLater, finish_of_visit hVisit]

end Sweep

end HiddenRule

------------------------------------------------------------
-- Sweeps On Course
------------------------------------------------------------

namespace HiddenRule

namespace Sweep

/-
  A sweep is on course for a number of symbols if the cells
  still to visit are different empty cells of the board, no
  fewer than the symbols that remain, and those on the board
  and those that remain make up the number.
-/
structure OnCourse
    (target : Nat)
    (sweep : Sweep) : Prop where
  onBoard : Cell.OnBoard sweep.cells
  nodup : sweep.cells.Nodup
  blank :
    ∀ cell ∈ sweep.cells,
      sweep.board.get cell = .ok .empty
  remaining_le : sweep.remaining ≤ sweep.cells.length
  filled_add_remaining :
    sweep.board.filledCount + sweep.remaining = target

/- At first the whole board is empty. -/
theorem onCourse_start
    {target : Nat}
    (hTarget : target ≤ 9)
    (stream : Stream) :
    OnCourse target (start target stream) where
  onBoard := Cell.onBoard_all
  nodup := Cell.nodup_all
  blank := by
    have hBlank :
        ∀ cell ∈ Cell.all,
          Board.empty.get cell = .ok .empty := by
      decide
    exact hBlank
  remaining_le := hTarget
  filled_add_remaining := by
    have hNone : Board.empty.filledCount = 0 := by decide
    rw [start, hNone, Nat.zero_add]

variable {target : Nat}
variable {sweep : Sweep}
variable {cell : Cell}
variable {rest : List Cell}

/- A symbol remains for a cell that gets one. -/
theorem remaining_pos_of_fills
    (hFills : sweep.fills = true) :
    0 < sweep.remaining :=
  UnitSample.remaining_pos hFills

/-
  A cell is passed over only if more cells are left than
  symbols, so the others are enough for these.
-/
theorem OnCourse.pass
    (hCourse : OnCourse target sweep)
    (hCells : sweep.cells = cell :: rest)
    (hPasses : sweep.fills = false)
    (next : Stream) :
    OnCourse target
      { sweep with cells := rest, stream := next } := by
  have hFewer : sweep.remaining < sweep.cells.length := by
    apply UnitSample.remaining_lt _ hPasses
    rw [hCells]
    exact Nat.zero_lt_succ _
  rcases hCourse with
    ⟨hOnBoard, hNodup, hBlank, _, hTarget⟩
  rw [hCells, List.length_cons] at hFewer
  rw [hCells, Cell.OnBoard, List.forall_mem_cons] at hOnBoard
  rw [hCells, List.nodup_cons] at hNodup
  rw [hCells, List.forall_mem_cons] at hBlank
  exact
    { onBoard := hOnBoard.2
      nodup := hNodup.2
      blank := hBlank.2
      remaining_le := Nat.le_of_lt_succ hFewer
      filled_add_remaining := hTarget }

/-
  A cell gets a symbol only if one remains, which is then one
  fewer, as are the cells.
-/
theorem OnCourse.fill
    (hCourse : OnCourse target sweep)
    (hCells : sweep.cells = cell :: rest)
    (hFills : sweep.fills = true)
    {symbol : Symbol}
    {changed : Board}
    (hSymbol : symbol.isEmpty = false)
    (hSet : sweep.board.set cell symbol = .ok changed)
    (next : Stream) :
    OnCourse target
      { cells := rest
        remaining := sweep.remaining - 1
        board := changed
        stream := next } := by
  have hPos := remaining_pos_of_fills hFills
  rcases hCourse with
    ⟨hOnBoard, hNodup, hBlank, hLe, hTarget⟩
  rw [hCells, List.length_cons] at hLe
  rw [hCells, Cell.OnBoard, List.forall_mem_cons] at hOnBoard
  rw [hCells, List.nodup_cons] at hNodup
  rw [hCells, List.forall_mem_cons] at hBlank
  have hCount := Board.filledCount_set hSet hBlank.1 hSymbol
  refine
    { onBoard := hOnBoard.2
      nodup := hNodup.2
      blank := ?_
      remaining_le := ?_
      filled_add_remaining := ?_ }
  · intro other hOther
    have hNe : cell ≠ other :=
      fun hSame => hNodup.1 (hSame ▸ hOther)
    rw [Board.get_set_of_ne hSet hNe]
    exact hBlank.2 other hOther
  · dsimp only
    omega
  · dsimp only
    omega

/- A visit keeps a sweep on course. -/
theorem OnCourse.visit
    (hCourse : OnCourse target sweep)
    (hCells : sweep.cells = cell :: rest) :
    Yields sweep.visit fun next =>
      OnCourse target next ∧ next.cells = rest := by
  have hCell : cell < 9 := by
    apply hCourse.onBoard cell
    rw [hCells]
    exact List.mem_cons_self
  unfold Sweep.visit
  rw [hCells]
  dsimp only
  split
  · rename_i hFills
    have hPos := remaining_pos_of_fills hFills
    apply (Sampler.randomSymbol_yields _).bind
    intro drawn hSymbol
    apply (sweep.board.set_yields hCell drawn.1).bind
    intro changed hSet
    rw [Checked.sub_of_le hPos, ok_bind]
    exact yields_ok
      ⟨hCourse.fill hCells hFills hSymbol hSet _, rfl⟩
  · rename_i hFills
    exact yields_ok
      ⟨hCourse.pass hCells (Bool.not_eq_true _ ▸ hFills) _,
        rfl⟩

/- So it stays on course for as many visits as cells. -/
theorem OnCourse.visits
    (hCourse : OnCourse target sweep)
    {visited : Nat}
    (hVisited : visited ≤ sweep.cells.length) :
    Yields (sweep.visits visited) fun last =>
      OnCourse target last ∧
        last.cells = sweep.cells.drop visited := by
  induction visited generalizing sweep with
  | zero => exact yields_ok ⟨hCourse, rfl⟩
  | succ visited ih =>
      cases hCells : sweep.cells with
      | nil =>
          rw [hCells] at hVisited
          exact absurd hVisited (Nat.not_succ_le_zero _)
      | cons cell rest =>
          rw [hCells] at hVisited
          rw [Sweep.visits, List.drop_succ_cons]
          apply (hCourse.visit hCells).bind
          rintro next ⟨hNext, rfl⟩
          exact ih hNext (Nat.le_of_succ_le_succ hVisited)

/-
  When no cell is left, no symbol remains, so the board holds
  all of them.
-/
theorem OnCourse.finish_yields
    (hCourse : OnCourse target sweep) :
    Yields sweep.finish fun drawn =>
      drawn.1.filledCount = target := by
  rcases hCourse.visits (Nat.le_refl _) with
    ⟨last, hLast, hEnd, hCells⟩
  rw [List.drop_length] at hCells
  have hNone : last.remaining = 0 := by
    have hLe := hEnd.remaining_le
    rw [hCells] at hLe
    exact Nat.le_zero.mp hLe
  have hCount := hEnd.filled_add_remaining
  rw [hNone, Nat.add_zero] at hCount
  rw [← finish_of_visits hLast, finish, hCells]
  exact yields_ok hCount

end Sweep

end HiddenRule

------------------------------------------------------------
-- Random Boards
------------------------------------------------------------

namespace HiddenRule

namespace Sampler

variable (sampler : Sampler)
variable (stream : Stream)

/-
  A random board is what a sweep over the empty board leaves,
  on course for a number drawn within the settings.
-/
theorem exists_sweep :
    ∃ target next,
      stream.range sampler.settings.minFill.toNat
          (sampler.settings.maxFill.toNat + 1) =
        .ok (target, next) ∧
      sampler.settings.minFill.toNat ≤ target ∧
      target ≤ sampler.settings.maxFill.toNat ∧
      (Sweep.start target next).OnCourse target ∧
      sampler.randomBoard stream =
        (Sweep.start target next).finish := by
  have hFills := sampler.fills_le
  have hTop :
      sampler.settings.maxFill.toNat + 1 < twoPow 64 := by
    have hLimit : 10 < twoPow 64 := by decide
    omega
  have hRange :
      sampler.settings.minFill.toNat <
        sampler.settings.maxFill.toNat + 1 :=
    Nat.lt_succ_of_le hFills.1
  rcases Stream.range_of_lt hRange stream with
    ⟨target, next, hDrawn, hLow, hHigh⟩
  have hMost := Nat.le_of_lt_succ hHigh
  refine ⟨target, next, hDrawn, hLow, hMost,
    Sweep.onCourse_start (Nat.le_trans hMost hFills.2) next,
    ?_⟩
  rw [randomBoard, Checked.add_of_lt hTop, ok_bind, hDrawn,
    ok_bind]
  rfl

/- A board can be drawn, with as many symbols as allowed. -/
theorem randomBoard_yields :
    Yields (sampler.randomBoard stream) fun drawn =>
      sampler.settings.minFill.toNat ≤ drawn.1.filledCount ∧
        drawn.1.filledCount ≤
          sampler.settings.maxFill.toNat := by
  rcases sampler.exists_sweep stream with
    ⟨target, next, _, hLow, hHigh, hCourse, hBoard⟩
  rw [hBoard]
  apply hCourse.finish_yields.mono
  intro drawn hCount
  rw [hCount]
  exact ⟨hLow, hHigh⟩

/-
  How many symbols a random board gets is drawn from a range
  that is not empty.  On the way through the cells there are
  never more symbols to come than cells left, and a symbol
  remains whenever one is taken off their number.  In the end
  the board holds exactly the number drawn, which is within
  the settings.
-/
theorem randomBoard_fills_target :
    sampler.settings.minFill.toNat <
        sampler.settings.maxFill.toNat + 1 ∧
      ∃ target next,
        stream.range sampler.settings.minFill.toNat
            (sampler.settings.maxFill.toNat + 1) =
          .ok (target, next) ∧
        (∀ visited ≤ 9,
          ∃ sweep,
            (Sweep.start target next).visits visited =
                .ok sweep ∧
            sampler.randomBoard stream =
                fillCells sweep.cells sweep.remaining
                  sweep.board sweep.stream ∧
            sweep.cells = Cell.all.drop visited ∧
            sweep.remaining ≤ 9 - visited ∧
            (sweep.fills = true → 0 < sweep.remaining)) ∧
        ∃ board last,
          sampler.randomBoard stream = .ok (board, last) ∧
          board.filledCount = target ∧
          sampler.settings.minFill.toNat ≤ target ∧
          target ≤ sampler.settings.maxFill.toNat ∧
          sampler.settings.maxFill.toNat ≤ 9 := by
  have hFills := sampler.fills_le
  rcases sampler.exists_sweep stream with
    ⟨target, next, hDrawn, hLow, hHigh, hCourse, hBoard⟩
  refine ⟨Nat.lt_succ_of_le hFills.1, target, next, hDrawn,
    ?_, ?_⟩
  · intro visited hVisited
    rcases hCourse.visits hVisited with
      ⟨sweep, hSweep, hOn, hCells⟩
    have hLe := hOn.remaining_le
    rw [hCells, List.length_drop] at hLe
    refine ⟨sweep, hSweep, ?_, hCells, hLe,
      Sweep.remaining_pos_of_fills⟩
    rw [hBoard, ← Sweep.finish_of_visits hSweep]
    rfl
  · rcases hCourse.finish_yields with
      ⟨⟨board, last⟩, hFinish, hCount⟩
    rw [hBoard]
    exact ⟨board, last, hFinish, hCount, hLow, hHigh,
      hFills.2⟩

/-
  Six symbols are drawn for this board.  After four cells
  five of them remain for the last five cells, so the next
  cell gets one.
-/
theorem random_board_of_six :
    let sampler : Sampler := { settings := {}, valid := rfl }
    let stream : Stream := .ofSeed 0
    4 ≤ 9 ∧
      ∃ next sweep board last,
        stream.range 3 10 = .ok (6, next) ∧
          (Sweep.start 6 next).visits 4 = .ok sweep ∧
          sweep.cells = [4, 5, 6, 7, 8] ∧
          sweep.remaining = 5 ∧
          sweep.fills = true ∧ 0 < sweep.remaining ∧
          sampler.randomBoard stream = .ok (board, last) ∧
          board.filledCount = 6 := by
  intro sampler stream
  have hSix : (stream.range 3 10).map Prod.fst = .ok 6 := by
    decide +kernel
  have hFourth :
      (stream.range 3 10 >>= fun drawn =>
        (Sweep.start drawn.1 drawn.2).visits 4).map
          (fun sweep => (sweep.remaining, sweep.fills)) =
        .ok (5, true) := by
    decide +kernel
  have hVisited : 4 ≤ 9 := by decide
  rcases sampler.randomBoard_fills_target stream with
    ⟨_, target, next, hDrawn, hSweeps, board, last, hBoard,
      hCount, _⟩
  rcases hSweeps 4 hVisited with
    ⟨sweep, hSweep, _, hCells, _, hPos⟩
  change stream.range 3 10 = .ok (target, next) at hDrawn
  rw [hDrawn] at hSix
  have hTarget : target = 6 := Except.ok.inj hSix
  rw [hDrawn, ok_bind, hSweep] at hFourth
  rcases Prod.mk.inj (Except.ok.inj hFourth) with
    ⟨hRemaining, hFills⟩
  subst hTarget
  exact ⟨hVisited, next, sweep, board, last, hDrawn, hSweep,
    hCells, hRemaining, hFills, hPos hFills, hBoard, hCount⟩

end Sampler

end HiddenRule
