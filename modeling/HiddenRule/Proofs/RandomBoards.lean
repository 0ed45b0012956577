import HiddenRule.Proofs.Filling

/-
  This file names the boards that a sampler draws from a
  stream one after another.

  Main declarations:
    * `firstBoards`
    * `Sampler.boardAt` and `Sampler.streamAt`
    * `Sampler.randomBoard_streamAt`
-/

------------------------------------------------------------
-- One Board After Another
------------------------------------------------------------

namespace HiddenRule

/- The first of a sequence of boards. -/
def firstBoards
    (boards : Nat → Board)
    (count : Nat) : List Board :=
  (List.range count).map boards

@[simp] theorem length_firstBoards
    (boards : Nat → Board)
    (count : Nat) :
    (firstBoards boards count).length = count := by
  simp [firstBoards]

theorem firstBoards_succ
    (boards : Nat → Board)
    (count : Nat) :
    firstBoards boards (count + 1) =
      firstBoards boards count ++ [boards count] := by
  simp [firstBoards, List.range_succ]

/- The first boards begin with fewer of them. -/
theorem firstBoards_isPrefix
    (boards : Nat → Board)
    {fewer count : Nat}
    (hLe : fewer ≤ count) :
    firstBoards boards fewer <+: firstBoards boards count := by
  induction hLe with
  | refl => exact List.prefix_rfl
  | step _ ih =>
      rw [firstBoards_succ]
      exact ih.trans (List.prefix_append _ _)

namespace Sampler

variable (sampler : Sampler)

/- The board drawn from a stream, and the stream after it. -/
def draw
    (stream : Stream) : Board × Stream :=
  match sampler.randomBoard stream with
  | .ok drawn => drawn
  | .error _ => (.empty, stream)

theorem randomBoard_eq
    (stream : Stream) :
    sampler.randomBoard stream =
      .ok (sampler.draw stream) := by
  rcases sampler.randomBoard_yields stream with
    ⟨drawn, hDrawn, _⟩
  rw [draw, hDrawn]

/- The stream after so many boards. -/
def streamAt
    (stream : Stream) : Nat → Stream
| 0 => stream
| count + 1 => (sampler.draw (streamAt stream count)).2

/- The board drawn after so many boards. -/
def boardAt
    (stream : Stream)
    (count : Nat) : Board :=
  (sampler.draw (sampler.streamAt stream count)).1

/- The next board comes from the stream after the others. -/
theorem randomBoard_streamAt
    (stream : Stream)
    (count : Nat) :
    sampler.randomBoard (sampler.streamAt stream count) =
      .ok (sampler.boardAt stream count,
        sampler.streamAt stream (count + 1)) :=
  sampler.randomBoard_eq _

end Sampler

end HiddenRule
