import HiddenRule.Proofs.Search
import Mathlib.Data.List.Infix

/-
  This file proves that a search which asks for more, or may
  try longer, never changes what was found already.

  The boards of a stream do not depend on what is wanted or
  how many may be tried, and the examples are the first of
  each side among those drawn.  A search that asks for more
  ends no earlier, so it has drawn the same boards and maybe
  others behind them.  Where a search ends with enough boards
  it ends under any limit that lets it come so far.

  Main declarations:
    * `Sampler.FillsAlike`
    * `Sampler.EndsAfter.search_eq`
    * `Sampler.EndsAfter.le_of_more`
    * `Sampler.EndsAfter.of_supplied`
    * `Sampler.more_keeps_found`
-/

------------------------------------------------------------
-- The Same Boards
------------------------------------------------------------

namespace HiddenRule

namespace Sampler

/- Samplers that put as many symbols on their boards. -/
def FillsAlike
    (sampler other : Sampler) : Prop :=
  sampler.settings.minFill = other.settings.minFill ∧
    sampler.settings.maxFill = other.settings.maxFill

section

variable {sampler other : Sampler}
variable (hAlike : sampler.FillsAlike other)
variable (stream : Stream)

include hAlike

/- The boards do not depend on how many may be tried. -/
theorem FillsAlike.draw_eq :
    sampler.draw stream = other.draw stream := by
  simp only [draw, randomBoard, hAlike.1, hAlike.2]

theorem FillsAlike.streamAt_eq
    (count : Nat) :
    sampler.streamAt stream count =
      other.streamAt stream count := by
  induction count with
  | zero => rfl
  | succ count ih =>
      rw [streamAt, streamAt, ih, hAlike.draw_eq]

theorem FillsAlike.boardAt_eq :
    sampler.boardAt stream = other.boardAt stream := by
  funext count
  rw [boardAt, boardAt, hAlike.streamAt_eq, hAlike.draw_eq]

theorem FillsAlike.suppliedAfter_iff
    (rule : Rule)
    (wantedPositive wantedNegative : UInt64)
    (count : Nat) :
    sampler.SuppliedAfter rule wantedPositive wantedNegative
        stream count ↔
      other.SuppliedAfter rule wantedPositive wantedNegative
        stream count := by
  rw [SuppliedAfter, SuppliedAfter, hAlike.boardAt_eq]

theorem FillsAlike.firstExamples_eq
    (rule : Rule)
    (wantedPositive wantedNegative : UInt64)
    (count : Nat) :
    sampler.firstExamples rule wantedPositive wantedNegative
        stream count =
      other.firstExamples rule wantedPositive wantedNegative
        stream count := by
  rw [firstExamples, firstExamples, hAlike.boardAt_eq]

end

end Sampler

/- Boards that are enough for more are enough. -/
theorem Rule.Supplies.of_more
    {rule : Rule}
    {wantedPositive wantedNegative : UInt64}
    {morePositive moreNegative : UInt64}
    {boards : List Board}
    (hSupplies :
      rule.Supplies morePositive moreNegative boards)
    (hPositive : wantedPositive ≤ morePositive)
    (hNegative : wantedNegative ≤ moreNegative) :
    rule.Supplies wantedPositive wantedNegative boards :=
  ⟨Nat.le_trans (UInt64.le_iff_toNat_le.mp hPositive)
      hSupplies.1,
    Nat.le_trans (UInt64.le_iff_toNat_le.mp hNegative)
      hSupplies.2⟩

end HiddenRule

------------------------------------------------------------
-- The Ends Of Two Searches
------------------------------------------------------------

namespace HiddenRule

namespace Sampler

variable {sampler larger : Sampler}
variable {rule : Rule}
variable {wantedPositive wantedNegative : UInt64}
variable {morePositive moreNegative : UInt64}
variable {stream : Stream}
variable {last later : Nat}

/-
  A search that asks for more and may try longer ends no
  earlier.
-/
theorem EndsAfter.le_of_more
    (hEnds :
      sampler.EndsAfter rule wantedPositive wantedNegative
        stream last)
    (hLarger :
      larger.EndsAfter rule morePositive moreNegative stream
        later)
    (hAlike : sampler.FillsAlike larger)
    (hCap :
      sampler.settings.maxAttempts ≤
        larger.settings.maxAttempts)
    (hPositive : wantedPositive ≤ morePositive)
    (hNegative : wantedNegative ≤ moreNegative) :
    last ≤ later := by
  rcases hLarger.stops with hSupplied | hMost
  · apply hEnds.le_of_supplied
    rw [hAlike.suppliedAfter_iff]
    exact hSupplied.of_more hPositive hNegative
  · rw [hMost]
    exact Nat.le_trans hEnds.within
      (UInt32.le_iff_toNat_le.mp hCap)

/- A search has only one end. -/
theorem EndsAfter.search_eq
    (hEnds :
      sampler.EndsAfter rule wantedPositive wantedNegative
        stream last) :
    sampler.search rule wantedPositive wantedNegative
        stream =
      .ok (sampler.firstExamples rule wantedPositive
          wantedNegative stream last,
        sampler.streamAt stream last) := by
  rcases sampler.exists_search_end rule wantedPositive
      wantedNegative stream with
    ⟨other, hOther, hSearch⟩
  have hSame : other = last :=
    Nat.le_antisymm
      (hOther.le_of_more hEnds ⟨rfl, rfl⟩ (UInt32.le_refl _)
        (UInt64.le_refl _) (UInt64.le_refl _))
      (hEnds.le_of_more hOther ⟨rfl, rfl⟩ (UInt32.le_refl _)
        (UInt64.le_refl _) (UInt64.le_refl _))
  rw [hSearch, hSame]

/- With enough boards it ends there under other limits too. -/
theorem EndsAfter.of_supplied
    {other : Sampler}
    (hEnds :
      sampler.EndsAfter rule wantedPositive wantedNegative
        stream last)
    (hSupplied :
      sampler.SuppliedAfter rule wantedPositive
        wantedNegative stream last)
    (hAlike : sampler.FillsAlike other)
    (hWithin : last ≤ other.settings.maxAttempts.toNat) :
    other.EndsAfter rule wantedPositive wantedNegative stream
      last where
  within := hWithin
  missing earlier hEarlier hEnough :=
    hEnds.missing earlier hEarlier
      ((hAlike.suppliedAfter_iff _ _ _ _ _).mpr hEnough)
  stops :=
    Or.inl ((hAlike.suppliedAfter_iff _ _ _ _ _).mp hSupplied)

/- The first of fewer boards come first among more. -/
private theorem take_filter_isPrefix
    (boards : Nat → Board)
    (test : Board → Bool)
    {wanted more : UInt64}
    (hWanted : wanted ≤ more)
    (hLater : last ≤ later) :
    ((firstBoards boards last).filter test).take
        wanted.toNat <+:
      ((firstBoards boards later).filter test).take
        more.toNat := by
  have hDrawn :
      (firstBoards boards last).filter test <+:
        (firstBoards boards later).filter test :=
    (firstBoards_isPrefix boards hLater).filter test
  exact (hDrawn.take wanted.toNat).trans
    (List.take_prefix_take_left
      (UInt64.le_iff_toNat_le.mp hWanted))

/- What was found comes first in what is found later. -/
theorem firstExamples_isPrefix
    (sampler : Sampler)
    (rule : Rule)
    (stream : Stream)
    (hPositive : wantedPositive ≤ morePositive)
    (hNegative : wantedNegative ≤ moreNegative)
    (hLater : last ≤ later) :
    let found :=
      sampler.firstExamples rule wantedPositive
        wantedNegative stream last
    let more :=
      sampler.firstExamples rule morePositive moreNegative
        stream later
    found.positives.toList <+: more.positives.toList ∧
      found.negatives.toList <+: more.negatives.toList :=
  ⟨take_filter_isPrefix _ _ hPositive hLater,
    take_filter_isPrefix _ _ hNegative hLater⟩

end Sampler

/- Who is granted room for more is granted it for fewer. -/
theorem Checked.Grants.of_more
    {memory fewer more bytes : Nat}
    (hGrants : Grants memory more bytes)
    (hLe : fewer ≤ more) :
    Grants memory fewer bytes := by
  have hBytes : fewer * bytes ≤ more * bytes :=
    Nat.mul_le_mul_right bytes hLe
  exact ⟨Nat.lt_of_le_of_lt hBytes hGrants.1,
    Nat.le_trans hBytes hGrants.2⟩

/- Room for more boards is room for fewer. -/
theorem Examples.Fits.of_more
    {memory : Nat}
    {wantedPositive wantedNegative : UInt64}
    {morePositive moreNegative : UInt64}
    (hFits : Fits memory morePositive moreNegative)
    (hPositive : wantedPositive ≤ morePositive)
    (hNegative : wantedNegative ≤ moreNegative) :
    Fits memory wantedPositive wantedNegative :=
  ⟨hFits.1.of_more (UInt64.le_iff_toNat_le.mp hPositive),
    hFits.2.of_more (UInt64.le_iff_toNat_le.mp hNegative)⟩

end HiddenRule

------------------------------------------------------------
-- Asking For More
------------------------------------------------------------

namespace HiddenRule

namespace Sampler

/-
  In any memory with room for what is wanted, something is
  found.  What is found on either side comes first in what is
  found where more is wanted and more may be tried, in no
  fewer attempts, if there is room for that too.  If it is
  all that was wanted, any limit that allows as many attempts
  gives the same examples and leaves the same stream.
  Without room nothing is found, and the fault says which
  side was refused and why.
-/
theorem more_keeps_found
    {sampler larger : Sampler}
    (rule : Rule)
    (stream : Stream)
    (memory : Nat)
    (hAlike : sampler.FillsAlike larger)
    (hCap :
      sampler.settings.maxAttempts ≤
        larger.settings.maxAttempts)
    {wantedPositive wantedNegative : UInt64}
    {morePositive moreNegative : UInt64}
    (hPositive : wantedPositive ≤ morePositive)
    (hNegative : wantedNegative ≤ moreNegative) :
    (Examples.Fits memory wantedPositive wantedNegative →
      ∃ found rest,
        sampler.examples rule wantedPositive wantedNegative
            stream memory = .ok (found, rest) ∧
        (Examples.Fits memory morePositive moreNegative →
          ∃ more after,
            larger.examples rule morePositive moreNegative
                stream memory = .ok (more, after) ∧
              found.positives.toList <+:
                more.positives.toList ∧
              found.negatives.toList <+:
                more.negatives.toList ∧
              found.attempts ≤ more.attempts) ∧
        (found.isComplete = true →
          ∀ other : Sampler,
            sampler.FillsAlike other →
              found.attempts ≤ other.settings.maxAttempts →
                other.examples rule wantedPositive
                    wantedNegative stream memory =
                  .ok (found, rest))) ∧
    (Examples.Fits memory morePositive moreNegative →
      Examples.Fits memory wantedPositive
        wantedNegative) ∧
    (¬ Examples.Fits memory morePositive moreNegative →
      ∃ fault,
        Examples.Refuses memory morePositive moreNegative
            fault ∧
          larger.examples rule morePositive moreNegative
              stream memory =
            .error fault) := by
  refine ⟨fun hFits => ?_,
    fun hFits => hFits.of_more hPositive hNegative,
    larger.examples_of_not_fits rule stream⟩
  rcases sampler.exists_search_end rule wantedPositive
      wantedNegative stream with
    ⟨last, hEnds, hSearch⟩
  rw [← sampler.examples_eq_search rule stream hFits]
    at hSearch
  refine ⟨_, _, hSearch, fun hRoom => ?_, ?_⟩
  · rcases larger.exists_search_end rule morePositive
        moreNegative stream with
      ⟨later, hLarger, hMore⟩
    rw [← larger.examples_eq_search rule stream hRoom]
      at hMore
    have hLater :=
      hEnds.le_of_more hLarger hAlike hCap hPositive
        hNegative
    rcases larger.firstExamples_isPrefix rule stream hPositive
        hNegative hLater with
      ⟨hFollowing, hBreaking⟩
    refine ⟨_, _, hMore, ?_, ?_, ?_⟩
    · rw [hAlike.firstExamples_eq]
      exact hFollowing
    · rw [hAlike.firstExamples_eq]
      exact hBreaking
    · rw [UInt32.le_iff_toNat_le, hEnds.attempts_eq,
        hLarger.attempts_eq]
      exact hLater
  · intro hComplete other hOther hAttempts
    have hSupplied :=
      (Examples.isComplete_ofDrawn rule wantedPositive
        wantedNegative _).mp hComplete
    rw [UInt32.le_iff_toNat_le, hEnds.attempts_eq]
      at hAttempts
    have hSame :=
      hEnds.of_supplied hSupplied hOther hAttempts
    rw [other.examples_eq_search rule stream hFits,
      hSame.search_eq, hOther.firstExamples_eq,
      hOther.streamAt_eq]

/-
  The board that is found in one attempt comes first among
  those that are found in up to a thousand, and one attempt
  is enough to find it again.  The memory gives no block for
  more than five boards.
-/
theorem one_board_kept :
    let sampler : Sampler :=
      { settings := { maxAttempts := 2 }, valid := rfl }
    let larger : Sampler := { settings := {}, valid := rfl }
    let other : Sampler :=
      { settings := { maxAttempts := 1 }, valid := rfl }
    let rule : Rule :=
      .universal .emptyCellNoun .emptyCellNoun
    let stream : Stream := .ofSeed 2
    let memory := 5 * Examples.boardBytes
    sampler.FillsAlike larger ∧ sampler.FillsAlike other ∧
      sampler.settings.maxAttempts ≤
        larger.settings.maxAttempts ∧
      (1 : UInt64) ≤ 5 ∧ (0 : UInt64) ≤ 3 ∧
      Examples.Fits memory 5 3 ∧
      Examples.Fits memory 1 0 ∧
      ∃ found rest more after,
        sampler.examples rule 1 0 stream memory =
            .ok (found, rest) ∧
          found.isComplete = true ∧
          larger.examples rule 5 3 stream memory =
            .ok (more, after) ∧
          found.positives.toList <+:
            more.positives.toList ∧
          other.examples rule 1 0 stream memory =
            .ok (found, rest) := by
  intro sampler larger other rule stream memory
  have hAlike : sampler.FillsAlike larger := ⟨rfl, rfl⟩
  have hOther : sampler.FillsAlike other := ⟨rfl, rfl⟩
  have hCap :
      sampler.settings.maxAttempts ≤
        larger.settings.maxAttempts := by
    decide
  have hPositive : (1 : UInt64) ≤ 5 := by decide
  have hNegative : (0 : UInt64) ≤ 3 := by decide
  have hRoom : Examples.Fits memory 5 3 := by decide
  have hFits : Examples.Fits memory 1 0 := by decide
  have hFound :
      (sampler.examples rule 1 0 stream memory).map
          (fun found =>
            (found.1.isComplete,
              found.1.attempts)) = .ok (true, 1) := by
    decide +kernel
  rcases (more_keeps_found rule stream memory hAlike hCap
      hPositive hNegative).1 hFits with
    ⟨found, rest, hExamples, hMore, hKept⟩
  rcases hMore hRoom with
    ⟨more, after, hLarger, hFollowing, _, _⟩
  rw [hExamples] at hFound
  have hBoth := Except.ok.inj hFound
  have hComplete : found.isComplete = true :=
    congrArg Prod.fst hBoth
  have hAttempts : found.attempts = 1 :=
    congrArg Prod.snd hBoth
  refine ⟨hAlike, hOther, hCap, hPositive, hNegative, hRoom,
    hFits, found, rest, more, after, hExamples, hComplete,
    hLarger, hFollowing, ?_⟩
  apply hKept hComplete other hOther
  rw [hAttempts]
  decide

/-
  One board is found in one attempt, but with 2^63 wanted
  nothing is found in any memory, as room for so many cannot
  be asked for.
-/
theorem more_without_room :
    let sampler : Sampler :=
      { settings := { maxAttempts := 1 }, valid := rfl }
    let rule : Rule :=
      .universal .emptyCellNoun .emptyCellNoun
    let wanted : UInt64 := 9223372036854775808
    1 ≤ wanted ∧
      (∀ memory,
        Examples.boardBytes ≤ memory →
          (sampler.examples rule 1 0 (.ofSeed 2) memory).map
              (fun found =>
                (found.1.attempts,
                  found.1.positives.size)) =
            .ok (1, 1)) ∧
      ∀ memory,
        sampler.examples rule wanted 0 (.ofSeed 2) memory =
          .error .capacityOverflow := by
  intro sampler rule wanted
  refine ⟨by decide, ?_, ?_⟩
  · intro memory hRoom
    have hFits : Examples.Fits memory 1 0 :=
      Examples.fits_one hRoom true
    rw [sampler.examples_eq_search rule _ hFits]
    decide +kernel
  · intro memory
    have hRefused :
        Checked.Refuses memory wanted.toNat
          Examples.boardBytes .capacityOverflow := by
      change twoPow 63 ≤ wanted.toNat * Examples.boardBytes
      decide
    rw [examples, Examples.reserve,
      Checked.reserve_eq_error_iff.mpr hRefused]
    rfl

end Sampler

end HiddenRule
