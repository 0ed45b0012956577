import HiddenRule.Proofs.Calls
import HiddenRule.Proofs.RandomBoards

/-
  This file proves which examples a search gives.

  Let boards be drawn one after another.  The search ends as
  soon as they supply the wanted boards of both sides, or at
  the limit of the attempts.  It gives the first boards of
  each side among those drawn, and leaves the stream behind
  the last of them.

  There has to be room for all wanted boards, however few of
  them can be found.  How much there is depends on the
  memory, and all that is proved holds for every memory.

  Main declarations:
    * `Rule.Supplies` and `Examples.ofDrawn`
    * `Sampler.collect_ends`
    * `Examples.FoundAmong`
    * `Examples.Fits` and `Examples.Refuses`
    * `Sampler.examples_found_among`
-/

------------------------------------------------------------
-- Boards Of Both Sides
------------------------------------------------------------

namespace HiddenRule

/- Enough of the boards follow a rule, and enough break it. -/
def Rule.Supplies
    (rule : Rule)
    (wantedPositive wantedNegative : UInt64)
    (boards : List Board) : Prop :=
  wantedPositive.toNat ≤ boards.countP rule.follows ∧
    wantedNegative.toNat ≤
      boards.countP fun board => !rule.follows board

instance
    (rule : Rule)
    (wantedPositive wantedNegative : UInt64)
    (boards : List Board) :
    Decidable
      (rule.Supplies wantedPositive wantedNegative boards) :=
  inferInstanceAs (Decidable (_ ∧ _))

namespace Examples

/- The first boards of each side among those drawn. -/
def ofDrawn
    (rule : Rule)
    (wantedPositive wantedNegative : UInt64)
    (drawn : List Board) : Examples where
  positives :=
    ((drawn.filter rule.follows).take
      wantedPositive.toNat).toArray
  negatives :=
    ((drawn.filter fun board => !rule.follows board).take
      wantedNegative.toNat).toArray
  attempts := UInt32.ofNat drawn.length
  wantedPositive := wantedPositive
  wantedNegative := wantedNegative

variable (rule : Rule)
variable (wantedPositive wantedNegative : UInt64)

/- The set is complete exactly if enough was drawn. -/
theorem isComplete_ofDrawn
    (drawn : List Board) :
    (ofDrawn rule wantedPositive wantedNegative
        drawn).isComplete = true ↔
      rule.Supplies wantedPositive wantedNegative drawn := by
  simp only [isComplete, ofDrawn, Rule.Supplies,
    List.countP_eq_length_filter, List.size_toArray,
    List.length_take, Bool.and_eq_true, beq_iff_eq]
  omega

/- One more item is taken if fewer were taken than may be. -/
private theorem take_append_singleton
    {α : Type}
    (items : List α)
    (item : α)
    (limit : Nat) :
    (items ++ [item]).take limit =
      if (items.take limit).length < limit then
        items.take limit ++ [item]
      else
        items.take limit := by
  by_cases hRoom : items.length < limit
  · have hAll : items.take limit = items :=
      List.take_of_length_le (Nat.le_of_lt hRoom)
    rw [hAll, if_pos hRoom]
    apply List.take_of_length_le
    rw [List.length_append, List.length_singleton]
    omega
  · have hFull : (items.take limit).length = limit := by
      rw [List.length_take]
      omega
    rw [if_neg (by omega)]
    apply List.take_append_of_le_length
    omega

/- To offer the next board is to have drawn it too. -/
theorem offer_ofDrawn
    (drawn : List Board)
    (board : Board) :
    Examples.offer
        { ofDrawn rule wantedPositive wantedNegative drawn with
          attempts := UInt32.ofNat (drawn.length + 1) }
        board (rule.follows board) =
      ofDrawn rule wantedPositive wantedNegative
        (drawn ++ [board]) := by
  cases hFollows : rule.follows board with
  | true =>
      have hKept :
          (drawn ++ [board]).filter rule.follows =
            drawn.filter rule.follows ++ [board] := by
        simp [hFollows]
      have hOthers :
          ((drawn ++ [board]).filter fun other =>
              !rule.follows other) =
            drawn.filter fun other =>
              !rule.follows other := by
        simp [hFollows]
      simp only [offer, ofDrawn, hKept, hOthers, if_true,
        take_append_singleton, List.size_toArray]
      split <;> simp
  | false =>
      have hKept :
          ((drawn ++ [board]).filter fun other =>
              !rule.follows other) =
            (drawn.filter fun other =>
              !rule.follows other) ++ [board] := by
        simp [hFollows]
      have hOthers :
          (drawn ++ [board]).filter rule.follows =
            drawn.filter rule.follows := by
        simp [hFollows]
      simp only [offer, ofDrawn, hKept, hOthers,
        Bool.false_eq_true, if_false,
        take_append_singleton, List.size_toArray]
      split <;> simp

end Examples

end HiddenRule

------------------------------------------------------------
-- Searches
------------------------------------------------------------

namespace HiddenRule

namespace Sampler

variable (sampler : Sampler)
variable (rule : Rule)
variable (wantedPositive wantedNegative : UInt64)
variable (stream : Stream)

/- The examples among the boards that are drawn first. -/
def firstExamples
    (count : Nat) : Examples :=
  .ofDrawn rule wantedPositive wantedNegative
    (firstBoards (sampler.boardAt stream) count)

theorem firstExamples_zero :
    sampler.firstExamples rule wantedPositive wantedNegative
        stream 0 =
      .empty wantedPositive wantedNegative := by
  simp [firstExamples, Examples.ofDrawn, Examples.empty,
    firstBoards]

/- The boards that are drawn first are enough. -/
def SuppliedAfter
    (count : Nat) : Prop :=
  rule.Supplies wantedPositive wantedNegative
    (firstBoards (sampler.boardAt stream) count)

/- A search ends when enough was drawn. -/
theorem collect_of_supplied
    {count : Nat}
    (left : Nat)
    (hSupplied :
      sampler.SuppliedAfter rule wantedPositive
        wantedNegative stream count) :
    sampler.collect rule left
        (sampler.firstExamples rule wantedPositive
          wantedNegative stream count)
        (sampler.streamAt stream count) =
      .ok (sampler.firstExamples rule wantedPositive
          wantedNegative stream count,
        sampler.streamAt stream count) := by
  cases left with
  | zero => rfl
  | succ left =>
      have hComplete :=
        (Examples.isComplete_ofDrawn rule wantedPositive
          wantedNegative _).mpr hSupplied
      rw [collect]
      exact if_pos hComplete

/- A search draws another board while some are missing. -/
theorem collect_of_missing
    {count : Nat}
    (left : Nat)
    (hFits : count + 1 < twoPow 32)
    (hMissing :
      ¬ sampler.SuppliedAfter rule wantedPositive
        wantedNegative stream count) :
    sampler.collect rule (left + 1)
        (sampler.firstExamples rule wantedPositive
          wantedNegative stream count)
        (sampler.streamAt stream count) =
      sampler.collect rule left
        (sampler.firstExamples rule wantedPositive
          wantedNegative stream (count + 1))
        (sampler.streamAt stream (count + 1)) := by
  have hShort :
      ¬ (sampler.firstExamples rule wantedPositive
        wantedNegative stream count).isComplete = true := by
    intro hComplete
    exact hMissing
      ((Examples.isComplete_ofDrawn rule wantedPositive
        wantedNegative _).mp hComplete)
  have hAttempts :
      (sampler.firstExamples rule wantedPositive
        wantedNegative stream count).attempts.toNat =
          count := by
    simp only [firstExamples, Examples.ofDrawn,
      length_firstBoards]
    apply UInt32.toNat_ofNat_of_lt
    exact Nat.lt_trans (Nat.lt_succ_self count) hFits
  have hOffer :=
    Examples.offer_ofDrawn rule wantedPositive
      wantedNegative
      (firstBoards (sampler.boardAt stream) count)
      (sampler.boardAt stream count)
  rw [length_firstBoards, ← firstBoards_succ] at hOffer
  rw [collect, if_neg hShort, hAttempts,
    Checked.add_of_lt hFits, ok_bind,
    sampler.randomBoard_streamAt, ok_bind]
  dsimp only
  rw [rule.evaluate_eq, ok_bind]
  exact congrArg
    (fun examples => sampler.collect rule left examples _)
    hOffer

/-
  From any place a search goes on to the first place where
  enough was drawn, or until no attempt is left.
-/
theorem collect_ends
    (left count : Nat)
    (hFits : count + left < twoPow 32) :
    ∃ last,
      count ≤ last ∧ last ≤ count + left ∧
        (∀ earlier, count ≤ earlier → earlier < last →
          ¬ sampler.SuppliedAfter rule wantedPositive
            wantedNegative stream earlier) ∧
        (sampler.SuppliedAfter rule wantedPositive
            wantedNegative stream last ∨
          last = count + left) ∧
        sampler.collect rule left
            (sampler.firstExamples rule wantedPositive
              wantedNegative stream count)
            (sampler.streamAt stream count) =
          .ok (sampler.firstExamples rule wantedPositive
              wantedNegative stream last,
            sampler.streamAt stream last) := by
  induction left generalizing count with
  | zero =>
      refine ⟨count, Nat.le_refl _, Nat.le_refl _, ?_,
        Or.inr rfl, rfl⟩
      intro earlier hFrom hTo
      omega
  | succ left ih =>
      by_cases hSupplied :
          sampler.SuppliedAfter rule wantedPositive
            wantedNegative stream count
      · have hEnds :=
          sampler.collect_of_supplied rule wantedPositive
            wantedNegative stream (left + 1) hSupplied
        refine ⟨count, Nat.le_refl _, Nat.le_add_right _ _,
          ?_, Or.inl hSupplied, hEnds⟩
        intro earlier hFrom hTo
        omega
      · rcases ih (count + 1) (by omega) with
          ⟨last, hFrom, hTo, hMissing, hStops, hCollect⟩
        have hNext :=
          sampler.collect_of_missing rule wantedPositive
            wantedNegative stream left (by omega) hSupplied
        refine ⟨last, by omega, by omega, ?_, ?_, ?_⟩
        · intro earlier hEarlier hLast
          by_cases hNow : earlier = count
          · rw [hNow]
            exact hSupplied
          · exact hMissing earlier (by omega) hLast
        · rcases hStops with hLast | hLast
          · exact Or.inl hLast
          · right
            omega
        · rw [hNext, hCollect]

end Sampler

end HiddenRule

------------------------------------------------------------
-- The End Of A Search
------------------------------------------------------------

namespace HiddenRule

namespace Sampler

/-
  A search ends after so many boards: they are enough or as
  many as may be tried, and fewer were not enough.
-/
structure EndsAfter
    (sampler : Sampler)
    (rule : Rule)
    (wantedPositive wantedNegative : UInt64)
    (stream : Stream)
    (last : Nat) : Prop where
  within : last ≤ sampler.settings.maxAttempts.toNat
  missing :
    ∀ earlier < last,
      ¬ sampler.SuppliedAfter rule wantedPositive
        wantedNegative stream earlier
  stops :
    sampler.SuppliedAfter rule wantedPositive
        wantedNegative stream last ∨
      last = sampler.settings.maxAttempts.toNat

/- Every search has an end. -/
theorem exists_search_end
    (sampler : Sampler)
    (rule : Rule)
    (wantedPositive wantedNegative : UInt64)
    (stream : Stream) :
    ∃ last,
      sampler.EndsAfter rule wantedPositive wantedNegative
          stream last ∧
        sampler.search rule wantedPositive wantedNegative
            stream =
          .ok (sampler.firstExamples rule wantedPositive
              wantedNegative stream last,
            sampler.streamAt stream last) := by
  have hFits :
      0 + sampler.settings.maxAttempts.toNat < twoPow 32 := by
    rw [Nat.zero_add]
    exact UInt32.toNat_lt _
  rcases sampler.collect_ends rule wantedPositive
      wantedNegative stream _ 0 hFits with
    ⟨last, _, hWithin, hMissing, hStops, hCollect⟩
  rw [Nat.zero_add] at hWithin hStops
  rw [firstExamples_zero] at hCollect
  refine ⟨last, ⟨hWithin, ?_, hStops⟩, hCollect⟩
  intro earlier hEarlier
  exact hMissing earlier (Nat.zero_le _) hEarlier

section

variable {sampler : Sampler}
variable {rule : Rule}
variable {wantedPositive wantedNegative : UInt64}
variable {stream : Stream}
variable {last : Nat}

/- Enough boards that may be tried end the search. -/
theorem EndsAfter.le_of_supplied
    (hEnds :
      sampler.EndsAfter rule wantedPositive wantedNegative
        stream last)
    {count : Nat}
    (hSupplied :
      sampler.SuppliedAfter rule wantedPositive
        wantedNegative stream count) :
    last ≤ count := by
  apply Nat.le_of_not_lt
  intro hEarlier
  exact hEnds.missing count hEarlier hSupplied

/- A search that could end with enough boards does. -/
theorem EndsAfter.supplied
    (hEnds :
      sampler.EndsAfter rule wantedPositive wantedNegative
        stream last)
    {count : Nat}
    (hWithin : count ≤ sampler.settings.maxAttempts.toNat)
    (hSupplied :
      sampler.SuppliedAfter rule wantedPositive
        wantedNegative stream count) :
    sampler.SuppliedAfter rule wantedPositive wantedNegative
      stream last := by
  rcases hEnds.stops with hLast | hLast
  · exact hLast
  · have hLe := hEnds.le_of_supplied hSupplied
    have hSame : last = count := by omega
    rw [hSame]
    exact hSupplied

end

end Sampler

end HiddenRule

------------------------------------------------------------
-- Found Examples
------------------------------------------------------------

namespace HiddenRule

namespace Examples

/-
  What examples are found among a sequence of boards of
  which so many may be tried.
-/
structure FoundAmong
    (rule : Rule)
    (wantedPositive wantedNegative : UInt64)
    (boards : Nat → Board)
    (most : Nat)
    (examples : Examples) : Prop where
  attempts_of_least :
    ∀ count ≤ most,
      rule.Supplies wantedPositive wantedNegative
          (firstBoards boards count) →
        (∀ earlier < count,
          ¬ rule.Supplies wantedPositive wantedNegative
            (firstBoards boards earlier)) →
          examples.attempts.toNat = count
  attempts_of_missing :
    (∀ count ≤ most,
      ¬ rule.Supplies wantedPositive wantedNegative
        (firstBoards boards count)) →
      examples.attempts.toNat = most
  positives_eq :
    examples.positives.toList =
      ((firstBoards boards examples.attempts.toNat).filter
        rule.follows).take wantedPositive.toNat
  negatives_eq :
    examples.negatives.toList =
      ((firstBoards boards examples.attempts.toNat).filter
        fun board => !rule.follows board).take
          wantedNegative.toNat
  wanted_eq :
    examples.wantedPositive = wantedPositive ∧
      examples.wantedNegative = wantedNegative
  isComplete_iff :
    examples.isComplete = true ↔
      ∃ count ≤ most,
        rule.Supplies wantedPositive wantedNegative
          (firstBoards boards count)
  toList_eq :
    examples.toList =
      examples.positives.toList ++ examples.negatives.toList
  attempts_of_short :
    examples.isComplete = false →
      examples.attempts.toNat = most

end Examples

namespace Sampler

variable {sampler : Sampler}
variable {rule : Rule}
variable {wantedPositive wantedNegative : UInt64}
variable {stream : Stream}
variable {last : Nat}

theorem EndsAfter.attempts_eq
    (hEnds :
      sampler.EndsAfter rule wantedPositive wantedNegative
        stream last) :
    (sampler.firstExamples rule wantedPositive
      wantedNegative stream last).attempts.toNat = last := by
  simp only [firstExamples, Examples.ofDrawn,
    length_firstBoards]
  apply UInt32.toNat_ofNat_of_lt
  exact Nat.lt_of_le_of_lt hEnds.within (UInt32.toNat_lt _)

/- The examples at the end of a search are found. -/
theorem EndsAfter.foundAmong
    (hEnds :
      sampler.EndsAfter rule wantedPositive wantedNegative
        stream last) :
    Examples.FoundAmong rule wantedPositive wantedNegative
      (sampler.boardAt stream)
      sampler.settings.maxAttempts.toNat
      (sampler.firstExamples rule wantedPositive
        wantedNegative stream last) := by
  have hAttempts := hEnds.attempts_eq
  have hComplete :=
    Examples.isComplete_ofDrawn rule wantedPositive
      wantedNegative
      (firstBoards (sampler.boardAt stream) last)
  constructor
  case attempts_of_least =>
    intro count hWithin hSupplied hEarlier
    rw [hAttempts]
    have hLe := hEnds.le_of_supplied hSupplied
    have hLast := hEnds.supplied hWithin hSupplied
    apply Nat.le_antisymm hLe
    apply Nat.le_of_not_lt
    intro hLt
    exact hEarlier last hLt hLast
  case attempts_of_missing =>
    intro hMissing
    rw [hAttempts]
    rcases hEnds.stops with hLast | hLast
    · exact absurd hLast (hMissing last hEnds.within)
    · exact hLast
  case positives_eq =>
    rw [hAttempts]
    rfl
  case negatives_eq =>
    rw [hAttempts]
    rfl
  case wanted_eq => exact ⟨rfl, rfl⟩
  case isComplete_iff =>
    constructor
    · intro hIs
      exact ⟨last, hEnds.within, hComplete.mp hIs⟩
    · intro ⟨count, hWithin, hSupplied⟩
      exact hComplete.mpr (hEnds.supplied hWithin hSupplied)
  case toList_eq => rfl
  case attempts_of_short =>
    intro hShort
    rw [hAttempts]
    rcases hEnds.stops with hLast | hLast
    · rw [firstExamples, hComplete.mpr hLast] at hShort
      exact nomatch hShort
    · exact hLast

end Sampler

end HiddenRule

------------------------------------------------------------
-- Room For Examples
------------------------------------------------------------

namespace HiddenRule

namespace Examples

/- There is room for the wanted boards of either side. -/
def Fits
    (memory : Nat)
    (wantedPositive wantedNegative : UInt64) : Prop :=
  Checked.Grants memory wantedPositive.toNat boardBytes ∧
    Checked.Grants memory wantedNegative.toNat boardBytes

instance
    (memory : Nat)
    (wantedPositive wantedNegative : UInt64) :
    Decidable (Fits memory wantedPositive wantedNegative) :=
  inferInstanceAs (Decidable (_ ∧ _))

/-
  Room is refused for one side; that for positive boards is
  asked for first.
-/
def Refuses
    (memory : Nat)
    (wantedPositive wantedNegative : UInt64)
    (fault : Fault) : Prop :=
  Checked.Refuses memory wantedPositive.toNat boardBytes
      fault ∨
    (Checked.Grants memory wantedPositive.toNat boardBytes ∧
      Checked.Refuses memory wantedNegative.toNat boardBytes
        fault)

variable {memory : Nat}
variable {wantedPositive wantedNegative : UInt64}

theorem reserve_of_fits
    (hFits : Fits memory wantedPositive wantedNegative) :
    reserve memory wantedPositive wantedNegative =
      .ok () := by
  rw [reserve, Checked.reserve_eq_ok_iff.mpr hFits.1, ok_bind]
  exact Checked.reserve_eq_ok_iff.mpr hFits.2

/- Room that is not there is refused. -/
theorem exists_refusal
    (hFull : ¬ Fits memory wantedPositive wantedNegative) :
    ∃ fault,
      Refuses memory wantedPositive wantedNegative fault ∧
        reserve memory wantedPositive wantedNegative =
          .error fault := by
  unfold reserve
  cases hPositive :
      Checked.reserve wantedPositive.toNat boardBytes
        memory with
  | error fault =>
      have hRefused :=
        Checked.reserve_eq_error_iff.mp hPositive
      exact ⟨fault, Or.inl hRefused, rfl⟩
  | ok _ =>
      have hGranted := Checked.reserve_eq_ok_iff.mp hPositive
      cases hNegative :
          Checked.reserve wantedNegative.toNat boardBytes
            memory with
      | error fault =>
          have hRefused :=
            Checked.reserve_eq_error_iff.mp hNegative
          exact ⟨fault, Or.inr ⟨hGranted, hRefused⟩, rfl⟩
      | ok _ =>
          exact absurd
            ⟨hGranted,
              Checked.reserve_eq_ok_iff.mp hNegative⟩
            hFull

/- Room for one board is room for one of either side. -/
theorem fits_one
    (hRoom : boardBytes ≤ memory)
    (follows : Bool) :
    Fits memory (if follows then 1 else 0)
      (if follows then 0 else 1) := by
  have hNone : Checked.Grants memory 0 boardBytes :=
    ⟨by decide, Nat.zero_le _⟩
  have hOne : Checked.Grants memory 1 boardBytes :=
    ⟨by decide, hRoom⟩
  cases follows with
  | true => exact ⟨hOne, hNone⟩
  | false => exact ⟨hNone, hOne⟩

end Examples

namespace Sampler

variable {memory : Nat}

/- With room for them the examples are those of a search. -/
theorem examples_eq_search
    (sampler : Sampler)
    (rule : Rule)
    {wantedPositive wantedNegative : UInt64}
    (stream : Stream)
    (hFits :
      Examples.Fits memory wantedPositive wantedNegative) :
    sampler.examples rule wantedPositive wantedNegative
        stream memory =
      sampler.search rule wantedPositive wantedNegative
        stream := by
  rw [examples, Examples.reserve_of_fits hFits, ok_bind]

/- They are found among the boards of the stream. -/
theorem examples_of_fits
    (sampler : Sampler)
    (rule : Rule)
    {wantedPositive wantedNegative : UInt64}
    (stream : Stream)
    (hFits :
      Examples.Fits memory wantedPositive wantedNegative) :
    ∃ examples,
      sampler.examples rule wantedPositive wantedNegative
          stream memory =
        .ok (examples,
          sampler.streamAt stream examples.attempts.toNat) ∧
      examples.FoundAmong rule wantedPositive wantedNegative
        (sampler.boardAt stream)
        sampler.settings.maxAttempts.toNat := by
  rcases sampler.exists_search_end rule wantedPositive
      wantedNegative stream with
    ⟨last, hEnds, hSearch⟩
  refine ⟨_, ?_, hEnds.foundAmong⟩
  rw [hEnds.attempts_eq, ← hSearch]
  exact sampler.examples_eq_search rule stream hFits

/- Without room there are no examples. -/
theorem examples_of_not_fits
    (sampler : Sampler)
    (rule : Rule)
    {wantedPositive wantedNegative : UInt64}
    (stream : Stream)
    (hFull :
      ¬ Examples.Fits memory wantedPositive
        wantedNegative) :
    ∃ fault,
      Examples.Refuses memory wantedPositive wantedNegative
          fault ∧
        sampler.examples rule wantedPositive wantedNegative
            stream memory =
          .error fault := by
  rcases Examples.exists_refusal hFull with
    ⟨fault, hRefused, hReserve⟩
  refine ⟨fault, hRefused, ?_⟩
  rw [examples, hReserve]
  rfl

end Sampler

end HiddenRule

------------------------------------------------------------
-- One Example
------------------------------------------------------------

namespace HiddenRule

/- A board is found among more boards where it was found. -/
private theorem find?_firstBoards
    {boards : Nat → Board}
    {test : Board → Bool}
    {last most : Nat}
    (hLe : last ≤ most)
    (hFound :
      1 ≤ (firstBoards boards last).countP test ∨
        last = most) :
    (firstBoards boards last).find? test =
      (firstBoards boards most).find? test := by
  rcases hFound with hSome | hSame
  · have hIsSome :
        ((firstBoards boards last).find? test).isSome := by
      rw [List.find?_isSome]
      exact List.countP_pos_iff.mp hSome
    rcases firstBoards_isPrefix boards hLe with ⟨rest, hRest⟩
    rw [← hRest, List.find?_append]
    exact (Option.or_of_isSome hIsSome).symm
  · rw [hSame]

/- One board of a side is supplied where there is one. -/
private theorem Rule.Supplies.one
    {rule : Rule}
    {follows : Bool}
    {boards : List Board}
    (hSupplies :
      rule.Supplies (if follows then 1 else 0)
        (if follows then 0 else 1) boards) :
    1 ≤ boards.countP fun board =>
      rule.follows board == follows := by
  cases follows with
  | true => simpa using hSupplies.1
  | false => simpa using hSupplies.2

/- Of one wanted board the first of its side is kept. -/
private theorem Examples.head?_toList_ofDrawn
    (rule : Rule)
    (follows : Bool)
    (drawn : List Board) :
    (ofDrawn rule (if follows then 1 else 0)
        (if follows then 0 else 1) drawn).toList.head? =
      drawn.find? fun board =>
        rule.follows board == follows := by
  cases follows <;>
    simp [ofDrawn, toList, List.head?_take,
      ← List.head?_filter]

/- The only example is the first board of its side. -/
theorem Sampler.EndsAfter.head_of_side
    {sampler : Sampler}
    {rule : Rule}
    {follows : Bool}
    {stream : Stream}
    {last : Nat}
    (hEnds :
      sampler.EndsAfter rule (if follows then 1 else 0)
        (if follows then 0 else 1) stream last) :
    (sampler.firstExamples rule (if follows then 1 else 0)
        (if follows then 0 else 1) stream
          last).toList.head? =
      (firstBoards (sampler.boardAt stream)
        sampler.settings.maxAttempts.toNat).find?
          fun board => rule.follows board == follows := by
  rw [firstExamples, Examples.head?_toList_ofDrawn]
  exact find?_firstBoards hEnds.within
    (hEnds.stops.imp_left Rule.Supplies.one)

namespace Game

/-
  One example is the first board of the side that is asked
  for, among as many boards as may be tried.
-/
theorem example?_eq
    (game : Game)
    (rule : Rule)
    (follows : Bool)
    (hRoom : Examples.boardBytes ≤ game.machine.memory) :
    ∃ answer,
      game.example? rule follows = .ok answer ∧
        answer.value =
          (firstBoards
            (game.sampler.boardAt game.exampleStream)
            game.sampler.settings.maxAttempts.toNat).find?
              fun board =>
                rule.follows board == follows := by
  rcases game.sampler.exists_search_end rule
      (if follows then 1 else 0) (if follows then 0 else 1)
      game.exampleStream with
    ⟨last, hEnds, hSearch⟩
  rw [← Sampler.examples_eq_search _ _ _
    (Examples.fits_one hRoom follows)] at hSearch
  rw [example?_eq_map, hSearch]
  exact ⟨_, rfl, hEnds.head_of_side⟩

end Game

end HiddenRule

------------------------------------------------------------
-- Examples Of A Stream Of Boards
------------------------------------------------------------

namespace HiddenRule

namespace Sampler

/-
  The boards of a stream follow one after another.  In any
  memory with room for the wanted examples, these are found
  among the boards, and the stream is left behind the last
  board that was tried.  Without room there are none, and the
  fault says which side was refused and why.  A game with
  room for one board gives the first one of a side.
-/
theorem examples_found_among
    (sampler : Sampler)
    (rule : Rule)
    (stream : Stream) :
    ∃ (boards : Nat → Board) (streams : Nat → Stream),
      streams 0 = stream ∧
      (∀ count,
        sampler.randomBoard (streams count) =
          .ok (boards count, streams (count + 1))) ∧
      (∀ memory wantedPositive wantedNegative,
        (Examples.Fits memory wantedPositive
            wantedNegative →
          ∃ examples,
            sampler.examples rule wantedPositive
                wantedNegative stream memory =
              .ok (examples,
                streams examples.attempts.toNat) ∧
            examples.FoundAmong rule wantedPositive
              wantedNegative boards
              sampler.settings.maxAttempts.toNat) ∧
        (¬ Examples.Fits memory wantedPositive
            wantedNegative →
          ∃ fault,
            Examples.Refuses memory wantedPositive
                wantedNegative fault ∧
              sampler.examples rule wantedPositive
                  wantedNegative stream memory =
                .error fault)) ∧
      (∀ game : Game,
        game.sampler = sampler →
          game.exampleStream = stream →
            Examples.boardBytes ≤ game.machine.memory →
              ∀ follows,
                ∃ answer,
                  game.example? rule follows = .ok answer ∧
                    answer.value =
                      (firstBoards boards
                        sampler.settings.maxAttempts.toNat
                        ).find? fun board =>
                          rule.follows board == follows) := by
  refine ⟨sampler.boardAt stream, sampler.streamAt stream,
    rfl, sampler.randomBoard_streamAt stream, ?_, ?_⟩
  · intro memory wantedPositive wantedNegative
    exact ⟨sampler.examples_of_fits rule stream,
      sampler.examples_of_not_fits rule stream⟩
  · intro game hSampler hStream hRoom follows
    rw [← hSampler, ← hStream]
    exact game.example?_eq rule follows hRoom

/-
  A board of each side is found in two attempts, in a memory
  that gives no block for more than one board.
-/
theorem examples_one_of_each :
    let sampler : Sampler := { settings := {}, valid := rfl }
    let rule : Rule :=
      .existential (.colorNoun .blue) (.row .middle)
    let memory := Examples.boardBytes
    Examples.Fits memory 1 1 ∧
      ∃ examples last,
        sampler.examples rule 1 1 (.ofSeed 4) memory =
            .ok (examples, last) ∧
          examples.attempts.toNat = 2 ∧
          examples.isComplete = true := by
  intro sampler rule memory
  have hFits : Examples.Fits memory 1 1 := by decide
  have hTwo :
      (sampler.examples rule 1 1 (.ofSeed 4) memory).map
          (fun found => found.1.attempts.toNat) = .ok 2 := by
    decide +kernel
  rcases sampler.examples_found_among rule (.ofSeed 4) with
    ⟨boards, streams, _, _, hSearches, _⟩
  rcases (hSearches memory 1 1).1 hFits with
    ⟨examples, hExamples, hFound⟩
  rw [hExamples] at hTwo
  have hAttempts : examples.attempts.toNat = 2 :=
    Except.ok.inj hTwo
  refine ⟨hFits, examples, _, hExamples, hAttempts, ?_⟩
  rw [← Bool.not_eq_false]
  intro hShort
  have hMost := hFound.attempts_of_short hShort
  rw [hAttempts] at hMost
  exact absurd hMost (by decide)

/-
  Room for 2^63 boards cannot be asked for in any memory,
  although only three are tried and all of them follow the
  rule.
-/
theorem examples_without_room :
    let sampler : Sampler :=
      { settings := { maxAttempts := 3 }, valid := rfl }
    let rule : Rule :=
      .universal .emptyCellNoun .emptyCellNoun
    let wanted : UInt64 := 9223372036854775808
    (∀ memory,
      sampler.examples rule wanted 0 (.ofSeed 1) memory =
        .error .capacityOverflow) ∧
      (sampler.search rule wanted 0 (.ofSeed 1)).map
          (fun found =>
            (found.1.attempts, found.1.positives.size)) =
        .ok (3, 3) := by
  constructor
  · intro memory
    rfl
  · decide +kernel

end Sampler

end HiddenRule
