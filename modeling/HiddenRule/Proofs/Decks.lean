import HiddenRule.Challenge.Deck
import HiddenRule.Proofs.Search
import HiddenRule.Proofs.Transcript

/-
  This file proves that a full deck mixes both answers.

  A deck is dealt from examples of which each side has one
  board less than the deck is to have.  So no side alone can
  fill it, in whatever order the boards are shuffled, and a
  player who always gives the same answer is struck.

  Main declarations:
    * `Stream.shuffle_perm`
    * `Examples.FoundAmong.countP_follows_le`
    * `Deck.Mixes` and `Deck.mixes_of_counts`
    * `Round.play_replicate_strikes`
    * `Deck.DealtFrom` and `Deck.deal_mixes`
-/

------------------------------------------------------------
-- Shuffled Lists
------------------------------------------------------------

namespace HiddenRule

namespace Stream

variable {α : Type}

/- Two items that change places are still there. -/
private theorem swapIfInBounds_perm
    (items : Array α)
    (first second : Nat) :
    (items.swapIfInBounds first second).toList.Perm
      items.toList := by
  unfold Array.swapIfInBounds
  split
  · split
    · exact (Array.swap_perm _ _).toList
    · exact List.Perm.refl _
  · exact List.Perm.refl _

theorem shuffleUpTo_perm
    (last : Nat)
    (items : Array α)
    (stream : Stream) :
    (shuffleUpTo last items stream).1.toList.Perm
      items.toList := by
  induction last generalizing items stream with
  | zero => exact List.Perm.refl _
  | succ last ih =>
      unfold shuffleUpTo
      dsimp only
      generalize below _ _ stream = drawn
      rcases drawn with ⟨chosen, next⟩
      have hSwapped :=
        swapIfInBounds_perm items (last + 1) chosen
      exact (ih _ next).trans hSwapped

/- A shuffled list has the same items. -/
theorem shuffle_perm
    (items : List α)
    (stream : Stream) :
    (stream.shuffle items).1.Perm items :=
  shuffleUpTo_perm _ items.toArray stream

end Stream

end HiddenRule

------------------------------------------------------------
-- Sides Of Examples
------------------------------------------------------------

namespace HiddenRule

namespace Examples.FoundAmong

variable {rule : Rule}
variable {wantedPositive wantedNegative wanted : UInt64}
variable {boards : Nat → Board}
variable {most : Nat}
variable {examples : Examples}

/- Positive examples follow the rule. -/
theorem positives_follow
    (hFound :
      FoundAmong rule wantedPositive wantedNegative boards
        most examples) :
    ∀ board ∈ examples.positives.toList,
      rule.follows board = true := by
  intro board hBoard
  rw [hFound.positives_eq] at hBoard
  exact (List.mem_filter.mp (List.mem_of_mem_take hBoard)).2

/- Negative examples break it. -/
theorem negatives_break
    (hFound :
      FoundAmong rule wantedPositive wantedNegative boards
        most examples) :
    ∀ board ∈ examples.negatives.toList,
      rule.follows board = false := by
  intro board hBoard
  rw [hFound.negatives_eq] at hBoard
  have hKept :=
    (List.mem_filter.mp (List.mem_of_mem_take hBoard)).2
  simpa using hKept

/- There are no more positive examples than wanted. -/
theorem length_positives_le
    (hFound :
      FoundAmong rule wantedPositive wantedNegative boards
        most examples) :
    examples.positives.toList.length ≤
      wantedPositive.toNat := by
  rw [hFound.positives_eq]
  exact List.length_take_le _ _

/- Nor are there more negative ones. -/
theorem length_negatives_le
    (hFound :
      FoundAmong rule wantedPositive wantedNegative boards
        most examples) :
    examples.negatives.toList.length ≤
      wantedNegative.toNat := by
  rw [hFound.negatives_eq]
  exact List.length_take_le _ _

/- Boards of one side are none of the other. -/
private theorem countP_other_side
    {others : List Board}
    {side : Bool}
    (hOther :
      ∀ board ∈ others, rule.follows board = !side) :
    (others.countP fun board =>
      rule.follows board == side) = 0 := by
  rw [List.countP_eq_zero]
  intro board hBoard
  rw [hOther board hBoard]
  simp

/- Examples have no more boards of a side than wanted. -/
theorem countP_follows_le
    (hFound :
      FoundAmong rule wanted wanted boards most examples)
    (side : Bool) :
    (examples.toList.countP fun board =>
        rule.follows board == side) ≤ wanted.toNat := by
  rw [hFound.toList_eq, List.countP_append]
  cases side with
  | true =>
      have hNegatives :
          (examples.negatives.toList.countP fun board =>
            rule.follows board == true) = 0 :=
        countP_other_side hFound.negatives_break
      rw [hNegatives]
      exact Nat.le_trans List.countP_le_length
        hFound.length_positives_le
  | false =>
      have hPositives :
          (examples.positives.toList.countP fun board =>
            rule.follows board == false) = 0 :=
        countP_other_side hFound.positives_follow
      rw [hPositives, Nat.zero_add]
      exact Nat.le_trans List.countP_le_length
        hFound.length_negatives_le

end Examples.FoundAmong

end HiddenRule

------------------------------------------------------------
-- Mixed Decks
------------------------------------------------------------

namespace HiddenRule

namespace Deck

/-
  A deck mixes both answers if some board of it follows the
  rule and some board breaks it.
-/
def Mixes
    (deck : Deck)
    (rule : Rule) : Prop :=
  (∃ board ∈ deck.boards, rule.follows board = true) ∧
    ∃ board ∈ deck.boards, rule.follows board = false

/- A deck all of one answer has that many boards of it. -/
private theorem exists_board_of_counts
    {deck : Deck}
    {rule : Rule}
    {side : Bool}
    (hFew :
      (deck.boards.countP fun board =>
        rule.follows board == !side) < deck.size) :
    ∃ board,
      board ∈ deck.boards ∧ rule.follows board = side := by
  apply Classical.byContradiction
  intro hNone
  apply Nat.lt_irrefl deck.size
  have hAll :
      (deck.boards.countP fun board =>
        rule.follows board == !side) = deck.size := by
    apply List.countP_eq_length.mpr
    intro board hBoard
    have hOther : rule.follows board ≠ side := by
      intro hSide
      exact hNone ⟨board, hBoard, hSide⟩
    rw [Bool.eq_not_of_ne hOther, beq_self_eq_true]
  rw [hAll] at hFew
  exact hFew

/-
  If fewer boards of either side were there than the deck
  has, it mixes both.
-/
theorem mixes_of_counts
    {deck : Deck}
    {rule : Rule}
    (hFew :
      ∀ side,
        (deck.boards.countP fun board =>
          rule.follows board == side) < deck.size) :
    deck.Mixes rule :=
  ⟨exists_board_of_counts (hFew _),
    exists_board_of_counts (hFew _)⟩

end Deck

end HiddenRule

------------------------------------------------------------
-- The Same Guess
------------------------------------------------------------

namespace HiddenRule

/- Before the first other answer all are the same. -/
private theorem exists_first_other
    {answers : List Bool}
    {guess : Bool}
    (hOther : (!guess) ∈ answers) :
    ∃ index,
      answers[index]? = some (!guess) ∧
        answers.take index = List.replicate index guess := by
  induction answers with
  | nil => exact absurd hOther List.not_mem_nil
  | cons answer answers ih =>
      by_cases hSame : answer = guess
      · have hLater : (!guess) ∈ answers := by
          rcases List.mem_cons.mp hOther with hHere | hLater
          · rw [hSame] at hHere
            exact absurd hHere (by simp)
          · exact hLater
        rcases ih hLater with ⟨index, hAnswer, hEarlier⟩
        refine ⟨index + 1, hAnswer, ?_⟩
        rw [List.take_succ_cons, hEarlier, hSame]
        rfl
      · refine ⟨0, ?_, rfl⟩
        rw [Bool.eq_not_of_ne hSame]
        rfl

/- A mixed deck has a first board of the other side. -/
theorem Deck.Mixes.exists_first
    {deck : Deck}
    {rule : Rule}
    (hMixes : deck.Mixes rule)
    (guess : Bool) :
    ∃ index board,
      deck.boards[index]? = some board ∧
        rule.follows board = (!guess) ∧
        (deck.truths rule).take index =
          List.replicate index guess := by
  have hOther : (!guess) ∈ deck.truths rule := by
    rcases hMixes with
      ⟨⟨follower, hFollower, hTrue⟩,
        ⟨breaker, hBreaker, hFalse⟩⟩
    cases guess with
    | true =>
        exact List.mem_map.mpr ⟨breaker, hBreaker, hFalse⟩
    | false =>
        exact List.mem_map.mpr ⟨follower, hFollower, hTrue⟩
  rcases exists_first_other hOther with
    ⟨index, hTruth, hEarlier⟩
  rw [truths, List.getElem?_map, Option.map_eq_some_iff]
    at hTruth
  rcases hTruth with ⟨board, hBoard, hFollows⟩
  exact ⟨index, board, hBoard, hFollows, hEarlier⟩

namespace Round

/-
  Who always gives the same answer is struck at the first
  board of the other side, if there is one.
-/
theorem play_replicate_strikes
    {rule : Rule}
    {deck : Deck}
    (hMixes : deck.Mixes rule)
    (guess : Bool)
    {turns : Nat}
    (hTurns : deck.size ≤ turns) :
    ∃ outcomes last board,
      (start rule deck).play (List.replicate turns guess) =
          .ok (outcomes, last) ∧
        board ∈ deck.boards ∧
        some (.strike board (!guess)) ∈ outcomes ∧
        last.isFinished = true ∧ last.isPassed = false := by
  rcases (reached_start rule deck).leads
      (List.replicate turns guess) with
    ⟨last, hLeads⟩
  rcases hMixes.exists_first guess with
    ⟨index, board, hBoard, hFollows, hEarlier⟩
  have hObserved := hLeads.observed
  have hTranscribed :=
    transcribed_transcript rule deck
      (List.replicate turns guess)
  have hIndex := Deck.lt_size_of_board hBoard
  have hRight :
      (List.replicate turns guess).take index =
        (deck.truths rule).take index := by
    rw [List.take_replicate, hEarlier,
      Nat.min_eq_left (by omega)]
  have hGuess :
      (List.replicate turns guess)[index]? =
        some (!rule.follows board) := by
    rw [hFollows, Bool.not_not]
    apply List.getElem?_replicate_of_lt
    omega
  have hStruck :=
    hTranscribed.strike index board hBoard hRight hGuess
  rw [hFollows] at hStruck
  have hMember := List.mem_of_getElem? hStruck
  refine ⟨_, last, board, hLeads.played,
    List.mem_of_getElem? hBoard, hMember, ?_, ?_⟩
  · exact hObserved.finished_iff.mpr
      (Or.inr ⟨_, hMember, rfl⟩)
  · apply Bool.eq_false_iff.mpr
    intro hPassed
    have hAll := (hObserved.passed_iff.mp hPassed).2
    have hTruth := Deck.truth_of_board rule hBoard
    rw [← hAll, List.getElem?_take_of_lt hIndex, hGuess]
      at hTruth
    simp at hTruth

end Round

end HiddenRule

------------------------------------------------------------
-- Dealt Decks
------------------------------------------------------------

namespace HiddenRule

namespace Deck

/-
  How a deck of at most so many boards comes from examples:
  it has some of their boards, as many as there are up to
  that number.  If it is full it mixes both answers, and who
  always gives the same one is struck.
-/
structure DealtFrom
    (rule : Rule)
    (count : UInt64)
    (examples : Examples)
    (deck : Deck) : Prop where
  boards_among :
    ∃ rest, (deck.boards ++ rest).Perm examples.toList
  size_eq : deck.size = min count.toNat examples.size
  mixes :
    deck.size = count.toNat →
      1 ≤ count.toNat →
        deck.Mixes rule
  strikes :
    deck.size = count.toNat →
      1 ≤ count.toNat →
        ∀ guess turns,
          deck.size ≤ turns →
            ∃ outcomes last board,
              (Round.start rule deck).play
                  (List.replicate turns guess) =
                .ok (outcomes, last) ∧
              board ∈ deck.boards ∧
              some (.strike board (!guess)) ∈ outcomes ∧
              last.isFinished = true ∧
              last.isPassed = false

/- How many boards of each side a deck is dealt from. -/
def perSide
    (count : UInt64) : UInt64 :=
  UInt64.ofNat (count.toNat - 1)

theorem toNat_perSide
    (count : UInt64) :
    (perSide count).toNat = count.toNat - 1 := by
  apply UInt64.toNat_ofNat_of_lt
  exact Nat.lt_of_le_of_lt (Nat.sub_le _ 1) count.toNat_lt

/- The first of the shuffled examples are a dealt deck. -/
theorem dealtFrom_of_perm
    {rule : Rule}
    {count : UInt64}
    {boards : Nat → Board}
    {most : Nat}
    {examples : Examples}
    {shuffled : List Board}
    (hFound :
      examples.FoundAmong rule (perSide count)
        (perSide count) boards most)
    (hPerm : shuffled.Perm examples.toList) :
    DealtFrom rule count examples (ofFirst shuffled count) := by
  have hAmong :
      ((ofFirst shuffled count).boards ++
          shuffled.drop count.toNat).Perm examples.toList := by
    rw [ofFirst, List.take_append_drop]
    exact hPerm
  have hMixes :
      (ofFirst shuffled count).size = count.toNat →
        1 ≤ count.toNat →
          (ofFirst shuffled count).Mixes rule := by
    intro hFull hOne
    apply mixes_of_counts
    intro side
    -- One side has a board less than the deck.
    have hSide := hFound.countP_follows_le side
    rw [← hAmong.countP_eq, List.countP_append,
      toNat_perSide] at hSide
    omega
  refine ⟨⟨_, hAmong⟩, ?_, hMixes, ?_⟩
  · have hLength := hPerm.length_eq
    simp only [size, ofFirst, List.length_take, hLength,
      Examples.size, Examples.toList, List.length_append,
      Array.length_toList]
  · intro hFull hOne guess turns hTurns
    exact Round.play_replicate_strikes (hMixes hFull hOne)
      guess hTurns

/- A deal shuffles the examples and takes the first ones. -/
theorem deal_of_examples
    {sampler : Sampler}
    {rule : Rule}
    {count : UInt64}
    {stream next : Stream}
    {memory : Nat}
    {examples : Examples}
    (hExamples :
      sampler.examples rule (perSide count) (perSide count)
        stream memory = .ok (examples, next)) :
    deal sampler rule count stream memory =
      .ok (ofFirst (next.shuffle examples.toList).1 count,
        (next.shuffle examples.toList).2) := by
  rw [deal, ← perSide, hExamples, ok_bind]
  dsimp only
  generalize next.shuffle examples.toList = drawn
  rcases drawn with ⟨shuffled, last⟩
  rfl

/-
  In any memory with room for them, a deal shuffles examples
  of which each side has one board less than the deck is to
  have, and takes the first ones.  Without room for so many
  examples there is no deck.
-/
theorem deal_mixes
    (sampler : Sampler)
    (rule : Rule)
    (count : UInt64)
    (stream : Stream)
    (memory : Nat) :
    (Examples.Fits memory (perSide count) (perSide count) →
      ∃ examples next deck last,
        sampler.examples rule (perSide count)
            (perSide count) stream memory =
          .ok (examples, next) ∧
          deal sampler rule count stream memory =
            .ok (deck, last) ∧
            DealtFrom rule count examples deck) ∧
      (¬ Examples.Fits memory (perSide count)
          (perSide count) →
        ∃ fault,
          Examples.Refuses memory (perSide count)
              (perSide count) fault ∧
            deal sampler rule count stream memory =
              .error fault) := by
  constructor
  · intro hFits
    rcases sampler.examples_of_fits rule stream hFits with
      ⟨examples, hExamples, hFound⟩
    exact ⟨examples, _, _, _, hExamples,
      deal_of_examples hExamples,
      dealtFrom_of_perm hFound
        (Stream.shuffle_perm examples.toList _)⟩
  · intro hFull
    rcases sampler.examples_of_not_fits rule stream hFull with
      ⟨fault, hRefused, hError⟩
    refine ⟨fault, hRefused, ?_⟩
    rw [deal, ← perSide, hError]
    rfl

/-
  Of a board of each side a mixed deck is dealt, in a memory
  that gives no block for more than one board.
-/
theorem deal_two_mixes :
    let sampler : Sampler := { settings := {}, valid := rfl }
    let rule : Rule :=
      .existential (.colorNoun .blue) (.row .middle)
    let memory := Examples.boardBytes
    Examples.Fits memory (perSide 2) (perSide 2) ∧
      ∃ deck last,
        deal sampler rule 2 (.ofSeed 4) memory =
            .ok (deck, last) ∧
          deck.size = 2 ∧ deck.Mixes rule := by
  intro sampler rule memory
  have hFits :
      Examples.Fits memory (perSide 2) (perSide 2) := by
    decide
  have hTwo :
      (deal sampler rule 2 (.ofSeed 4) memory).map
          (fun dealt => dealt.1.size) = .ok 2 := by
    decide +kernel
  rcases (deal_mixes sampler rule 2 (.ofSeed 4) memory).1
      hFits with
    ⟨_, _, deck, last, _, hDeal, hDealt⟩
  rw [hDeal] at hTwo
  have hSize : deck.size = 2 := Except.ok.inj hTwo
  exact ⟨hFits, deck, last, hDeal, hSize,
    hDealt.mixes hSize (by decide)⟩

/-
  Room for 2^63 - 1 boards of a side cannot be asked for in
  any memory, although only one is tried and would make a
  deck.
-/
theorem deal_without_room :
    let sampler : Sampler :=
      { settings := { maxAttempts := 1 }, valid := rfl }
    let rule : Rule :=
      .universal .emptyCellNoun .emptyCellNoun
    let count : UInt64 := 9223372036854775808
    (∀ memory,
      deal sampler rule count (.ofSeed 4) memory =
        .error .capacityOverflow) ∧
      (sampler.search rule (perSide count) (perSide count)
          (.ofSeed 4)).map
          (fun found => min count.toNat found.1.size) =
        .ok 1 := by
  constructor
  · intro memory
    rfl
  · decide +kernel

end Deck

end HiddenRule
