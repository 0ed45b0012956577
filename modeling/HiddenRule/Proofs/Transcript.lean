import HiddenRule.Challenge.Round
import HiddenRule.Proofs.Evaluation

/-
  This file proves what a round answers to any row of
  guesses.

  The boards of the deck have true answers.  While all
  guesses are true the round goes on to the last board; the
  first false guess is a strike.  After either nothing
  happens any more.

  Main declarations:
    * `Deck.truths`, `Round.play` and `Round.transcript`
    * `Round.Reached` and `Round.Reached.continues`
    * `Round.Leads` and `Round.Reached.leads`
    * `Round.Transcribed` and `Round.Observed`
    * `Round.play_follows_transcript`
-/

------------------------------------------------------------
-- Rows Of Guesses
------------------------------------------------------------

namespace HiddenRule

/- The true answers to the boards of a deck. -/
def Deck.truths
    (deck : Deck)
    (rule : Rule) : List Bool :=
  deck.boards.map rule.follows

theorem Deck.length_truths
    (deck : Deck)
    (rule : Rule) :
    (deck.truths rule).length = deck.size := by
  simp [truths, size]

/- The true answer to a board of the deck. -/
theorem Deck.truth_of_board
    {deck : Deck}
    {index : Nat}
    {board : Board}
    (rule : Rule)
    (hBoard : deck.boards[index]? = some board) :
    (deck.truths rule)[index]? =
      some (rule.follows board) := by
  rw [truths, List.getElem?_map, hBoard]
  rfl

theorem Deck.lt_size_of_board
    {deck : Deck}
    {index : Nat}
    {board : Board}
    (hBoard : deck.boards[index]? = some board) :
    index < deck.size :=
  (List.getElem?_eq_some_iff.mp hBoard).1

namespace Round

/- Submit guesses one after another. -/
def play
    (round : Round) :
    List Bool →
      Except Fault (List (Option Outcome) × Round)
| [] => .ok ([], round)
| guess :: guesses => do
    let (outcome, next) ← round.submit guess
    let (outcomes, last) ← play next guesses
    return (outcome :: outcomes, last)

/- The outcome of a guess for the board at an index. -/
def judge
    (rule : Rule)
    (deck : Deck)
    (index : Nat)
    (board : Board)
    (guess : Bool) : Outcome :=
  if guess = rule.follows board then
    if index + 1 = deck.size then
      .passed
    else
      .correct (deck.size - (index + 1))
  else
    .strike board (rule.follows board)

/-
  The outcome of a guess after earlier ones: if all of them
  were true, the next board is judged.
-/
def expected
    (rule : Rule)
    (deck : Deck)
    (earlier : List Bool)
    (guess : Bool) : Option Outcome :=
  if earlier = (deck.truths rule).take earlier.length then
    deck.boards[earlier.length]?.map fun board =>
      judge rule deck earlier.length board guess
  else
    none

/- The outcomes of guesses, one after another. -/
def transcript
    (rule : Rule)
    (deck : Deck)
    (earlier : List Bool) :
    List Bool → List (Option Outcome)
| [] => []
| guess :: guesses =>
    expected rule deck earlier guess ::
      transcript rule deck (earlier ++ [guess]) guesses

/- Whether an outcome accepts a guess. -/
def accepts : Option Outcome → Bool
| some (.correct _) => true
| some .passed => true
| _ => false

/- Whether an outcome ends the round. -/
def ends : Option Outcome → Bool
| some .passed => true
| some (.strike _ _) => true
| _ => false

/-
  What is known of a round after guesses.  A round that was
  struck stands at a false guess; one that was not has taken
  all guesses, or as many as there are boards.
-/
structure Reached
    (rule : Rule)
    (deck : Deck)
    (guesses : List Bool)
    (round : Round) : Prop where
  rule_eq : round.rule = rule
  deck_eq : round.deck = deck
  answered_le : round.answered ≤ deck.size
  right :
    guesses.take round.answered =
      (deck.truths rule).take round.answered
  all_taken :
    round.struck = false →
      round.answered = min guesses.length deck.size
  wrong :
    round.struck = true →
      round.answered < deck.size ∧
        round.answered < guesses.length ∧
          guesses[round.answered]? ≠
            (deck.truths rule)[round.answered]?

theorem reached_start
    (rule : Rule)
    (deck : Deck) :
    Reached rule deck [] (start rule deck) where
  rule_eq := rfl
  deck_eq := rfl
  answered_le := Nat.zero_le _
  right := rfl
  all_taken := fun _ => (Nat.zero_min _).symm
  wrong := fun hStruck => nomatch hStruck

end Round

end HiddenRule

------------------------------------------------------------
-- One Guess
------------------------------------------------------------

namespace HiddenRule

namespace Round

variable {rule : Rule}
variable {deck : Deck}
variable {earlier : List Bool}
variable {round : Round}

/- A round without a strike ends with its deck. -/
theorem isFinished_of_open
    (hOpen : round.struck = false) :
    round.isFinished =
      decide (round.deck.size ≤ round.answered) := by
  rw [Bool.eq_iff_iff, decide_eq_true_iff]
  simp [isFinished, current?, hOpen, Deck.size]

/- A struck round is over. -/
theorem isFinished_of_struck
    (hStruck : round.struck = true) :
    round.isFinished = true := by
  simp [isFinished, current?, hStruck]

/- A finished round has no board to answer. -/
theorem submit_of_finished
    (guess : Bool)
    (hFinished : round.isFinished = true) :
    round.submit guess = .ok (none, round) := by
  have hCurrent : round.current? = none :=
    Option.isNone_iff_eq_none.mp hFinished
  unfold submit
  rw [hCurrent]

/- A true guess goes on to the next board. -/
theorem submit_of_right
    {board : Board}
    (hOpen : round.struck = false)
    (hBoard :
      round.deck.boards[round.answered]? = some board) :
    round.submit (round.rule.follows board) =
      .ok
        (some (judge round.rule round.deck round.answered
          board (round.rule.follows board)),
        { round with answered := round.answered + 1 }) := by
  have hCurrent : round.current? = some board := by
    simp [current?, hOpen, hBoard]
  have hLt := Deck.lt_size_of_board hBoard
  have hFits : round.answered + 1 < twoPow 64 :=
    Nat.lt_of_le_of_lt hLt round.deck.length_lt
  unfold submit
  rw [hCurrent]
  unfold answer judge
  dsimp only
  rw [round.rule.evaluate_eq, ok_bind, if_pos rfl, if_pos rfl,
    Checked.add_of_lt hFits, ok_bind,
    Checked.sub_of_le hLt, ok_bind]
  have hRemaining :
      round.deck.size - (round.answered + 1) = 0 ↔
        round.answered + 1 = round.deck.size := by
    omega
  by_cases hLast : round.answered + 1 = round.deck.size
  · rw [if_pos (hRemaining.mpr hLast), if_pos hLast]
    rfl
  · rw [if_neg (fun h => hLast (hRemaining.mp h)),
      if_neg hLast]
    rfl

/- A false guess is a strike. -/
theorem submit_of_wrong
    {board : Board}
    {guess : Bool}
    (hOpen : round.struck = false)
    (hBoard :
      round.deck.boards[round.answered]? = some board)
    (hWrong : guess ≠ round.rule.follows board) :
    round.submit guess =
      .ok
        (some (judge round.rule round.deck round.answered
          board guess),
        { round with struck := true }) := by
  have hCurrent : round.current? = some board := by
    simp [current?, hOpen, hBoard]
  unfold submit
  rw [hCurrent]
  unfold answer judge
  dsimp only
  rw [round.rule.evaluate_eq, ok_bind, if_neg hWrong,
    if_neg hWrong]
  rfl

/- Right guesses are accepted, and only those. -/
theorem accepts_judge
    (rule : Rule)
    (deck : Deck)
    (index : Nat)
    (board : Board)
    (guess : Bool) :
    accepts (some (judge rule deck index board guess)) =
      decide (guess = rule.follows board) := by
  unfold judge
  by_cases hGuess : guess = rule.follows board
  · by_cases hLast : index + 1 = deck.size
    · simp [hGuess, hLast, accepts]
    · simp [hGuess, hLast, accepts]
  · simp [hGuess, accepts]

/- A false guess ends the round, and so does the last one. -/
theorem ends_judge
    (rule : Rule)
    (deck : Deck)
    (index : Nat)
    (board : Board)
    (guess : Bool) :
    ends (some (judge rule deck index board guess)) =
      (!decide (guess = rule.follows board) ||
        decide (index + 1 = deck.size)) := by
  unfold judge
  by_cases hGuess : guess = rule.follows board
  · by_cases hLast : index + 1 = deck.size
    · simp [hGuess, hLast, ends]
    · simp [hGuess, hLast, ends]
  · simp [hGuess, ends]

/- Guesses in a struck round are expected to do nothing. -/
private theorem expected_of_wrong
    (guess : Bool)
    {index : Nat}
    (hIndex : index < earlier.length)
    (hWrong :
      earlier[index]? ≠ (deck.truths rule)[index]?) :
    expected rule deck earlier guess = none := by
  unfold expected
  apply if_neg
  intro hRight
  apply hWrong
  rw [hRight, List.getElem?_take_of_lt hIndex]

/- So are guesses behind the end of the deck. -/
private theorem expected_of_done
    (guess : Bool)
    (hDone : deck.size ≤ earlier.length) :
    expected rule deck earlier guess = none := by
  unfold expected
  have hNone : deck.boards[earlier.length]? = none :=
    List.getElem?_eq_none hDone
  simp [hNone]

/- After true guesses the next board is judged. -/
private theorem expected_of_right
    {board : Board}
    (guess : Bool)
    (hRight :
      earlier = (deck.truths rule).take earlier.length)
    (hBoard : deck.boards[earlier.length]? = some board) :
    expected rule deck earlier guess =
      some (judge rule deck earlier.length board guess) := by
  unfold expected
  rw [if_pos hRight, hBoard]
  rfl

end Round

end HiddenRule

------------------------------------------------------------
-- One More Guess
------------------------------------------------------------

namespace HiddenRule

namespace Round

/-
  One more guess has the expected outcome.  It counts as
  answered if it is accepted, and the round is finished then
  if it was before or if the outcome ends it.
-/
structure Continues
    (rule : Rule)
    (deck : Deck)
    (earlier : List Bool)
    (round : Round)
    (guess : Bool)
    (next : Round) : Prop where
  submitted :
    round.submit guess =
      .ok (expected rule deck earlier guess, next)
  reached : Reached rule deck (earlier ++ [guess]) next
  answered_eq :
    next.answered =
      round.answered +
        if accepts (expected rule deck earlier guess) then
          1
        else
          0
  finished_eq :
    next.isFinished =
      (round.isFinished ||
        ends (expected rule deck earlier guess))

variable {rule : Rule}
variable {deck : Deck}
variable {earlier : List Bool}
variable {round : Round}

/- Where nothing is expected the round stays as it is. -/
private theorem continues_of_none
    {guess : Bool}
    (hExpected : expected rule deck earlier guess = none)
    (hFinished : round.isFinished = true)
    (hReached :
      Reached rule deck (earlier ++ [guess]) round) :
    Continues rule deck earlier round guess round := by
  constructor
  case submitted =>
    rw [hExpected]
    exact submit_of_finished guess hFinished
  case reached => exact hReached
  case answered_eq =>
    rw [hExpected]
    rfl
  case finished_eq =>
    rw [hExpected]
    simp [ends]

private theorem Reached.continues_of_struck
    (hReached : Reached rule deck earlier round)
    (guess : Bool)
    (hStruck : round.struck = true) :
    Continues rule deck earlier round guess round := by
  rcases hReached.wrong hStruck with
    ⟨hSize, hLength, hWrong⟩
  have hExpected :
      expected rule deck earlier guess = none :=
    expected_of_wrong guess hLength hWrong
  have hLonger :
      round.answered < (earlier ++ [guess]).length := by
    rw [List.length_append]
    omega
  apply continues_of_none hExpected
    (isFinished_of_struck hStruck)
  constructor
  case rule_eq => exact hReached.rule_eq
  case deck_eq => exact hReached.deck_eq
  case answered_le => exact hReached.answered_le
  case right =>
    rw [List.take_append_of_le_length
      (Nat.le_of_lt hLength)]
    exact hReached.right
  case all_taken =>
    intro hOpen
    rw [hStruck] at hOpen
    exact nomatch hOpen
  case wrong =>
    intro _
    rw [List.getElem?_append_left hLength]
    exact ⟨hSize, hLonger, hWrong⟩

private theorem Reached.continues_of_done
    (hReached : Reached rule deck earlier round)
    (guess : Bool)
    (hOpen : round.struck = false)
    (hDone : deck.size ≤ earlier.length) :
    Continues rule deck earlier round guess round := by
  have hExpected :
      expected rule deck earlier guess = none :=
    expected_of_done guess hDone
  have hAnswered : round.answered = deck.size := by
    rw [hReached.all_taken hOpen]
    exact Nat.min_eq_right hDone
  have hFinished : round.isFinished = true := by
    rw [isFinished_of_open hOpen, hReached.deck_eq, hAnswered]
    exact decide_eq_true (Nat.le_refl _)
  apply continues_of_none hExpected hFinished
  constructor
  case rule_eq => exact hReached.rule_eq
  case deck_eq => exact hReached.deck_eq
  case answered_le => exact hReached.answered_le
  case right =>
    rw [List.take_append_of_le_length (by omega)]
    exact hReached.right
  case all_taken =>
    intro _
    rw [List.length_append]
    omega
  case wrong =>
    intro hStruck
    rw [hOpen] at hStruck
    exact nomatch hStruck

/-
  Where a board waits for a guess, all earlier guesses were
  true.
-/
structure Waits
    (rule : Rule)
    (deck : Deck)
    (earlier : List Bool)
    (round : Round)
    (board : Board) : Prop where
  not_struck : round.struck = false
  answered_eq : round.answered = earlier.length
  board_eq : deck.boards[earlier.length]? = some board
  right : earlier = (deck.truths rule).take earlier.length

theorem Reached.waits
    (hReached : Reached rule deck earlier round)
    (hOpen : round.struck = false)
    (hBoards : earlier.length < deck.boards.length) :
    Waits rule deck earlier round
      deck.boards[earlier.length] := by
  have hAnswered : round.answered = earlier.length := by
    rw [hReached.all_taken hOpen]
    exact Nat.min_eq_left (Nat.le_of_lt hBoards)
  have hRight := hReached.right
  rw [hAnswered, List.take_length] at hRight
  exact ⟨hOpen, hAnswered, List.getElem?_eq_getElem hBoards,
    hRight⟩

private theorem Reached.continues_of_right
    {board : Board}
    {guess : Bool}
    (hReached : Reached rule deck earlier round)
    (hWaits : Waits rule deck earlier round board)
    (hGuess : guess = rule.follows board) :
    ∃ next, Continues rule deck earlier round guess next := by
  rcases hReached with ⟨rfl, rfl, -, -, -, -⟩
  rcases hWaits with ⟨hOpen, hAnswered, hBoard, hRight⟩
  have hSize := Deck.lt_size_of_board hBoard
  have hTruth := Deck.truth_of_board round.rule hBoard
  have hLonger :
      (earlier ++ [guess]).length = earlier.length + 1 := by
    rw [List.length_append, List.length_singleton]
  have hExpected := expected_of_right guess hRight hBoard
  rw [← hAnswered] at hBoard
  have hSubmit := submit_of_right hOpen hBoard
  rw [← hGuess] at hSubmit
  refine ⟨{ round with answered := round.answered + 1 }, ?_⟩
  constructor
  case submitted =>
    rw [hExpected, hSubmit, hAnswered]
  case answered_eq =>
    rw [hExpected, accepts_judge, decide_eq_true hGuess]
    rfl
  case finished_eq =>
    rw [hExpected, ends_judge, decide_eq_true hGuess]
    have hNext :
        isFinished
            { round with answered := round.answered + 1 } =
          decide (round.deck.size ≤ round.answered + 1) :=
      isFinished_of_open hOpen
    rw [hNext, isFinished_of_open hOpen, hAnswered,
      Bool.eq_iff_iff]
    simp
    omega
  case reached =>
    constructor
    case rule_eq => rfl
    case deck_eq => rfl
    case answered_le =>
      dsimp only
      omega
    case right =>
      dsimp only
      rw [hAnswered, ← hLonger, List.take_length, hLonger,
        List.take_add_one, hTruth, ← hRight, hGuess]
      rfl
    case all_taken =>
      intro _
      dsimp only
      rw [hAnswered, hLonger]
      exact (Nat.min_eq_left hSize).symm
    case wrong =>
      intro hStruck
      rw [hOpen] at hStruck
      exact nomatch hStruck

private theorem Reached.continues_of_strike
    {board : Board}
    {guess : Bool}
    (hReached : Reached rule deck earlier round)
    (hWaits : Waits rule deck earlier round board)
    (hGuess : guess ≠ rule.follows board) :
    ∃ next, Continues rule deck earlier round guess next := by
  rcases hReached with ⟨rfl, rfl, -, -, -, -⟩
  rcases hWaits with ⟨hOpen, hAnswered, hBoard, hRight⟩
  have hSize := Deck.lt_size_of_board hBoard
  have hTruth := Deck.truth_of_board round.rule hBoard
  have hExpected := expected_of_right guess hRight hBoard
  rw [← hAnswered] at hBoard
  refine ⟨{ round with struck := true }, ?_⟩
  constructor
  case submitted =>
    rw [hExpected, submit_of_wrong hOpen hBoard hGuess,
      hAnswered]
  case answered_eq =>
    rw [hExpected, accepts_judge, decide_eq_false hGuess]
    rfl
  case finished_eq =>
    rw [hExpected, ends_judge, decide_eq_false hGuess]
    simp [isFinished, current?]
  case reached =>
    constructor
    case rule_eq => rfl
    case deck_eq => rfl
    case answered_le =>
      dsimp only
      omega
    case right =>
      dsimp only
      rw [hAnswered, List.take_left]
      exact hRight
    case all_taken => exact fun hStruck => nomatch hStruck
    case wrong =>
      intro _
      dsimp only
      rw [hAnswered, List.length_append,
        List.getElem?_concat_length, hTruth]
      refine ⟨hSize, Nat.lt_succ_self _, ?_⟩
      intro hSame
      exact hGuess (Option.some.inj hSame)

/- One more guess keeps what is known of a round. -/
theorem Reached.continues
    (hReached : Reached rule deck earlier round)
    (guess : Bool) :
    ∃ next, Continues rule deck earlier round guess next := by
  cases hStruck : round.struck with
  | true =>
      exact ⟨round,
        hReached.continues_of_struck guess hStruck⟩
  | false =>
      by_cases hDone : deck.size ≤ earlier.length
      · exact ⟨round,
          hReached.continues_of_done guess hStruck hDone⟩
      · have hBoards : earlier.length < deck.boards.length :=
          Nat.lt_of_not_le hDone
        have hWaits := hReached.waits hStruck hBoards
        by_cases hGuess :
            guess = rule.follows deck.boards[earlier.length]
        · exact hReached.continues_of_right hWaits hGuess
        · exact hReached.continues_of_strike hWaits hGuess

end Round

end HiddenRule

------------------------------------------------------------
-- A Row Of Guesses
------------------------------------------------------------

namespace HiddenRule

namespace Round

variable {rule : Rule}
variable {deck : Deck}

theorem length_transcript
    (earlier guesses : List Bool) :
    (transcript rule deck earlier guesses).length =
      guesses.length := by
  induction guesses generalizing earlier with
  | nil => rfl
  | cons guess guesses hGuesses =>
      simp only [transcript, List.length_cons, hGuesses]

theorem getElem?_transcript
    (earlier guesses : List Bool)
    (index : Nat) :
    (transcript rule deck earlier guesses)[index]? =
      guesses[index]?.map
        (expected rule deck
          (earlier ++ guesses.take index)) := by
  induction guesses generalizing earlier index with
  | nil => rfl
  | cons guess guesses hGuesses =>
      cases index with
      | zero => simp [transcript]
      | succ index => simp [transcript, hGuesses]

/-
  A row of guesses leads to the outcomes of the transcript
  and counts those that accept.
-/
structure Leads
    (rule : Rule)
    (deck : Deck)
    (earlier : List Bool)
    (round : Round)
    (guesses : List Bool)
    (last : Round) : Prop where
  played :
    round.play guesses =
      .ok (transcript rule deck earlier guesses, last)
  reached : Reached rule deck (earlier ++ guesses) last
  answered_eq :
    last.answered =
      round.answered +
        (transcript rule deck earlier guesses).countP accepts
  finished_eq :
    last.isFinished =
      (round.isFinished ||
        (transcript rule deck earlier guesses).any ends)

/-
  By induction on the guesses: each one keeps what is known
  of the round, so the next one meets the same situation.
-/
theorem Reached.leads
    {earlier : List Bool}
    {round : Round}
    (hReached : Reached rule deck earlier round)
    (guesses : List Bool) :
    ∃ last, Leads rule deck earlier round guesses last := by
  induction guesses generalizing earlier round with
  | nil =>
      refine ⟨round, ?_⟩
      constructor
      case played => rfl
      case reached =>
        rw [List.append_nil]
        exact hReached
      case answered_eq => rfl
      case finished_eq => simp [transcript]
  | cons guess guesses hGuesses =>
      rcases hReached.continues guess with ⟨next, hNext⟩
      rcases hGuesses hNext.reached with ⟨last, hLast⟩
      refine ⟨last, ?_⟩
      constructor
      case played =>
        unfold play
        rw [hNext.submitted, ok_bind]
        dsimp only
        rw [hLast.played]
        rfl
      case reached =>
        have hLater := hLast.reached
        rw [List.append_assoc] at hLater
        exact hLater
      case answered_eq =>
        rw [hLast.answered_eq, hNext.answered_eq]
        simp only [transcript, List.countP_cons]
        omega
      case finished_eq =>
        rw [hLast.finished_eq, hNext.finished_eq]
        simp only [transcript, List.any_cons, Bool.or_assoc]

/- Guesses for a finished round do nothing. -/
theorem play_of_finished
    {round : Round}
    (hFinished : round.isFinished = true)
    (guesses : List Bool) :
    round.play guesses =
      .ok (List.replicate guesses.length none, round) := by
  induction guesses with
  | nil => rfl
  | cons guess guesses hGuesses =>
      unfold play
      rw [submit_of_finished guess hFinished, ok_bind]
      dsimp only
      rw [hGuesses]
      rfl

end Round

end HiddenRule

------------------------------------------------------------
-- What The Outcomes Say
------------------------------------------------------------

namespace HiddenRule

namespace Round

/-
  The outcomes of a row of guesses, board by board.  While
  the guesses are true they tell how many boards remain, and
  the last one that the deck is passed; the first false one
  is a strike.  Then no board is left to judge.
-/
structure Transcribed
    (rule : Rule)
    (deck : Deck)
    (guesses : List Bool)
    (outcomes : List (Option Outcome)) : Prop where
  length_eq : outcomes.length = guesses.length
  correct :
    ∀ index,
      index + 1 < deck.size →
        guesses.take (index + 1) =
            (deck.truths rule).take (index + 1) →
          outcomes[index]? =
            some
              (some (.correct (deck.size - (index + 1))))
  passed :
    0 < deck.size →
      guesses.take deck.size = deck.truths rule →
        outcomes[deck.size - 1]? = some (some .passed)
  strike :
    ∀ index board,
      deck.boards[index]? = some board →
        guesses.take index =
            (deck.truths rule).take index →
          guesses[index]? = some (!rule.follows board) →
            outcomes[index]? =
              some
                (some (.strike board (rule.follows board)))
  ended :
    ∀ index later outcome,
      outcomes[index]? = some outcome →
        ends outcome = true →
          index < later →
            later < guesses.length →
              outcomes[later]? = some none
  empty :
    deck.isEmpty = true →
      ∀ index,
        index < guesses.length →
          outcomes[index]? = some none

/-
  What a round shows after a row of guesses.  The count and
  the end are those that the outcomes tell.
-/
structure Observed
    (rule : Rule)
    (deck : Deck)
    (guesses : List Bool)
    (outcomes : List (Option Outcome))
    (round : Round) : Prop where
  rule_eq : round.rule = rule
  deck_eq : round.deck = deck
  answered_eq : round.answered = outcomes.countP accepts
  answered_le : round.answered ≤ deck.size
  finished_iff :
    round.isFinished = true ↔
      deck.isEmpty = true ∨
        ∃ outcome, outcome ∈ outcomes ∧ ends outcome = true
  current_none :
    round.current? = none ↔ round.isFinished = true
  current_some :
    round.isFinished = false →
      ∃ board,
        round.current? = some board ∧
          deck.boards[round.answered]? = some board
  passed_iff :
    round.isPassed = true ↔
      0 < deck.size ∧
        guesses.take deck.size = deck.truths rule
  still :
    round.isFinished = true →
      ∀ more,
        round.play more =
          .ok (List.replicate more.length none, round)

variable {rule : Rule}
variable {deck : Deck}
variable {guesses : List Bool}

/- True guesses have their boards judged. -/
private theorem transcript_of_truth
    {index : Nat}
    {board : Board}
    {guess : Bool}
    (hBoard : deck.boards[index]? = some board)
    (hRight :
      guesses.take index = (deck.truths rule).take index)
    (hGuess : guesses[index]? = some guess) :
    (transcript rule deck [] guesses)[index]? =
      some (some (judge rule deck index board guess)) := by
  have hLength : (guesses.take index).length = index := by
    rw [List.length_take]
    have hLt := (List.getElem?_eq_some_iff.mp hGuess).1
    omega
  have hExpected :
      expected rule deck (guesses.take index) guess =
        some
          (judge rule deck (guesses.take index).length board
            guess) := by
    apply expected_of_right
    · rw [hLength]
      exact hRight
    · rw [hLength]
      exact hBoard
  rw [hLength] at hExpected
  rw [getElem?_transcript, List.nil_append, hGuess,
    Option.map_some, hExpected]

private theorem transcript_of_right
    {index : Nat}
    {board : Board}
    (hBoard : deck.boards[index]? = some board)
    (hRight :
      guesses.take (index + 1) =
        (deck.truths rule).take (index + 1)) :
    (transcript rule deck [] guesses)[index]? =
      some
        (some
          (judge rule deck index board
            (rule.follows board))) := by
  have hTruth := Deck.truth_of_board rule hBoard
  have hGuess :
      guesses[index]? = some (rule.follows board) := by
    rw [← hTruth,
      ← List.getElem?_take_of_lt (Nat.lt_succ_self index),
      hRight, List.getElem?_take_of_lt (Nat.lt_succ_self _)]
  have hEarlier :
      guesses.take index =
        (deck.truths rule).take index := by
    have hTake :=
      congrArg (fun row => List.take index row) hRight
    simpa [List.take_take] using hTake
  exact transcript_of_truth hBoard hEarlier hGuess

/-
  An outcome that ends the round is that of a false guess or
  of the last board.
-/
private theorem judged_of_ends
    {index : Nat}
    {outcome : Option Outcome}
    (hOutcome :
      (transcript rule deck [] guesses)[index]? =
        some outcome)
    (hEnds : ends outcome = true) :
    index < guesses.length ∧
      (guesses[index]? ≠ (deck.truths rule)[index]? ∨
        index + 1 = deck.size) := by
  rw [getElem?_transcript, List.nil_append] at hOutcome
  rcases Option.map_eq_some_iff.mp hOutcome with
    ⟨guess, hGuess, rfl⟩
  have hLt : index < guesses.length :=
    (List.getElem?_eq_some_iff.mp hGuess).1
  have hLength : (guesses.take index).length = index := by
    rw [List.length_take]
    omega
  refine ⟨hLt, ?_⟩
  unfold expected at hEnds
  rw [hLength] at hEnds
  split at hEnds
  case isFalse => exact nomatch hEnds
  case isTrue =>
    cases hBoard : deck.boards[index]? with
    | none =>
        rw [hBoard] at hEnds
        exact nomatch hEnds
    | some board =>
        rw [hBoard, Option.map_some, ends_judge] at hEnds
        have hTruth := Deck.truth_of_board rule hBoard
        rw [hGuess, hTruth]
        simpa using hEnds

/- After it no guess is judged. -/
private theorem transcript_of_ends
    {index later : Nat}
    {outcome : Option Outcome}
    (hOutcome :
      (transcript rule deck [] guesses)[index]? =
        some outcome)
    (hEnds : ends outcome = true)
    (hLater : index < later)
    (hLength : later < guesses.length) :
    (transcript rule deck [] guesses)[later]? =
      some none := by
  have hTaken : (guesses.take later).length = later := by
    rw [List.length_take]
    omega
  have hNone :
      expected rule deck (guesses.take later)
        guesses[later] = none := by
    -- A guess before was false, or no board is left.
    rcases judged_of_ends hOutcome hEnds with
      ⟨-, hWrong | hLast⟩
    · have hIndex : index < (guesses.take later).length := by
        rw [hTaken]
        exact hLater
      apply expected_of_wrong _ hIndex
      rw [List.getElem?_take_of_lt hLater]
      exact hWrong
    · apply expected_of_done
      omega
  rw [getElem?_transcript, List.nil_append,
    List.getElem?_eq_getElem hLength, Option.map_some, hNone]

/- The transcript says what it should. -/
theorem transcribed_transcript
    (rule : Rule)
    (deck : Deck)
    (guesses : List Bool) :
    Transcribed rule deck guesses
      (transcript rule deck [] guesses) := by
  constructor
  case length_eq => exact length_transcript [] guesses
  case correct =>
    intro index hIndex hRight
    have hLt : index < deck.boards.length :=
      Nat.lt_of_succ_lt hIndex
    have hBoard := List.getElem?_eq_getElem hLt
    rw [transcript_of_right hBoard hRight]
    unfold judge
    rw [if_pos rfl, if_neg (Nat.ne_of_lt hIndex)]
  case passed =>
    intro hSize hRight
    have hLt : deck.size - 1 < deck.boards.length :=
      Nat.sub_one_lt_of_lt hSize
    have hLast : deck.size - 1 + 1 = deck.size := by
      omega
    have hBoard := List.getElem?_eq_getElem hLt
    have hTaken :
        guesses.take (deck.size - 1 + 1) =
          (deck.truths rule).take (deck.size - 1 + 1) := by
      rw [hLast, hRight, ← deck.length_truths rule,
        List.take_length]
    rw [transcript_of_right hBoard hTaken]
    unfold judge
    rw [if_pos rfl, if_pos hLast]
  case strike =>
    intro index board hBoard hRight hGuess
    rw [transcript_of_truth hBoard hRight hGuess]
    unfold judge
    rw [if_neg (by simp)]
  case ended =>
    intro index later outcome hOutcome hEnds hLater hLength
    exact transcript_of_ends hOutcome hEnds hLater hLength
  case empty =>
    intro hEmpty index hIndex
    have hSize : deck.size = 0 := by
      simpa [Deck.isEmpty] using hEmpty
    rw [getElem?_transcript,
      List.getElem?_eq_getElem hIndex, Option.map_some,
      expected_of_done]
    omega

/- A round is passed by the true answers alone. -/
theorem Reached.isPassed_iff
    {round : Round}
    (hReached : Reached rule deck guesses round) :
    round.isPassed = true ↔
      0 < deck.size ∧
        guesses.take deck.size = deck.truths rule := by
  rcases hReached with
    ⟨-, rfl, -, hRight, hTaken, hWrong⟩
  have hTruths :
      (round.deck.truths rule).take round.deck.size =
        round.deck.truths rule := by
    rw [← round.deck.length_truths rule, List.take_length]
  constructor
  · intro hPassed
    have hParts :
        (round.struck = false ∧ ¬ round.deck.size = 0) ∧
          round.answered = round.deck.size := by
      simpa [isPassed, Deck.isEmpty] using hPassed
    rcases hParts with ⟨⟨-, hSize⟩, hAnswered⟩
    rw [hAnswered, hTruths] at hRight
    exact ⟨Nat.pos_of_ne_zero hSize, hRight⟩
  · intro ⟨hSize, hAll⟩
    have hOpen : round.struck = false := by
      cases hStruck : round.struck with
      | false => rfl
      | true =>
          rcases hWrong hStruck with ⟨hLt, -, hDiffers⟩
          apply absurd _ hDiffers
          rw [← hAll, List.getElem?_take_of_lt hLt]
    have hLength : round.deck.size ≤ guesses.length := by
      have hSame := congrArg List.length hAll
      rw [List.length_take, Deck.length_truths] at hSame
      omega
    have hAnswered : round.answered = round.deck.size := by
      rw [hTaken hOpen]
      exact Nat.min_eq_right hLength
    simp [isPassed, Deck.isEmpty, hOpen, hAnswered]
    omega

/- The round shows what the transcript tells. -/
theorem Leads.observed
    {last : Round}
    (hLeads :
      Leads rule deck [] (start rule deck) guesses last) :
    Observed rule deck guesses
      (transcript rule deck [] guesses) last := by
  rcases hLeads with ⟨-, hReached, hAnswered, hFinished⟩
  have hStart :
      (start rule deck).isFinished = deck.isEmpty := by
    rw [isFinished_of_open rfl, Bool.eq_iff_iff]
    simp [start, Deck.isEmpty]
  constructor
  case rule_eq => exact hReached.rule_eq
  case deck_eq => exact hReached.deck_eq
  case answered_eq =>
    rw [hAnswered]
    exact Nat.zero_add _
  case answered_le => exact hReached.answered_le
  case finished_iff =>
    rw [hFinished, hStart, Bool.or_eq_true, List.any_eq_true]
  case current_none => exact Option.isNone_iff_eq_none.symm
  case current_some =>
    intro hOpen
    unfold isFinished at hOpen
    cases hCurrent : last.current? with
    | none =>
        rw [hCurrent] at hOpen
        exact nomatch hOpen
    | some board =>
        refine ⟨board, rfl, ?_⟩
        unfold current? at hCurrent
        split at hCurrent
        · exact nomatch hCurrent
        · rw [← hReached.deck_eq]
          exact hCurrent
  case passed_iff => exact hReached.isPassed_iff
  case still => exact play_of_finished

/-
  From the start a row of guesses has the outcomes that the
  true answers give it, and the round shows what they tell.
-/
theorem play_follows_transcript
    (rule : Rule)
    (deck : Deck)
    (guesses : List Bool) :
    ∃ outcomes last,
      (start rule deck).play guesses = .ok (outcomes, last) ∧
        Transcribed rule deck guesses outcomes ∧
          Observed rule deck guesses outcomes last := by
  rcases (reached_start rule deck).leads guesses with
    ⟨last, hLeads⟩
  exact ⟨_, last, hLeads.played,
    transcribed_transcript rule deck guesses,
    hLeads.observed⟩

end Round

end HiddenRule
