import HiddenRule.Challenge.Deck

/-
  This file defines the rounds in which a player says of
  each board of a deck whether it follows the rule.

  A round ends with the first wrong answer or with the last
  board.

  Key definitions include:
    * `Outcome`
    * `Round`
    * `Round.current?`
    * `Round.submit`
-/

namespace HiddenRule

------------------------------------------------------------
-- Outcomes
------------------------------------------------------------

/-
  What an answer leads to: boards remain, the deck is done,
  or the answer was wrong and the board is as told.
-/
inductive Outcome where
| correct : (remaining : Nat) → Outcome
| passed : Outcome
| strike : Board → (actual : Bool) → Outcome
deriving DecidableEq, Repr

------------------------------------------------------------
-- Rounds
------------------------------------------------------------

/- A walk through a deck. -/
structure Round where
  rule : Rule
  deck : Deck
  answered : Nat
  struck : Bool
deriving DecidableEq, Repr

namespace Round

/- The round before the first answer. -/
def start
    (rule : Rule)
    (deck : Deck) : Round where
  rule := rule
  deck := deck
  answered := 0
  struck := false

/- The board that waits for an answer. -/
def current?
    (round : Round) : Option Board :=
  if round.struck then
    none
  else
    round.deck.boards[round.answered]?

/- Whether no board waits for an answer. -/
def isFinished
    (round : Round) : Bool :=
  round.current?.isNone

/- Whether every board was answered rightly. -/
def isPassed
    (round : Round) : Bool :=
  !round.struck && !round.deck.isEmpty &&
    round.answered == round.deck.size

/- Answer a board: does it follow the rule? -/
def answer
    (round : Round)
    (board : Board)
    (guess : Bool) :
    Except Fault (Outcome × Round) := do
  let actual ← round.rule.evaluate board
  if guess = actual then
    let answered ← Checked.add 64 round.answered 1
    let remaining ← Checked.sub round.deck.size answered
    let outcome : Outcome :=
      if remaining = 0 then .passed else .correct remaining
    return (outcome, { round with answered })
  else
    return (.strike board actual,
      { round with struck := true })

/-
  Answer the board that waits.  When the round is over
  nothing happens.
-/
def submit
    (round : Round)
    (guess : Bool) :
    Except Fault (Option Outcome × Round) :=
  match round.current? with
  | none => .ok (none, round)
  | some board => do
      let (outcome, round) ← round.answer board guess
      return (some outcome, round)

end Round

end HiddenRule
