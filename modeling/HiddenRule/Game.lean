import HiddenRule.Grammar.Standard
import HiddenRule.Log

/-
  This file defines games.

  A game owns a grammar, its settings, and two streams of
  random words.  Rules are drawn from the one and boards
  from the other, so the rules of a seed do not depend on
  the examples that were asked for.

  Key definitions include:
    * `StartError`
    * `Game`
    * `Game.start`
    * `Answer`
    * `Game.newRule`
    * `Game.examples` and `Game.example?`
    * `Game.dealChallenge`
-/

namespace HiddenRule

------------------------------------------------------------
-- Games
------------------------------------------------------------

/- Why a game cannot begin. -/
inductive StartError where
| settings : SettingsError → StartError
| grammar : BuildError → StartError
deriving DecidableEq, Repr

namespace StartError

/- The words in which it is reported. -/
def message : StartError → String
| .settings error => error.message
| .grammar error => "invalid grammar: " ++ error.message

end StartError

/-
  A grammar, settings, the machine that the game runs on, its
  seed, and the streams that derive from that.
-/
structure Game where
  grammar : Grammar
  settings : Settings
  sampler : Sampler
  machine : Machine
  seed : UInt64
  ruleStream : Stream
  exampleStream : Stream

/- What a game answers, and what it writes to its log. -/
structure Answer
    (α : Type) where
  value : α
  game : Game
  records : List Record

namespace Game

------------------------------------------------------------
-- Starting
------------------------------------------------------------

/-
  Begin a game.  The settings are looked at before the
  grammar.  Without a fixed seed a given one is used.
-/
def start
    (grammar : Grammar)
    (settings : Settings)
    (otherwise : UInt64)
    (machine : Machine := .usual)
    (order : KindOrder := .usual) :
    Except StartError Game := do
  settings.validate.mapError .settings
  (grammar.validate order).mapError .grammar
  let sampler ←
    (Sampler.ofSettings settings.sampling).mapError .settings
  let seed := settings.seed.getD otherwise
  let base := Stream.ofSeed seed
  return {
    grammar
    settings
    sampler
    machine
    seed
    ruleStream := base.forContext "rules"
    exampleStream := base.forContext "examples" }

/- The record of the start of a game. -/
def startRecord
    (game : Game) : Record :=
  .ready game.seed game.grammar

------------------------------------------------------------
-- Playing
------------------------------------------------------------

/- A new rule. -/
def newRule
    (game : Game) : Answer (Except Stop Rule) :=
  let expansion :=
    game.grammar.newRule game.machine.depth game.ruleStream
  let choices := expansion.chosen.map ChosenEntry.record
  let told :=
    match expansion.result with
    | .ok rule => [.newRule rule]
    | .error _ => []
  { value := expansion.result
    game := { game with ruleStream := expansion.stream }
    records := choices ++ told }

/- Example boards for a rule, so many of each side. -/
def examples
    (game : Game)
    (rule : Rule)
    (wantedPositive wantedNegative : UInt64) :
    Except Fault (Answer Examples) := do
  let (examples, stream) ←
    game.sampler.examples rule wantedPositive wantedNegative
      game.exampleStream game.machine.memory
  return {
    value := examples
    game := { game with exampleStream := stream }
    records := examples.records rule }

/- One board that follows a rule, or one that breaks it. -/
def example?
    (game : Game)
    (rule : Rule)
    (follows : Bool) :
    Except Fault (Answer (Option Board)) := do
  let answer ←
    if follows then
      game.examples rule 1 0
    else
      game.examples rule 0 1
  return {
    value := answer.value.toList.head?
    game := answer.game
    records := answer.records }

/- A round with a new deck for a rule. -/
def dealChallenge
    (game : Game)
    (rule : Rule) : Except Fault (Answer Round) := do
  let count := game.settings.challengeCount
  let (deck, stream) ←
    Deck.deal game.sampler rule count game.exampleStream
      game.machine.memory
  return {
    value := .start rule deck
    game := { game with exampleStream := stream }
    records := deck.records rule count }

end Game

end HiddenRule
