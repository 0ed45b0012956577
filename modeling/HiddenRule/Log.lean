import HiddenRule.Challenge.Round
import HiddenRule.Grammar.Expansion

/-
  This file defines the records that a game writes to its
  log.

  Key definitions include:
    * `Level`
    * `Record`
    * `ChosenEntry.record`
    * `Examples.records` and `Deck.records`
    * `Outcome.records`
-/

namespace HiddenRule

------------------------------------------------------------
-- Records
------------------------------------------------------------

/- How much a record matters. -/
inductive Level where
| trace
| debug
| info
| warn
deriving DecidableEq, Repr

namespace Level

/- The name of a level. -/
def name : Level → String
| .trace => "TRACE"
| .debug => "DEBUG"
| .info => "INFO"
| .warn => "WARN"

end Level

/- A line of the log: a message and named values. -/
structure Record where
  level : Level
  message : String
  fields : List (String × String) := []
deriving DecidableEq, Repr

------------------------------------------------------------
-- What Is Recorded
------------------------------------------------------------

/- The record of a choice in an expansion. -/
def ChosenEntry.record
    (choice : ChosenEntry) : Record where
  level := .trace
  message := "chose grammar entry"
  fields :=
    [("kind", choice.kind.text),
     ("constructor", choice.constructor.name),
     ("used", choice.used.text)]

/- The record of a game that can begin. -/
def Record.ready
    (seed : UInt64)
    (grammar : Grammar) : Record where
  level := .debug
  message := "engine ready"
  fields :=
    [("seed", Numeral.decimal seed.toNat),
     ("entries", Numeral.decimal grammar.size)]

/- The record of a new rule. -/
def Record.newRule
    (rule : Rule) : Record where
  level := .debug
  message := "The rule is: " ++ rule.describe

/- A set of examples is recorded if it is short. -/
def Examples.records
    (examples : Examples)
    (rule : Rule) : List Record :=
  if examples.isComplete then
    []
  else
    [{ level := .warn
       message := "example synthesis ran out of attempts"
       fields :=
         [("rule", rule.describe),
          ("positives",
            Numeral.decimal examples.positives.size),
          ("negatives",
            Numeral.decimal examples.negatives.size),
          ("wanted_positive",
            Numeral.decimal examples.wantedPositive.toNat),
          ("wanted_negative",
            Numeral.decimal examples.wantedNegative.toNat),
          ("attempts",
            Numeral.decimal examples.attempts.toNat)] }]

/- A deck is recorded if it is short of a count. -/
def Deck.records
    (deck : Deck)
    (rule : Rule)
    (count : UInt64) : List Record :=
  if deck.size < count.toNat then
    [{ level := .warn
       message := "challenge deck is short"
       fields :=
         [("rule", rule.describe),
          ("dealt", Numeral.decimal deck.size)] }]
  else
    []

/- Say that a board was taken for the opposite. -/
def Outcome.strikeMessage
    (actual : Bool) : String :=
  let valid := if actual then "valid" else "invalid"
  let pressed := if actual then "N" else "Y"
  "This was " ++ valid ++ " but you pressed " ++ pressed ++
    " - Strike!"

/- The end of a round is recorded. -/
def Outcome.records : Outcome → List Record
| .correct _ => []
| .passed => [{ level := .info, message := "Solved!" }]
| .strike board actual =>
    let lines :=
      ["The grid was:"] ++ Board.tableLines board.toList ++
        [strikeMessage actual]
    lines.map fun line => { level := .info, message := line }

end HiddenRule
