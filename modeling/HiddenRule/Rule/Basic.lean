import HiddenRule.Rule.Group
import HiddenRule.Rule.GroupPredicate

/-
  This file defines rules: the statements that a board
  follows or breaks.

  Key definitions include:
    * `Rule`
    * `Rule.evaluate`
    * `Rule.words` and `Rule.describe`
    * `Rule.constructor` and `Rule.variant`
-/

namespace HiddenRule

------------------------------------------------------------
-- Rules
------------------------------------------------------------

/- A statement about a whole board. -/
inductive Rule where
| universal : (noun predicate : Predicate) → Rule
| existential : (noun predicate : Predicate) → Rule
| negativeUniversal : (noun predicate : Predicate) → Rule
| grouped : Group → GroupPredicate → Rule
| line : Axis → Predicate → Rule
deriving DecidableEq, Repr, Inhabited

namespace Rule

/- Whether some cell passes two tests. -/
def someCell
    (board : Board)
    (noun predicate : Predicate) : Except Fault Bool :=
  Cell.all.anyM fun cell => do
    if ← noun.holdsAt board cell then
      predicate.holdsAt board cell
    else
      return false

/-
  Whether a board follows a rule: every, some or no cell
  that is the noun passes the predicate; every group that
  is not empty passes the test; or all cells of some line
  are the noun.
-/
def evaluate
    (board : Board) : Rule → Except Fault Bool
| .universal noun predicate =>
    Cell.all.allM fun cell => do
      if ← noun.holdsAt board cell then
        predicate.holdsAt board cell
      else
        return true
| .existential noun predicate =>
    someCell board noun predicate
| .negativeUniversal noun predicate => do
    let found ← someCell board noun predicate
    return !found
| .grouped group predicate => do
    let groups ← group.groups board
    (groups.filter fun cells => !cells.isEmpty).allM
      fun cells => predicate.holdsOn board cells
| .line axis noun =>
    axis.lines.anyM fun line =>
      line.allM (noun.holdsAt board)

------------------------------------------------------------
-- Wording
------------------------------------------------------------

/- The words of a rule. -/
def words : Rule → List String
| .universal noun predicate =>
    ["Every"] ++ noun.words .singular ++
      ["is"] ++ predicate.words .singular
| .existential noun predicate =>
    ["There", "is", "a"] ++ noun.words .singular ++
      ["that", "is"] ++ predicate.words .singular
| .negativeUniversal noun predicate =>
    ["No"] ++ noun.words .singular ++
      ["is"] ++ predicate.words .singular
| .grouped group predicate =>
    group.words ++ predicate.words
| .line axis noun =>
    ["There", "is", "a", axis.name, "filled", "with"] ++
      noun.words .plural

/- The sentence of a rule. -/
def describe
    (rule : Rule) : String :=
  phrase rule.words

------------------------------------------------------------
-- Parts
------------------------------------------------------------

/- The constructor of a rule. -/
def constructor : Rule → Constructor
| .universal _ _ => .universal
| .existential _ _ => .existential
| .negativeUniversal _ _ => .negativeUniversal
| .grouped _ _ => .groupRule
| .line _ _ => .lineRule

/- The number of the flavor of a rule. -/
def variant : Rule → Nat
| .line axis _ => axis.index
| _ => 0

end Rule

end HiddenRule
