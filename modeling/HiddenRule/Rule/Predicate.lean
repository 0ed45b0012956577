import HiddenRule.Board.Basic
import HiddenRule.Grammar.Constructor

/-
  This file defines the tests of a single cell.

  A noun is such a test in the place of a subject, as in
  "every red symbol is ..."; nouns and predicates differ in
  their wording, and a noun that names a row or column asks
  for a symbol in the cell besides.

  Every test looks at the cell first, so a test of a cell
  off the board is a fault.

  Key definitions include:
    * `Number`
    * `Predicate`
    * `Predicate.holdsAt`
    * `Predicate.words`
    * `Predicate.constructor` and `Predicate.variant`
-/

namespace HiddenRule

------------------------------------------------------------
-- Number
------------------------------------------------------------

/- Grammatical number. -/
inductive Number where
| singular
| plural
deriving DecidableEq, Repr, Inhabited

/- The sentence or phrase that words make up. -/
def phrase
    (words : List String) : String :=
  " ".intercalate words

------------------------------------------------------------
-- Predicates
------------------------------------------------------------

/- A test of one cell. -/
inductive Predicate where
| colorNoun : Color → Predicate
| shapeNoun : Shape → Predicate
| rowNoun : Row → Predicate
| columnNoun : Column → Predicate
| emptyCellNoun : Predicate
| color : Color → Predicate
| shape : Shape → Predicate
| row : Row → Predicate
| column : Column → Predicate
| adjacentTo : Predicate → Predicate
deriving DecidableEq, Repr, Inhabited

namespace Predicate

/-
  Whether the content of a cell passes a test.  A cell is
  next to a noun if one of its neighbors is such a noun.
-/
def holdsAt
    (board : Board) :
    Predicate → Cell → Except Fault Bool
| .colorNoun c, cell => do
    let symbol ← board.get cell
    return symbol.color? == some c
| .shapeNoun s, cell => do
    let symbol ← board.get cell
    return symbol.shape? == some s
| .rowNoun r, cell => do
    let symbol ← board.get cell
    return !symbol.isEmpty && r.contains cell
| .columnNoun c, cell => do
    let symbol ← board.get cell
    return !symbol.isEmpty && c.contains cell
| .emptyCellNoun, cell => do
    let symbol ← board.get cell
    return symbol.isEmpty
| .color c, cell => do
    let symbol ← board.get cell
    return symbol.color? == some c
| .shape s, cell => do
    let symbol ← board.get cell
    return symbol.shape? == some s
| .row r, cell => do
    let _ ← board.get cell
    return r.contains cell
| .column c, cell => do
    let _ ← board.get cell
    return c.contains cell
| .adjacentTo noun, cell => do
    let _ ← board.get cell
    (Cell.neighbors cell).anyM (holdsAt board noun)

------------------------------------------------------------
-- Wording
------------------------------------------------------------

/- One symbol or several. -/
def symbolWord : Number → String
| .singular => "symbol"
| .plural => "symbols"

/- The words of a test. -/
def words : Predicate → Number → List String
| .colorNoun c, number =>
    [c.name, symbolWord number]
| .shapeNoun s, .singular => [s.name]
| .shapeNoun s, .plural => [s.pluralName]
| .rowNoun r, number =>
    [symbolWord number, "in", "the", r.name, "row"]
| .columnNoun c, number =>
    [symbolWord number, "in", "the", c.name, "column"]
| .emptyCellNoun, .singular => ["blank", "cell"]
| .emptyCellNoun, .plural => ["blank", "cells"]
| .color c, _ => [c.name]
| .shape s, .singular => ["a", s.name]
| .shape s, .plural => [s.pluralName]
| .row r, _ => ["in", "the", r.name, "row"]
| .column c, _ => ["in", "the", c.name, "column"]
| .adjacentTo noun, .singular =>
    "next" :: "to" :: "a" :: words noun .singular
| .adjacentTo noun, .plural =>
    "next" :: "to" :: words noun .plural

/- The phrase of a test. -/
def describe
    (predicate : Predicate)
    (number : Number) : String :=
  phrase (predicate.words number)

------------------------------------------------------------
-- Parts
------------------------------------------------------------

/- The constructor of a test. -/
def constructor : Predicate → Constructor
| .colorNoun _ => .colorNoun
| .shapeNoun _ => .shapeNoun
| .rowNoun _ => .rowNoun
| .columnNoun _ => .columnNoun
| .emptyCellNoun => .emptyCellNoun
| .color _ => .colorPredicate
| .shape _ => .shapePredicate
| .row _ => .rowPredicate
| .column _ => .columnPredicate
| .adjacentTo _ => .adjacencyPredicate

/- The number of the flavor of a test. -/
def variant : Predicate → Nat
| .colorNoun c => c.index
| .shapeNoun s => s.index
| .rowNoun r => r.index
| .columnNoun c => c.index
| .emptyCellNoun => 0
| .color c => c.index
| .shape s => s.index
| .row r => r.index
| .column c => c.index
| .adjacentTo _ => 0

end Predicate

end HiddenRule
