import HiddenRule.Json.Stored
import HiddenRule.Rule.Fragment

/-
  This file defines how rules and their parts are stored.

  A rule or a part of one is a variant, named for what it
  says.

  Key definitions include:
    * `Predicate.encode` and `Predicate.decode`
    * `Group.encode` and `Group.decode`
    * `Rule.encode` and `Rule.decode`
    * `Fragment.encode` and `Fragment.decode`
-/

namespace HiddenRule

------------------------------------------------------------
-- Predicates
------------------------------------------------------------

namespace Predicate

/- The stored form of a test of one cell. -/
def encode : Predicate → Json
| .colorNoun c => .ofVariant "ColorNoun" (Stored.encode c)
| .shapeNoun s => .ofVariant "ShapeNoun" (Stored.encode s)
| .rowNoun r => .ofVariant "RowNoun" (Stored.encode r)
| .columnNoun c => .ofVariant "ColumnNoun" (Stored.encode c)
| .emptyCellNoun => .ofString "EmptyCellNoun"
| .color c => .ofVariant "Color" (Stored.encode c)
| .shape s => .ofVariant "Shape" (Stored.encode s)
| .row r => .ofVariant "Row" (Stored.encode r)
| .column c => .ofVariant "Column" (Stored.encode c)
| .adjacentTo noun => .ofVariant "AdjacentTo" noun.encode

/- A test without a test inside it, from its content. -/
def decodeFlat
    (depth : Nat)
    (name : String)
    (content : Json) : Option Predicate :=
  match name with
  | "ColorNoun" =>
      (Stored.decode depth content).map .colorNoun
  | "ShapeNoun" =>
      (Stored.decode depth content).map .shapeNoun
  | "RowNoun" =>
      (Stored.decode depth content).map .rowNoun
  | "ColumnNoun" =>
      (Stored.decode depth content).map .columnNoun
  | "EmptyCellNoun" =>
      match content with
      | .null => some .emptyCellNoun
      | _ => none
  | "Color" => (Stored.decode depth content).map .color
  | "Shape" => (Stored.decode depth content).map .shape
  | "Row" => (Stored.decode depth content).map .row
  | "Column" => (Stored.decode depth content).map .column
  | _ => none

/-
  The test of one cell in its stored form.  A test inside it
  is one level deeper.
-/
def decode :
    (depth : Nat) → (value : Json) → Option Predicate
| 0, value => do
    let (name, content) ← value.variant? 0
    decodeFlat 0 name content
| depth + 1, value => do
    match ← value.variant? (depth + 1) with
    | ("AdjacentTo", content) =>
        (decode depth content).map .adjacentTo
    | (name, content) => decodeFlat depth name content

instance : Stored Predicate where
  encode := encode
  decode := decode

end Predicate

------------------------------------------------------------
-- Groups
------------------------------------------------------------

namespace Group

/- The stored form of a grouping. -/
def encode : Group → Json
| .color => .ofString "Color"
| .shape => .ofString "Shape"
| .identical => .ofString "Identical"
| .line axis => .ofVariant "Line" (Stored.encode axis)
| .adjacent => .ofString "Adjacent"

/- The grouping in its stored form. -/
def decode
    (depth : Nat)
    (value : Json) : Option Group := do
  match ← value.variant? depth with
  | ("Color", .null) => some .color
  | ("Shape", .null) => some .shape
  | ("Identical", .null) => some .identical
  | ("Line", content) =>
      (Stored.decode (depth - 1) content).map .line
  | ("Adjacent", .null) => some .adjacent
  | _ => none

instance : Stored Group where
  encode := encode
  decode := decode

end Group

------------------------------------------------------------
-- Rules
------------------------------------------------------------

namespace Rule

/- The stored form of a noun and a predicate. -/
def encodePair
    (noun predicate : Predicate) : Json :=
  .ofPair "noun" "predicate" noun predicate

/- A rule about a noun and a predicate in stored form. -/
def decodePair
    (make : Predicate → Predicate → Rule) :
    (depth : Nat) → Json → Option Rule :=
  Json.pair? "noun" "predicate" make

/- The stored form of a rule. -/
def encode : Rule → Json
| .universal noun p =>
    .ofVariant "Universal" (encodePair noun p)
| .existential noun p =>
    .ofVariant "Existential" (encodePair noun p)
| .negativeUniversal noun p =>
    .ofVariant "NegativeUniversal" (encodePair noun p)
| .grouped g q =>
    .ofVariant "Grouped" (.ofPair "group" "predicate" g q)
| .line axis noun =>
    .ofVariant "Line" (.ofPair "axis" "noun" axis noun)

/- The rule in its stored form. -/
def decode
    (depth : Nat)
    (value : Json) : Option Rule := do
  match ← value.variant? depth with
  | ("Universal", content) =>
      decodePair .universal (depth - 1) content
  | ("Existential", content) =>
      decodePair .existential (depth - 1) content
  | ("NegativeUniversal", content) =>
      decodePair .negativeUniversal (depth - 1) content
  | ("Grouped", content) =>
      content.pair? "group" "predicate" grouped (depth - 1)
  | ("Line", content) =>
      content.pair? "axis" "noun" line (depth - 1)
  | _ => none

instance : Stored Rule where
  encode := encode
  decode := decode

end Rule

------------------------------------------------------------
-- Fragments
------------------------------------------------------------

namespace Fragment

/- The stored form of a fragment: its role and itself. -/
def encode : Fragment → Json
| .rule r => .ofVariant "Rule" r.encode
| .predicate p => .ofVariant "Predicate" p.encode
| .group g => .ofVariant "Group" g.encode
| .groupPredicate q =>
    .ofVariant "GroupPredicate" (Stored.encode q)

/- The fragment in its stored form. -/
def decode
    (depth : Nat)
    (value : Json) : Option Fragment := do
  match ← value.variant? depth with
  | ("Rule", content) =>
      (Stored.decode (depth - 1) content).map .rule
  | ("Predicate", content) =>
      (Stored.decode (depth - 1) content).map .predicate
  | ("Group", content) =>
      (Stored.decode (depth - 1) content).map .group
  | ("GroupPredicate", content) =>
      (Stored.decode (depth - 1) content).map .groupPredicate
  | _ => none

instance : Stored Fragment where
  encode := encode
  decode := decode

end Fragment

end HiddenRule
