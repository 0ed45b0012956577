import HiddenRule.Label

/-
  This file defines the vocabulary of the grammar of rules.

  A constructor names one way to build a node of a rule.  It
  belongs to a kind, the grammatical category it is drawn
  for, and each kind plays a role, the way its nodes are
  used when a board is looked at.  Nouns and predicates are
  two kinds with one role.

  Key definitions include:
    * `Role`
    * `Kind` and `Kind.role`
    * `Constructor`
    * `Constructor.kind`
    * `Constructor.childRoles`
    * `Constructor.flavors`
-/

namespace HiddenRule

------------------------------------------------------------
-- Roles
------------------------------------------------------------

/- What a node is asked when a board is looked at. -/
inductive Role where
| rule
| predicate
| group
| groupPredicate
deriving DecidableEq, Repr, Inhabited

namespace Role

/- The English word for a role. -/
def text : Role → String
| .rule => "rule"
| .predicate => "predicate"
| .group => "group"
| .groupPredicate => "group predicate"

instance : Labelled Role where
  all := [.rule, .predicate, .group, .groupPredicate]
  label
  | .rule => "Rule"
  | .predicate => "Predicate"
  | .group => "Group"
  | .groupPredicate => "GroupPredicate"

end Role

------------------------------------------------------------
-- Kinds
------------------------------------------------------------

/- The grammatical categories. -/
inductive Kind where
| rule
| noun
| predicate
| group
| groupPredicate
deriving DecidableEq, Repr, Inhabited

namespace Kind

/- Every kind, in order. -/
def all : List Kind :=
  [.rule, .noun, .predicate, .group, .groupPredicate]

/- The role that nodes of a kind play. -/
def role : Kind → Role
| .rule => .rule
| .noun => .predicate
| .predicate => .predicate
| .group => .group
| .groupPredicate => .groupPredicate

/- The name of a kind in messages. -/
def text : Kind → String
| .rule => "RULE"
| .noun => "NOUN"
| .predicate => "PREDICATE"
| .group => "GROUP"
| .groupPredicate => "GROUP_PREDICATE"

instance : Labelled Kind where
  all := all
  label
  | .rule => "Rule"
  | .noun => "Noun"
  | .predicate => "Predicate"
  | .group => "Group"
  | .groupPredicate => "GroupPredicate"

end Kind

------------------------------------------------------------
-- Constructors
------------------------------------------------------------

/- The ways to build a node. -/
inductive Constructor where
| universal
| existential
| negativeUniversal
| groupRule
| lineRule
| colorNoun
| shapeNoun
| rowNoun
| columnNoun
| emptyCellNoun
| colorPredicate
| shapePredicate
| rowPredicate
| columnPredicate
| adjacencyPredicate
| colorGroup
| shapeGroup
| identicalGroup
| lineGroup
| adjacentGroup
| colorGroupPredicate
| shapeGroupPredicate
| colorDistinctGroupPredicate
| shapeDistinctGroupPredicate
| colorShapeGroupPredicate
| contiguousGroupPredicate
deriving DecidableEq, Repr, Inhabited

namespace Constructor

/- Every constructor, kind by kind. -/
def all : List Constructor :=
  [.universal, .existential, .negativeUniversal, .groupRule,
   .lineRule, .colorNoun, .shapeNoun, .rowNoun, .columnNoun,
   .emptyCellNoun, .colorPredicate, .shapePredicate,
   .rowPredicate, .columnPredicate, .adjacencyPredicate,
   .colorGroup, .shapeGroup, .identicalGroup, .lineGroup,
   .adjacentGroup, .colorGroupPredicate,
   .shapeGroupPredicate, .colorDistinctGroupPredicate,
   .shapeDistinctGroupPredicate, .colorShapeGroupPredicate,
   .contiguousGroupPredicate]

/- The name of a constructor, stored and in messages. -/
def name : Constructor → String
| .universal => "Universal"
| .existential => "Existential"
| .negativeUniversal => "NegativeUniversal"
| .groupRule => "GroupRule"
| .lineRule => "LineRule"
| .colorNoun => "ColorNoun"
| .shapeNoun => "ShapeNoun"
| .rowNoun => "RowNoun"
| .columnNoun => "ColumnNoun"
| .emptyCellNoun => "EmptyCellNoun"
| .colorPredicate => "ColorPredicate"
| .shapePredicate => "ShapePredicate"
| .rowPredicate => "RowPredicate"
| .columnPredicate => "ColumnPredicate"
| .adjacencyPredicate => "AdjacencyPredicate"
| .colorGroup => "ColorGroup"
| .shapeGroup => "ShapeGroup"
| .identicalGroup => "IdenticalGroup"
| .lineGroup => "LineGroup"
| .adjacentGroup => "AdjacentGroup"
| .colorGroupPredicate => "ColorGroupPredicate"
| .shapeGroupPredicate => "ShapeGroupPredicate"
| .colorDistinctGroupPredicate =>
    "ColorDistinctGroupPredicate"
| .shapeDistinctGroupPredicate =>
    "ShapeDistinctGroupPredicate"
| .colorShapeGroupPredicate => "ColorShapeGroupPredicate"
| .contiguousGroupPredicate => "ContiguousGroupPredicate"

/- The kind of the nodes that a constructor builds. -/
def kind : Constructor → Kind
| .universal
| .existential
| .negativeUniversal
| .groupRule
| .lineRule => .rule
| .colorNoun
| .shapeNoun
| .rowNoun
| .columnNoun
| .emptyCellNoun => .noun
| .colorPredicate
| .shapePredicate
| .rowPredicate
| .columnPredicate
| .adjacencyPredicate => .predicate
| .colorGroup
| .shapeGroup
| .identicalGroup
| .lineGroup
| .adjacentGroup => .group
| .colorGroupPredicate
| .shapeGroupPredicate
| .colorDistinctGroupPredicate
| .shapeDistinctGroupPredicate
| .colorShapeGroupPredicate
| .contiguousGroupPredicate => .groupPredicate

/- The roles of the children of a node, slot by slot. -/
def childRoles : Constructor → List Role
| .universal
| .existential
| .negativeUniversal => [.predicate, .predicate]
| .groupRule => [.group, .groupPredicate]
| .lineRule
| .adjacencyPredicate => [.predicate]
| _ => []

/-
  The number of flavors in which a node comes: three colors,
  shapes, rows or columns, two directions, or just one.
-/
def flavors : Constructor → Nat
| .colorNoun
| .shapeNoun
| .rowNoun
| .columnNoun
| .colorPredicate
| .shapePredicate
| .rowPredicate
| .columnPredicate => 3
| .lineRule
| .lineGroup => 2
| _ => 1

instance : Labelled Constructor where
  all := all
  label := name

end Constructor

end HiddenRule
