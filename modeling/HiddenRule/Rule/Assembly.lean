import HiddenRule.Grammar.BuildError
import HiddenRule.Rule.Fragment

/-
  This file defines how a fragment is put together from a
  constructor, the number of a flavor, and its children.

  A constructor with a flavor is a skeleton, a fragment with
  open slots.  The children fill the slots from left to
  right.  A flavor out of range is reported first, then the
  first slot without a fitting child, then the surplus of
  children.

  Key definitions include:
    * `Skeleton`
    * `Constructor.skeleton?`
    * `Skeleton.fill`
    * `Fragment.assemble`
-/

namespace HiddenRule

------------------------------------------------------------
-- Skeletons
------------------------------------------------------------

/- A fragment with open slots. -/
inductive Skeleton where
| leaf : Fragment → Skeleton
| onPredicate : (Predicate → Fragment) → Skeleton
| onPredicates :
    (Predicate → Predicate → Fragment) → Skeleton
| onGroup : (Group → GroupPredicate → Fragment) → Skeleton

namespace Constructor

/- A skeleton with the one flavor 0. -/
def plain
    (variant : Nat)
    (skeleton : Skeleton) : Option Skeleton :=
  if variant = 0 then some skeleton else none

/- The skeleton of a constructor in a flavor. -/
def skeleton? :
    Constructor → (variant : Nat) → Option Skeleton
| .universal, v =>
    plain v (.onPredicates fun noun p =>
      .rule (.universal noun p))
| .existential, v =>
    plain v (.onPredicates fun noun p =>
      .rule (.existential noun p))
| .negativeUniversal, v =>
    plain v (.onPredicates fun noun p =>
      .rule (.negativeUniversal noun p))
| .groupRule, v =>
    plain v (.onGroup fun g q => .rule (.grouped g q))
| .lineRule, v =>
    (Axis.ofIndex? v).map fun axis =>
      .onPredicate fun noun => .rule (.line axis noun)
| .colorNoun, v =>
    (Color.ofIndex? v).map fun c =>
      .leaf (.predicate (.colorNoun c))
| .shapeNoun, v =>
    (Shape.ofIndex? v).map fun s =>
      .leaf (.predicate (.shapeNoun s))
| .rowNoun, v =>
    (Row.ofIndex? v).map fun r =>
      .leaf (.predicate (.rowNoun r))
| .columnNoun, v =>
    (Column.ofIndex? v).map fun c =>
      .leaf (.predicate (.columnNoun c))
| .emptyCellNoun, v =>
    plain v (.leaf (.predicate .emptyCellNoun))
| .colorPredicate, v =>
    (Color.ofIndex? v).map fun c =>
      .leaf (.predicate (.color c))
| .shapePredicate, v =>
    (Shape.ofIndex? v).map fun s =>
      .leaf (.predicate (.shape s))
| .rowPredicate, v =>
    (Row.ofIndex? v).map fun r =>
      .leaf (.predicate (.row r))
| .columnPredicate, v =>
    (Column.ofIndex? v).map fun c =>
      .leaf (.predicate (.column c))
| .adjacencyPredicate, v =>
    plain v (.onPredicate fun noun =>
      .predicate (.adjacentTo noun))
| .colorGroup, v => plain v (.leaf (.group .color))
| .shapeGroup, v => plain v (.leaf (.group .shape))
| .identicalGroup, v =>
    plain v (.leaf (.group .identical))
| .lineGroup, v =>
    (Axis.ofIndex? v).map fun axis =>
      .leaf (.group (.line axis))
| .adjacentGroup, v =>
    plain v (.leaf (.group .adjacent))
| .colorGroupPredicate, v =>
    plain v (.leaf (.groupPredicate .sameColor))
| .shapeGroupPredicate, v =>
    plain v (.leaf (.groupPredicate .sameShape))
| .colorDistinctGroupPredicate, v =>
    plain v (.leaf (.groupPredicate .distinctColors))
| .shapeDistinctGroupPredicate, v =>
    plain v (.leaf (.groupPredicate .distinctShapes))
| .colorShapeGroupPredicate, v =>
    plain v (.leaf (.groupPredicate .sameColorOrShape))
| .contiguousGroupPredicate, v =>
    plain v (.leaf (.groupPredicate .contiguous))

end Constructor

------------------------------------------------------------
-- Slots
------------------------------------------------------------

namespace Skeleton

/-
  Take the child for a slot, read in the role that the slot
  asks for; the other children stay.
-/
def takeChild
    {α : Type}
    (constructor : Constructor)
    (slot : Nat)
    (expected : Role)
    (view : Fragment → Option α)
    (children : List Fragment) :
    Except BuildError (α × List Fragment) :=
  match children with
  | [] =>
      .error (.childMismatch constructor slot expected none)
  | child :: rest =>
      match view child with
      | some part => .ok (part, rest)
      | none =>
          .error (.childMismatch constructor slot expected
            (some child.role))

/- No child may be left over. -/
def finish
    (constructor : Constructor)
    (taken : Nat)
    (rest : List Fragment)
    (fragment : Fragment) : Except BuildError Fragment :=
  if rest.isEmpty then
    .ok fragment
  else
    .error (.childCount constructor taken
      (taken + rest.length))

/- Fill the slots of a skeleton with children. -/
def fill
    (constructor : Constructor)
    (children : List Fragment) :
    Skeleton → Except BuildError Fragment
| .leaf fragment =>
    finish constructor 0 children fragment
| .onPredicate build => do
    let (p, rest) ←
      takeChild constructor 0 .predicate
        Fragment.asPredicate? children
    finish constructor 1 rest (build p)
| .onPredicates build => do
    let (p, rest) ←
      takeChild constructor 0 .predicate
        Fragment.asPredicate? children
    let (q, rest) ←
      takeChild constructor 1 .predicate
        Fragment.asPredicate? rest
    finish constructor 2 rest (build p q)
| .onGroup build => do
    let (g, rest) ←
      takeChild constructor 0 .group
        Fragment.asGroup? children
    let (q, rest) ←
      takeChild constructor 1 .groupPredicate
        Fragment.asGroupPredicate? rest
    finish constructor 2 rest (build g q)

end Skeleton

------------------------------------------------------------
-- Assembly
------------------------------------------------------------

namespace Fragment

/- The fragment with given parts. -/
def assemble
    (constructor : Constructor)
    (variant : Nat)
    (children : List Fragment) :
    Except BuildError Fragment :=
  match constructor.skeleton? variant with
  | none =>
      .error (.malformedVariant constructor variant
        constructor.flavors)
  | some skeleton => skeleton.fill constructor children

end Fragment

end HiddenRule
