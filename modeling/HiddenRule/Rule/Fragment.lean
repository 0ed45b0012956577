import HiddenRule.Rule.Basic

/-
  This file defines fragments: the nodes of a rule, whatever
  role they play.

  Key definitions include:
    * `Fragment`
    * `Fragment.role`
    * `Fragment.constructor` and `Fragment.variant`
    * `Fragment.children`
    * `Fragment.describe`
-/

namespace HiddenRule

------------------------------------------------------------
-- Fragments
------------------------------------------------------------

/- A rule or a part of one. -/
inductive Fragment where
| rule : Rule → Fragment
| predicate : Predicate → Fragment
| group : Group → Fragment
| groupPredicate : GroupPredicate → Fragment
deriving DecidableEq, Repr, Inhabited

namespace Fragment

/- The role that a fragment plays. -/
def role : Fragment → Role
| .rule _ => .rule
| .predicate _ => .predicate
| .group _ => .group
| .groupPredicate _ => .groupPredicate

/- The constructor at the top of a fragment. -/
def constructor : Fragment → Constructor
| .rule r => r.constructor
| .predicate p => p.constructor
| .group g => g.constructor
| .groupPredicate q => q.constructor

/- The number of the flavor at the top of a fragment. -/
def variant : Fragment → Nat
| .rule r => r.variant
| .predicate p => p.variant
| .group g => g.variant
| .groupPredicate _ => 0

/- The fragments in the slots of a fragment, in order. -/
def children : Fragment → List Fragment
| .rule (.universal noun p)
| .rule (.existential noun p)
| .rule (.negativeUniversal noun p) =>
    [.predicate noun, .predicate p]
| .rule (.grouped g q) => [.group g, .groupPredicate q]
| .rule (.line _ noun) => [.predicate noun]
| .predicate (.adjacentTo noun) => [.predicate noun]
| _ => []

/-
  The words for a fragment.  Only predicates are worded
  differently for one and for several.
-/
def describe
    (fragment : Fragment)
    (number : Number) : String :=
  match fragment with
  | .rule r => r.describe
  | .predicate p => p.describe number
  | .group g => g.describe
  | .groupPredicate q => q.describe

------------------------------------------------------------
-- Views
------------------------------------------------------------

/- The fragment as a rule. -/
def asRule? : Fragment → Option Rule
| .rule r => some r
| _ => none

/- The fragment as a predicate. -/
def asPredicate? : Fragment → Option Predicate
| .predicate p => some p
| _ => none

/- The fragment as a grouping. -/
def asGroup? : Fragment → Option Group
| .group g => some g
| _ => none

/- The fragment as a test of groups. -/
def asGroupPredicate? : Fragment → Option GroupPredicate
| .groupPredicate q => some q
| _ => none

end Fragment

end HiddenRule
