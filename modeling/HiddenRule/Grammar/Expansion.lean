import HiddenRule.Draw.Choice
import HiddenRule.Draw.Range
import HiddenRule.Grammar.Basic
import HiddenRule.Rule.Assembly

/-
  This file defines how a kind is expanded into a random
  fragment.

  An expansion goes from the top down and from left to
  right.  The entries of the kind that claim nothing of the
  budget are the candidates; one is chosen by weight, its
  tags are claimed, its children are expanded, its flavor is
  drawn, and the node is put together.  Children share the
  budget, unless the entry separates them: then each starts
  in a budget of its own, and what it claims is forgotten.

  The depth of an expansion is limited; a grammar may ask
  for a kind again and again.

  Key definitions include:
    * `Stop`
    * `ChosenEntry`
    * `Expansion`
    * `Grammar.pick`
    * `Grammar.expandChildren`
    * `Grammar.expand`
    * `Grammar.newRule`
-/

namespace HiddenRule

------------------------------------------------------------
-- Outcomes
------------------------------------------------------------

/- Why an expansion ends without a result. -/
inductive Stop where
| failed : BuildError → Stop
| fault : Fault → Stop
| tooDeep : Stop
deriving DecidableEq, Repr

/-
  A choice made in an expansion: the kind asked for, the
  constructor of the entry chosen, and the budget before the
  entry claimed its tags.
-/
structure ChosenEntry where
  kind : Kind
  constructor : Constructor
  used : TagSet
deriving DecidableEq, Repr

/-
  The outcome of an expansion.  Also an expansion that ends
  without a result leaves a budget and a stream behind, and
  the choices made up to its end.
-/
structure Expansion
    (α : Type) where
  result : Except Stop α
  used : TagSet
  stream : Stream
  chosen : List ChosenEntry

------------------------------------------------------------
-- Choosing An Entry
------------------------------------------------------------

namespace Grammar

/- The entries of a kind that claim nothing of a budget. -/
def candidates
    (grammar : Grammar)
    (kind : Kind)
    (used : TagSet) : List Entry :=
  (grammar.entriesFor kind).filter fun entry =>
    !entry.tags.intersects used

/- Choose a candidate by weight. -/
def pick
    (grammar : Grammar)
    (kind : Kind)
    (used : TagSet)
    (stream : Stream) : Except Stop Entry × Stream :=
  let candidates := grammar.candidates kind used
  let (index, stream) :=
    stream.choose (candidates.map Entry.weight)
  match index with
  | none =>
      (.error (.failed (.noApplicableEntry kind used)),
        stream)
  | some i =>
      ((Checked.lookup candidates i).mapError .fault, stream)

------------------------------------------------------------
-- Children
------------------------------------------------------------

/-
  Expand the children of an entry from left to right, given
  how one kind is expanded.
-/
def expandChildren
    (expandOne :
      Kind → TagSet → Stream → Expansion Fragment)
    (entry : Entry) :
    List Kind → TagSet → Stream → Expansion (List Fragment)
| [], used, stream =>
    { result := .ok [], used, stream, chosen := [] }
| kind :: rest, used, stream =>
    let child :=
      expandOne kind (entry.childBudget used) stream
    match child.result with
    | .error stop =>
        { result := .error stop
          used
          stream := child.stream
          chosen := child.chosen }
    | .ok fragment =>
        let after :=
          if entry.separateTags then used else child.used
        let later :=
          expandChildren expandOne entry rest after
            child.stream
        { result := later.result.map (fragment :: ·)
          used := later.used
          stream := later.stream
          chosen := child.chosen ++ later.chosen }

------------------------------------------------------------
-- Nodes
------------------------------------------------------------

/-
  Draw the flavor of an entry and put its node together.
-/
def finishNode
    (entry : Entry)
    (fragments : List Fragment)
    (stream : Stream) : Except Stop Fragment × Stream :=
  match stream.range 0 entry.variantCount.toNat with
  | .error fault => (.error (.fault fault), stream)
  | .ok (variant, stream) =>
      ((Fragment.assemble entry.constructor variant
        fragments).mapError .failed, stream)

/- Expand a kind within a budget, at most so deep. -/
def expand
    (grammar : Grammar) :
    (depth : Nat) → Kind → TagSet → Stream →
      Expansion Fragment
| 0, _, used, stream =>
    { result := .error .tooDeep, used, stream, chosen := [] }
| depth + 1, kind, used, stream =>
    let (picked, stream) := grammar.pick kind used stream
    match picked with
    | .error stop =>
        { result := .error stop, used, stream, chosen := [] }
    | .ok entry =>
        let choice : ChosenEntry :=
          { kind, constructor := entry.constructor, used }
        let children :=
          expandChildren (expand grammar depth) entry
            entry.children (used.union entry.tags) stream
        match children.result with
        | .error stop =>
            { result := .error stop
              used := children.used
              stream := children.stream
              chosen := choice :: children.chosen }
        | .ok fragments =>
            let (result, stream) :=
              finishNode entry fragments children.stream
            { result
              used := children.used
              stream
              chosen := choice :: children.chosen }

------------------------------------------------------------
-- Rules
------------------------------------------------------------

/- A fragment that was asked for as a rule. -/
def asRule
    (fragment : Fragment) : Except Stop Rule :=
  match fragment.asRule? with
  | some rule => .ok rule
  | none =>
      .error (.failed (.childMismatch fragment.constructor 0
        .rule (some fragment.role)))

/- How deep a rule may grow on the usual machine. -/
def depthLimit : Nat :=
  Machine.usual.depth

/- A random rule, within an empty budget. -/
def newRule
    (grammar : Grammar)
    (depth : Nat)
    (stream : Stream) : Expansion Rule :=
  let expansion := grammar.expand depth .rule .empty stream
  { result := expansion.result.bind asRule
    used := expansion.used
    stream := expansion.stream
    chosen := expansion.chosen }

end Grammar

end HiddenRule
