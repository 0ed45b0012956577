import HiddenRule.Proofs.Budget

/-
  This file lists the nodes of a fragment, and proves that
  an expanded fragment follows its grammar at every one of
  them.

  Nouns and predicates play one role, so a fragment does not
  say which of the two a slot asked for.  The grammar does:
  the entry of each node lists the kinds of its children.

  Main declarations:
    * `Fragment.nodes` and `Fragment.nodes_eq`
    * `Fragment.induction_on_children`
    * `Entry.Allows`
    * `Grammar.Derives.exists_entry_allows`
    * `Grammar.expand_follows_grammar`
-/

------------------------------------------------------------
-- Nodes
------------------------------------------------------------

namespace HiddenRule

/- The nodes of a test, from the top down. -/
def Predicate.nodes : Predicate → List Fragment
| .adjacentTo noun =>
    .predicate (.adjacentTo noun) :: nodes noun
| test => [.predicate test]

namespace Fragment

/-
  The nodes of a fragment, from the top down and from left
  to right.
-/
def nodes : Fragment → List Fragment
| .rule (.universal noun question) =>
    .rule (.universal noun question) ::
      (noun.nodes ++ question.nodes)
| .rule (.existential noun question) =>
    .rule (.existential noun question) ::
      (noun.nodes ++ question.nodes)
| .rule (.negativeUniversal noun question) =>
    .rule (.negativeUniversal noun question) ::
      (noun.nodes ++ question.nodes)
| .rule (.grouped g q) =>
    [.rule (.grouped g q), .group g, .groupPredicate q]
| .rule (.line axis noun) =>
    .rule (.line axis noun) :: noun.nodes
| .predicate test => test.nodes
| .group g => [.group g]
| .groupPredicate q => [.groupPredicate q]

/- Below a node are the nodes of its children. -/
theorem nodes_eq
    (fragment : Fragment) :
    fragment.nodes =
      fragment :: fragment.children.flatMap nodes := by
  cases fragment with
  | rule rule => cases rule <;> simp [nodes, children]
  | predicate test =>
      cases test <;> simp [nodes, children, Predicate.nodes]
  | group _ => rfl
  | groupPredicate _ => rfl

/- A listed fragment has no more nodes than all of them. -/
private theorem nodeCount_le_totalCount
    {fragments : List Fragment}
    {fragment : Fragment}
    (hMem : fragment ∈ fragments) :
    fragment.nodeCount ≤ totalCount fragments := by
  induction fragments with
  | nil => exact absurd hMem List.not_mem_nil
  | cons first rest ih =>
      rw [totalCount]
      rcases List.mem_cons.mp hMem with hEq | hLater
      · rw [hEq]
        omega
      · have hRest := ih hLater
        omega

/- A child has fewer nodes than the fragment it is part of. -/
theorem nodeCount_lt
    {fragment child : Fragment}
    (hChild : child ∈ fragment.children) :
    child.nodeCount < fragment.nodeCount := by
  have hLe := nodeCount_le_totalCount hChild
  rw [nodeCount_eq fragment]
  omega

/-
  What holds of a fragment whenever it holds of its children
  holds of every fragment.
-/
theorem induction_on_children
    {motive : Fragment → Prop}
    (step :
      ∀ fragment,
        (∀ child ∈ fragment.children, motive child) →
          motive fragment)
    (fragment : Fragment) :
    motive fragment := by
  apply step
  intro child hChild
  exact induction_on_children step child
termination_by fragment.nodeCount
decreasing_by exact nodeCount_lt hChild

/- The nodes of a node are among the nodes of the whole. -/
theorem sublist_nodes
    {fragment node : Fragment}
    (hNode : node ∈ fragment.nodes) :
    node.nodes.Sublist fragment.nodes := by
  induction fragment using induction_on_children with
  | step fragment ih =>
      rw [nodes_eq, List.mem_cons, List.mem_flatMap] at hNode
      rcases hNode with hTop | ⟨child, hChild, hBelow⟩
      · subst hTop
        exact List.Sublist.refl _
      · rw [nodes_eq fragment, List.flatMap_def]
        apply List.Sublist.cons
        have hMem := List.mem_map_of_mem (f := nodes) hChild
        exact (ih child hChild hBelow).trans
          (List.sublist_flatten_of_mem hMem)

end Fragment

end HiddenRule

------------------------------------------------------------
-- Allowed Nodes
------------------------------------------------------------

namespace HiddenRule

/-
  An entry allows a node of its constructor if it can be
  taken, has a flavor of the number of the node, and lists
  one kind for each child, the kind that the child is of.
-/
structure Entry.Allows
    (entry : Entry)
    (node : Fragment) : Prop where
  constructor_eq : entry.constructor = node.constructor
  weight_pos : 0 < entry.weight
  variant_lt : node.variant < entry.variantCount.toNat
  length_children :
    node.children.length = entry.children.length
  child_kind :
    ∀ (slot : Nat) (child : Fragment) (kind : Kind),
      node.children[slot]? = some child →
        entry.children[slot]? = some kind →
          child.constructor.kind = kind

namespace Grammar

variable {grammar : Grammar}

/- A node with children of the listed kinds is allowed. -/
private theorem allows_of_kinds
    {entry : Entry}
    {node : Fragment}
    (hConstructor : entry.constructor = node.constructor)
    (hAvailable : entry.available = true)
    (hVariant : node.variant < entry.variantCount.toNat)
    (hKinds :
      node.children.map
          (fun child => child.constructor.kind) =
        entry.children) :
    entry.Allows node := by
  refine ⟨hConstructor, ?_, hVariant, ?_, ?_⟩
  · simpa [Entry.available] using hAvailable
  · rw [← hKinds, List.length_map]
  · intro slot child kind hChild hKind
    rw [← hKinds, List.getElem?_map, hChild] at hKind
    exact Option.some.inj hKind

/- Some entry allows each node of a derived fragment. -/
theorem Derives.exists_entry_allows
    {request : Request}
    {used after : TagSet}
    {fragments : List Fragment}
    {chosen : List ChosenEntry}
    (hDerives :
      grammar.Derives request used fragments after chosen) :
    ∀ node ∈ fragments.flatMap Fragment.nodes,
      ∃ entry,
        grammar.entryFor? node.constructor = some entry ∧
          entry.Allows node := by
  induction hDerives with
  | @node _ _ _ entry _ _ _ fragment hCandidate hAvailable
      hVariant hChildren hAssemble ih =>
      rcases Fragment.assemble_parts hAssemble with
        ⟨⟨hConstructor, hFlavor, hBelow⟩, _, _⟩
      intro node hNode
      rw [List.flatMap_singleton, Fragment.nodes_eq,
        List.mem_cons] at hNode
      rcases hNode with hTop | hNode
      · -- The kinds that were asked for are those of the
        -- children, in the same order.
        have hMem := (mem_candidates_iff.mp hCandidate).1
        have hKinds := hChildren.kinds_eq
        rw [← hBelow] at hKinds
        rw [← hFlavor] at hVariant
        rw [hTop]
        refine ⟨entry, ?_, ?_⟩
        · rw [hConstructor]
          exact entryFor?_of_mem hMem
        · exact allows_of_kinds hConstructor.symm hAvailable
            hVariant hKinds
      · rw [hBelow] at hNode
        exact ih node hNode
  | none =>
      intro node hNode
      exact absurd hNode List.not_mem_nil
  | next _ _ ihFirst ihRest =>
      intro node hNode
      rw [List.flatMap_cons, List.mem_append] at hNode
      rcases hNode with hFirst | hRest
      · apply ihFirst
        rw [List.flatMap_singleton]
        exact hFirst
      · exact ihRest node hRest

/-
  A fragment that is expanded for a kind is of that kind and
  plays its role, and each of its nodes is one that the
  entry of its constructor allows.
-/
theorem expand_follows_grammar
    {depth : Nat}
    {kind : Kind}
    {used : TagSet}
    {stream : Stream}
    {fragment : Fragment}
    (hResult :
      (grammar.expand depth kind used stream).result =
        .ok fragment) :
    fragment.constructor.kind = kind ∧
      fragment.role = kind.role ∧
        ∀ node ∈ fragment.nodes,
          ∃ entry,
            grammar.entryFor? node.constructor =
                some entry ∧
              entry.Allows node := by
  have hDerives := expand_derives hResult
  have hKind : fragment.constructor.kind = kind :=
    (List.cons.inj hDerives.kinds_eq).1
  refine ⟨hKind, ?_, ?_⟩
  · rw [fragment.role_eq, hKind]
  · intro node hNode
    apply hDerives.exists_entry_allows
    rw [List.flatMap_singleton]
    exact hNode

/-
  A grammar that asks for a predicate where a noun is meant,
  and for a noun where a predicate is meant.
-/
def inverted : Grammar where
  entries :=
    [{ constructor := .universal, weight := 1,
       children := [.predicate, .noun] },
     { constructor := .colorNoun, weight := 1,
       variantCount := 3 },
     { constructor := .colorPredicate, weight := 1,
       variantCount := 3 }]
  distinct := by decide

/- "Every red is blue symbol". -/
theorem expand_inverted_follows_grammar :
    let expansion :=
      inverted.expand 2 .rule .empty (Stream.ofSeed 1)
    let fragment : Fragment :=
      .rule (.universal (.color .red) (.colorNoun .blue))
    expansion.result = .ok fragment ∧
      fragment.constructor.kind = .rule ∧
      fragment.role = Kind.role .rule ∧
      ∀ node ∈ fragment.nodes,
        ∃ entry,
          inverted.entryFor? node.constructor = some entry ∧
            entry.Allows node := by
  have hResult :
      (inverted.expand 2 .rule .empty
        (Stream.ofSeed 1)).result =
          .ok (.rule (.universal (.color .red)
            (.colorNoun .blue))) := by
    decide +kernel
  exact ⟨hResult, expand_follows_grammar hResult⟩

end Grammar

end HiddenRule
