import HiddenRule.Grammar.Standard
import HiddenRule.Proofs.Derivation
import HiddenRule.Proofs.Tags

/-
  This file states the law of the tag budget and proves that
  every expansion keeps it.

  The nodes of a fragment fall into regions.  The nodes that
  have no separating node above them share one budget: no
  tag is claimed twice among them, and they leave behind
  just what they claimed.  Below a separating node each
  child begins a region of its own.

  Main declarations:
    * `Grammar.sharedNodes` and `Grammar.claims`
    * `Grammar.Lawful`
    * `Grammar.budgets`
    * `Grammar.expand_keeps_budget`
-/

------------------------------------------------------------
-- Sizes And Places
------------------------------------------------------------

namespace HiddenRule

namespace Predicate

/- The number of nodes of a test. -/
def nodeCount : Predicate → Nat
| .adjacentTo noun => nodeCount noun + 1
| _ => 1

end Predicate

namespace Fragment

/- The number of nodes of a fragment. -/
def nodeCount : Fragment → Nat
| .rule (.universal noun p)
| .rule (.existential noun p)
| .rule (.negativeUniversal noun p) =>
    noun.nodeCount + p.nodeCount + 1
| .rule (.grouped _ _) => 3
| .rule (.line _ noun) => noun.nodeCount + 1
| .predicate p => p.nodeCount
| .group _ => 1
| .groupPredicate _ => 1

/- The number of nodes of several fragments. -/
def totalCount : List Fragment → Nat
| [] => 0
| fragment :: rest => fragment.nodeCount + totalCount rest

/- A fragment is one node more than its children. -/
theorem nodeCount_eq
    (fragment : Fragment) :
    fragment.nodeCount = totalCount fragment.children + 1 := by
  cases fragment with
  | rule rule => cases rule <;> rfl
  | predicate predicate => cases predicate <;> rfl
  | group _ => rfl
  | groupPredicate _ => rfl

end Fragment

/- A choice as its constructor and the budget before it. -/
def ChosenEntry.place
    (choice : ChosenEntry) : Constructor × TagSet :=
  (choice.constructor, choice.used)

end HiddenRule

------------------------------------------------------------
-- Regions
------------------------------------------------------------

namespace HiddenRule

namespace Grammar

variable (grammar : Grammar)

/- The tags of a node are those of its entry. -/
def tagsOf
    (node : Fragment) : TagSet :=
  match grammar.entryFor? node.constructor with
  | some entry => entry.tags
  | none => .empty

/- Whether the entry of a node separates its children. -/
def separates
    (node : Fragment) : Bool :=
  match grammar.entryFor? node.constructor with
  | some entry => entry.separateTags
  | none => false

/-
  The nodes of a row of fragments that have no separating
  node above them, from the top down and from left to right.
-/
def sharedNodes : List Fragment → List Fragment
| [] => []
| node :: rest =>
    if grammar.separates node then
      node :: sharedNodes rest
    else
      node ::
        (sharedNodes node.children ++ sharedNodes rest)
termination_by fragments => Fragment.totalCount fragments
decreasing_by
  all_goals
    simp only [Fragment.totalCount, Fragment.nodeCount_eq]
    omega

/- The tags of several nodes. -/
def claims : List Fragment → TagSet
| [] => .empty
| node :: rest => (grammar.tagsOf node).union (claims rest)

/-
  The law of the budget for a row of fragments that share
  one.  No shared node claims what was claimed before the
  row or is claimed by another shared node.  Below a
  separating node each child keeps the law by itself,
  beginning with a fresh budget.
-/
inductive Lawful : TagSet → List Fragment → Prop
| region
    {used : TagSet}
    {fragments : List Fragment}
    (fresh :
      ∀ node ∈ grammar.sharedNodes fragments,
        (grammar.tagsOf node).Disjoint used)
    (apart :
      (grammar.sharedNodes fragments).Pairwise
        fun left right =>
          (grammar.tagsOf left).Disjoint
            (grammar.tagsOf right))
    (below :
      ∀ before node after,
        grammar.sharedNodes fragments =
            before ++ node :: after →
          grammar.separates node = true →
            ∀ child ∈ node.children,
              Lawful
                (used.union (grammar.claims
                  (before ++ [node]))).freshBudget
                [child]) :
    Lawful used fragments

/-
  The constructors of all nodes of a row of fragments, from
  the top down and from left to right, each with the budget
  in force before the node claims its tags.  If the row is
  that of the children of a separating node, each of them
  has a fresh budget.
-/
def budgets :
    Bool → TagSet → List Fragment →
      List (Constructor × TagSet)
| _, _, [] => []
| separate, used, node :: rest =>
    let start := if separate then used.freshBudget else used
    let left :=
      if separate then
        used
      else
        used.union
          (grammar.claims (grammar.sharedNodes [node]))
    ((node.constructor, start) ::
      budgets (grammar.separates node)
        (start.union (grammar.tagsOf node)) node.children) ++
      budgets separate left rest
termination_by _ _ fragments => Fragment.totalCount fragments
decreasing_by
  all_goals
    simp only [Fragment.totalCount, Fragment.nodeCount_eq]
    omega

end Grammar

end HiddenRule

------------------------------------------------------------
-- Rows Of Fragments
------------------------------------------------------------

namespace HiddenRule

namespace Grammar

variable {grammar : Grammar}

/- Shared nodes of two rows come one after the other. -/
theorem sharedNodes_append
    (left right : List Fragment) :
    grammar.sharedNodes (left ++ right) =
      grammar.sharedNodes left ++
        grammar.sharedNodes right := by
  induction left with
  | nil => simp [sharedNodes]
  | cons node rest ih =>
      rw [List.cons_append, sharedNodes, sharedNodes, ih]
      split <;> simp

/- A separating node hides what is below it. -/
theorem sharedNodes_of_separates
    {node : Fragment}
    (hSeparates : grammar.separates node = true) :
    grammar.sharedNodes [node] = [node] := by
  rw [sharedNodes, if_pos hSeparates, sharedNodes]

/- Another node shares its budget with its children. -/
theorem sharedNodes_of_shares
    {node : Fragment}
    (hShares : grammar.separates node = false) :
    grammar.sharedNodes [node] =
      node :: grammar.sharedNodes node.children := by
  rw [sharedNodes, if_neg (by simp [hShares])]
  simp [sharedNodes]

/- The tags of two lists of nodes are joined. -/
theorem claims_append
    (left right : List Fragment) :
    grammar.claims (left ++ right) =
      (grammar.claims left).union
        (grammar.claims right) := by
  induction left with
  | nil => simp [claims]
  | cons node rest ih =>
      rw [List.cons_append, claims, claims, ih,
        TagSet.union_assoc]

/- A single node claims its tags. -/
theorem claims_singleton
    (node : Fragment) :
    grammar.claims [node] = grammar.tagsOf node := by
  simp [claims]

/- The tags of a listed node are among those of the list. -/
theorem disjoint_tagsOf_of_disjoint_claims
    {set : TagSet}
    {nodes : List Fragment}
    (hApart : set.Disjoint (grammar.claims nodes))
    {node : Fragment}
    (hMem : node ∈ nodes) :
    set.Disjoint (grammar.tagsOf node) := by
  induction nodes with
  | nil => exact absurd hMem List.not_mem_nil
  | cons first rest ih =>
      rcases TagSet.disjoint_union_right.mp hApart with
        ⟨hFirst, hRest⟩
      rcases List.mem_cons.mp hMem with hEq | hLater
      · rw [hEq]
        exact hFirst
      · exact ih hRest hLater

/-
  Two rows keep the law one after the other if the second
  begins with what the first leaves behind.
-/
theorem Lawful.append
    {used : TagSet}
    {left right : List Fragment}
    (hLeft : grammar.Lawful used left)
    (hRight :
      grammar.Lawful
        (used.union
          (grammar.claims (grammar.sharedNodes left)))
        right) :
    grammar.Lawful used (left ++ right) := by
  rcases hLeft with ⟨hFreshLeft, hApartLeft, hBelowLeft⟩
  rcases hRight with ⟨hFreshRight, hApartRight, hBelowRight⟩
  constructor
  · intro node hMem
    rw [sharedNodes_append, List.mem_append] at hMem
    rcases hMem with hMem | hMem
    · exact hFreshLeft node hMem
    · have hFresh := hFreshRight node hMem
      exact (TagSet.disjoint_union_right.mp hFresh).1
  · rw [sharedNodes_append, List.pairwise_append]
    refine ⟨hApartLeft, hApartRight, ?_⟩
    intro early hEarly late hLate
    have hFresh := hFreshRight late hLate
    have hClaims := (TagSet.disjoint_union_right.mp hFresh).2
    exact
      (disjoint_tagsOf_of_disjoint_claims hClaims
        hEarly).symm
  · intro before node after hSplit hSeparates child hChild
    rw [sharedNodes_append, List.append_eq_append_iff]
      at hSplit
    rcases hSplit with
      ⟨middle, hBefore, hNodes⟩ | ⟨middle, hNodes, hAfter⟩
    · have hLawful :=
        hBelowRight middle node after hNodes hSeparates
          child hChild
      rw [TagSet.union_assoc, ← claims_append,
        ← List.append_assoc, ← hBefore] at hLawful
      exact hLawful
    · cases middle with
      | nil =>
          have hLawful :=
            hBelowRight [] node after hAfter.symm hSeparates
              child hChild
          rw [List.append_nil] at hNodes
          rw [TagSet.union_assoc, ← claims_append, hNodes]
            at hLawful
          exact hLawful
      | cons first later =>
          rw [List.cons_append, List.cons.injEq] at hAfter
          rw [← hAfter.1] at hNodes
          exact hBelowLeft before node later hNodes
            hSeparates child hChild

/- A node that shares its budget keeps the law. -/
theorem Lawful.of_shares
    {used : TagSet}
    {node : Fragment}
    (hShares : grammar.separates node = false)
    (hTags : (grammar.tagsOf node).Disjoint used)
    (hChildren :
      grammar.Lawful (used.union (grammar.tagsOf node))
        node.children) :
    grammar.Lawful used [node] := by
  rcases hChildren with ⟨hFresh, hApart, hBelow⟩
  constructor
  · rw [sharedNodes_of_shares hShares]
    intro other hMem
    rcases List.mem_cons.mp hMem with hEq | hMem
    · rw [hEq]
      exact hTags
    · have hOther := hFresh other hMem
      exact (TagSet.disjoint_union_right.mp hOther).1
  · rw [sharedNodes_of_shares hShares, List.pairwise_cons]
    refine ⟨?_, hApart⟩
    intro other hMem
    have hOther := hFresh other hMem
    exact (TagSet.disjoint_union_right.mp hOther).2.symm
  · rw [sharedNodes_of_shares hShares]
    intro before other after hSplit hSeparates child hChild
    cases before with
    | nil =>
        rw [List.nil_append, List.cons.injEq] at hSplit
        rw [← hSplit.1, hShares] at hSeparates
        exact nomatch hSeparates
    | cons first before =>
        rw [List.cons_append, List.cons.injEq] at hSplit
        rcases hSplit with ⟨hFirst, hNodes⟩
        have hLawful :=
          hBelow before other after hNodes hSeparates child
            hChild
        rw [TagSet.union_assoc, hFirst] at hLawful
        exact hLawful

/- A node that separates its children keeps the law. -/
theorem Lawful.of_separates
    {used : TagSet}
    {node : Fragment}
    (hSeparates : grammar.separates node = true)
    (hTags : (grammar.tagsOf node).Disjoint used)
    (hChildren :
      ∀ child ∈ node.children,
        grammar.Lawful
          (used.union (grammar.tagsOf node)).freshBudget
          [child]) :
    grammar.Lawful used [node] := by
  constructor
  · rw [sharedNodes_of_separates hSeparates]
    intro other hMem
    rw [List.mem_singleton.mp hMem]
    exact hTags
  · rw [sharedNodes_of_separates hSeparates]
    exact List.pairwise_singleton _ node
  · rw [sharedNodes_of_separates hSeparates]
    intro before other after hSplit _ child hChild
    cases before with
    | nil =>
        rw [List.nil_append, List.cons.injEq] at hSplit
        rw [← hSplit.1] at hChild ⊢
        rw [List.nil_append, claims_singleton]
        exact hChildren child hChild
    | cons first before =>
        rw [List.cons_append, List.cons.injEq] at hSplit
        exact absurd hSplit.2 (by simp)

end Grammar

end HiddenRule

------------------------------------------------------------
-- Derived Rows
------------------------------------------------------------

namespace HiddenRule

namespace Grammar

variable {grammar : Grammar}

/- A node that was assembled has the tags of its entry. -/
theorem tagsOf_of_mem
    {entry : Entry}
    {node : Fragment}
    (hMem : entry ∈ grammar.entries)
    (hConstructor : node.constructor = entry.constructor) :
    grammar.tagsOf node = entry.tags := by
  simp only [tagsOf, hConstructor, entryFor?_of_mem hMem]

/- A node that was assembled separates as its entry does. -/
theorem separates_of_mem
    {entry : Entry}
    {node : Fragment}
    (hMem : entry ∈ grammar.entries)
    (hConstructor : node.constructor = entry.constructor) :
    grammar.separates node = entry.separateTags := by
  simp only [separates, hConstructor, entryFor?_of_mem hMem]

/- The budgets of one node and of those below it. -/
theorem budgets_singleton
    (used : TagSet)
    (node : Fragment) :
    grammar.budgets false used [node] =
      (node.constructor, used) ::
        grammar.budgets (grammar.separates node)
          (used.union (grammar.tagsOf node))
          node.children := by
  simp [budgets]

/- The budgets of fragments that share one. -/
theorem budgets_shared_cons
    (used : TagSet)
    (node : Fragment)
    (rest : List Fragment) :
    grammar.budgets false used (node :: rest) =
      grammar.budgets false used [node] ++
        grammar.budgets false
          (used.union
            (grammar.claims (grammar.sharedNodes [node])))
          rest := by
  rw [budgets_singleton, budgets]
  simp

/- The budgets of fragments that have one each. -/
theorem budgets_separate_cons
    (used : TagSet)
    (node : Fragment)
    (rest : List Fragment) :
    grammar.budgets true used (node :: rest) =
      grammar.budgets false used.freshBudget [node] ++
        grammar.budgets true used rest := by
  rw [budgets_singleton, budgets]
  simp

/-
  A row of fragments that share a budget keeps its law: it
  leaves just what its shared nodes claimed, and each node
  was taken in the budget that is in force there.
-/
structure KeepsShared
    (grammar : Grammar)
    (used : TagSet)
    (fragments : List Fragment)
    (after : TagSet)
    (recorded : List (Constructor × TagSet)) : Prop where
  lawful : grammar.Lawful used fragments
  exact_after :
    after =
      used.union
        (grammar.claims (grammar.sharedNodes fragments))
  recorded_eq : recorded = grammar.budgets false used fragments

/-
  A row of fragments with a budget each keeps its law: none
  of them changes the budget above it.
-/
structure KeepsSeparate
    (grammar : Grammar)
    (used : TagSet)
    (fragments : List Fragment)
    (after : TagSet)
    (recorded : List (Constructor × TagSet)) : Prop where
  lawful :
    ∀ child ∈ fragments,
      grammar.Lawful used.freshBudget [child]
  unchanged : after = used
  recorded_eq : recorded = grammar.budgets true used fragments

/- The law for what is derived for a request. -/
def Keeps
    (grammar : Grammar)
    (used : TagSet)
    (fragments : List Fragment)
    (after : TagSet)
    (recorded : List (Constructor × TagSet)) : Request → Prop
| .node _ =>
    grammar.KeepsShared used fragments after recorded
| .children entry _ =>
    if entry.separateTags then
      grammar.KeepsSeparate used fragments after recorded
    else
      grammar.KeepsShared used fragments after recorded

/- A node keeps the law if its children keep theirs. -/
private theorem keeps_node
    {entry : Entry}
    {used after : TagSet}
    {node : Fragment}
    {recorded : List (Constructor × TagSet)}
    (hMem : entry ∈ grammar.entries)
    (hConstructor : node.constructor = entry.constructor)
    (hTags : entry.tags.Disjoint used)
    (hChildren :
      grammar.Keeps (used.union entry.tags) node.children
        after recorded (.children entry entry.children)) :
    grammar.KeepsShared used [node] after
      ((entry.constructor, used) :: recorded) := by
  have hTagsOf := tagsOf_of_mem hMem hConstructor
  have hSeparates := separates_of_mem hMem hConstructor
  cases hSeparate : entry.separateTags with
  | true =>
      rw [hSeparate] at hSeparates
      simp only [Keeps, hSeparate, if_true] at hChildren
      constructor
      · apply Lawful.of_separates hSeparates
        · rw [hTagsOf]
          exact hTags
        · rw [hTagsOf]
          exact hChildren.lawful
      · rw [sharedNodes_of_separates hSeparates,
          claims_singleton, hTagsOf]
        exact hChildren.unchanged
      · rw [budgets_singleton, hConstructor, hSeparates,
          hTagsOf, hChildren.recorded_eq]
  | false =>
      rw [hSeparate] at hSeparates
      simp only [Keeps, hSeparate, Bool.false_eq_true,
        if_false] at hChildren
      constructor
      · apply Lawful.of_shares hSeparates
        · rw [hTagsOf]
          exact hTags
        · rw [hTagsOf]
          exact hChildren.lawful
      · rw [sharedNodes_of_shares hSeparates, claims, hTagsOf,
          ← TagSet.union_assoc]
        exact hChildren.exact_after
      · rw [budgets_singleton, hConstructor, hSeparates,
          hTagsOf, hChildren.recorded_eq]

/- Every derivation keeps the law of the budget. -/
theorem Derives.keeps
    {request : Request}
    {used after : TagSet}
    {fragments : List Fragment}
    {chosen : List ChosenEntry}
    (hDerives :
      grammar.Derives request used fragments after chosen) :
    grammar.Keeps used fragments after
      (chosen.map ChosenEntry.place) request := by
  induction hDerives with
  | node hCandidate _ _ _ hAssemble ih =>
      rcases mem_candidates_iff.mp hCandidate with
        ⟨hMem, _, hApart⟩
      rcases Fragment.assemble_parts hAssemble with
        ⟨⟨hConstructor, _, hChildren⟩, _, _⟩
      rw [← hChildren] at ih
      exact keeps_node hMem hConstructor
        (TagSet.intersects_eq_false_iff.mp hApart) ih
  | none =>
      rw [Keeps]
      split
      · constructor
        · intro child hChild
          exact absurd hChild List.not_mem_nil
        · rfl
        · simp [budgets]
      · constructor
        · constructor <;> simp [sharedNodes]
        · simp [sharedNodes, claims]
        · simp [budgets]
  | @next entry kind rest used left after fragment fragments
      chosen later _ _ ihFirst ihRest =>
      rw [List.map_append]
      cases hSeparate : entry.separateTags with
      | true =>
          simp only [Keeps, Entry.childBudget, hSeparate,
            if_true] at ihFirst ihRest ⊢
          rw [TagSet.isolated_eq] at ihFirst
          constructor
          · intro child hChild
            rcases List.mem_cons.mp hChild with hEq | hLater
            · rw [hEq]
              exact ihFirst.lawful
            · exact ihRest.lawful child hLater
          · exact ihRest.unchanged
          · rw [budgets_separate_cons, ihFirst.recorded_eq,
              ihRest.recorded_eq]
      | false =>
          simp only [Keeps, Entry.childBudget, hSeparate,
            Bool.false_eq_true, if_false]
            at ihFirst ihRest ⊢
          have hLeft := ihFirst.exact_after
          rw [hLeft] at ihRest
          constructor
          · exact ihFirst.lawful.append ihRest.lawful
          · rw [ihRest.exact_after, TagSet.union_assoc,
              ← claims_append, ← sharedNodes_append]
            rfl
          · rw [budgets_shared_cons, ihFirst.recorded_eq,
              ihRest.recorded_eq]

end Grammar

end HiddenRule

------------------------------------------------------------
-- Expansions
------------------------------------------------------------

namespace HiddenRule

namespace Grammar

/- Every constructor that was chosen has an entry. -/
theorem Derives.exists_entry
    {grammar : Grammar}
    {request : Request}
    {used after : TagSet}
    {fragments : List Fragment}
    {chosen : List ChosenEntry}
    (hDerives :
      grammar.Derives request used fragments after chosen) :
    ∀ choice ∈ chosen,
      ∃ entry ∈ grammar.entries,
        entry.constructor = choice.constructor := by
  induction hDerives with
  | @node _ _ _ entry _ _ _ _ hCandidate _ _ _ _ ih =>
      have hMem := (mem_candidates_iff.mp hCandidate).1
      intro choice hChoice
      rcases List.mem_cons.mp hChoice with hEq | hLater
      · rw [hEq]
        exact ⟨entry, hMem, rfl⟩
      · exact ih choice hLater
  | none =>
      intro choice hChoice
      exact absurd hChoice List.not_mem_nil
  | next _ _ ihFirst ihRest =>
      intro choice hChoice
      rcases List.mem_append.mp hChoice with hFirst | hRest
      · exact ihFirst choice hFirst
      · exact ihRest choice hRest

/-
  An expansion that gives a fragment keeps the law of the
  budget: what it claims was free, it leaves just what its
  shared nodes claimed, and each of its nodes was chosen in
  the budget that is in force there, for an entry of the
  grammar.
-/
theorem expand_keeps_budget
    {grammar : Grammar}
    {depth : Nat}
    {kind : Kind}
    {used : TagSet}
    {stream : Stream}
    {fragment : Fragment}
    (hResult :
      (grammar.expand depth kind used stream).result =
        .ok fragment) :
    let expansion := grammar.expand depth kind used stream
    grammar.Lawful used [fragment] ∧
      expansion.used =
        used.union
          (grammar.claims (grammar.sharedNodes [fragment])) ∧
      expansion.chosen.map ChosenEntry.place =
        grammar.budgets false used [fragment] ∧
      ∀ choice ∈ expansion.chosen,
        ∃ entry ∈ grammar.entries,
          entry.constructor = choice.constructor := by
  have hDerives := expand_derives hResult
  have hKeeps := hDerives.keeps
  exact ⟨hKeeps.lawful, hKeeps.exact_after,
    hKeeps.recorded_eq, hDerives.exists_entry⟩

set_option maxRecDepth 4000 in
/-
  "Every blue symbol is next to a blue symbol": below the
  neighborhood the color may be claimed a second time.
-/
theorem expand_standard_keeps_budget :
    let expansion :=
      standard.expand 3 .rule .empty (Stream.ofSeed 3)
    let fragment : Fragment :=
      .rule (.universal (.colorNoun .blue)
        (.adjacentTo (.colorNoun .blue)))
    expansion.result = .ok fragment ∧
      standard.Lawful .empty [fragment] ∧
      expansion.used =
        TagSet.empty.union
          (standard.claims (standard.sharedNodes [fragment])) ∧
      expansion.chosen.map ChosenEntry.place =
        standard.budgets false .empty [fragment] ∧
      ∀ choice ∈ expansion.chosen,
        ∃ entry ∈ standard.entries,
          entry.constructor = choice.constructor := by
  have hResult :
      (standard.expand 3 .rule .empty
        (Stream.ofSeed 3)).result =
          .ok (.rule (.universal (.colorNoun .blue)
            (.adjacentTo (.colorNoun .blue)))) := by
    decide +kernel
  exact ⟨hResult, expand_keeps_budget hResult⟩

end Grammar

end HiddenRule
