import HiddenRule.Proofs.Nodes
import HiddenRule.Proofs.StockRules

/-
  This file proves that the position is claimed by one node
  of a fragment at most, wherever the nodes lie.

  A separating node hands each child a budget of its own and
  does not hear what the child claims.  If such a node
  claims the position itself, the position stays claimed in
  those budgets, and nothing is lost: along a derivation the
  position is claimed in the budget that is left exactly as
  often as it was before, and by the nodes in between.

  Main declarations:
    * `Grammar.claimsPosition` and `Grammar.GuardsPosition`
    * `Grammar.Derives.position_count`
    * `Rule.PlacesApart`
    * `Grammar.position_claimed_once`
-/

------------------------------------------------------------
-- The Position In A Budget
------------------------------------------------------------

namespace HiddenRule

namespace TagSet

/- How often a budget has the position claimed. -/
def positions
    (set : TagSet) : Nat :=
  if set.contains .position then 1 else 0

theorem positions_le
    (set : TagSet) :
    set.positions ≤ 1 := by
  unfold positions
  split <;> omega

theorem positions_eq_one_iff
    {set : TagSet} :
    set.positions = 1 ↔ set.contains .position = true := by
  unfold positions
  split <;> simp_all

/- Budgets that are apart add up. -/
theorem positions_union
    {used tags : TagSet}
    (hApart : tags.Disjoint used) :
    (used.union tags).positions =
      used.positions + tags.positions := by
  unfold positions
  rw [contains_union]
  cases hUsed : used.contains .position with
  | false => simp
  | true => simp [hApart.contains_eq_false hUsed]

/- A fresh budget keeps the position. -/
theorem positions_freshBudget
    (used : TagSet) :
    used.freshBudget.positions = used.positions := by
  rw [freshBudget, positions, positions]
  cases used.contains .position <;> rfl

end TagSet

end HiddenRule

------------------------------------------------------------
-- The Position In A Fragment
------------------------------------------------------------

namespace HiddenRule

namespace Grammar

/- Whether the entry of a node claims the position. -/
def claimsPosition
    (grammar : Grammar)
    (node : Fragment) : Bool :=
  (grammar.tagsOf node).contains .position

/- Every entry that separates claims the position itself. -/
def GuardsPosition
    (grammar : Grammar) : Prop :=
  ∀ entry ∈ grammar.entries,
    entry.separateTags = true →
      entry.tags.contains .position = true

instance
    (grammar : Grammar) :
    Decidable grammar.GuardsPosition :=
  inferInstanceAs (Decidable (∀ _ ∈ _, _ → _))

variable {grammar : Grammar}

/- Nodes that claim the position, one after the other. -/
theorem countP_claimsPosition_node
    {entry : Entry}
    {node : Fragment}
    (hMem : entry ∈ grammar.entries)
    (hConstructor : node.constructor = entry.constructor) :
    node.nodes.countP grammar.claimsPosition =
      entry.tags.positions +
        (node.children.flatMap Fragment.nodes).countP
          grammar.claimsPosition := by
  have hTags := tagsOf_of_mem hMem hConstructor
  rw [Fragment.nodes_eq, List.countP_cons, claimsPosition,
    hTags, TagSet.positions]
  omega

/-
  The nodes that claim the position and the budget before
  them make up the budget that is left.  Below a separating
  entry the budget has the position already.
-/
theorem Derives.position_count
    (hGuards : grammar.GuardsPosition)
    {request : Request}
    {used after : TagSet}
    {fragments : List Fragment}
    {chosen : List ChosenEntry}
    (hDerives :
      grammar.Derives request used fragments after chosen)
    (hBelow :
      ∀ entry kinds,
        request = .children entry kinds →
          entry.separateTags = true →
            used.contains .position = true) :
    (fragments.flatMap Fragment.nodes).countP
          grammar.claimsPosition +
        used.positions =
      after.positions := by
  induction hDerives with
  | @node _ used after entry _ _ _ fragment hCandidate _ _ _
      hAssemble ih =>
      rcases mem_candidates_iff.mp hCandidate with
        ⟨hMem, _, hApart⟩
      rcases Fragment.assemble_parts hAssemble with
        ⟨⟨hConstructor, _, hChildren⟩, _, _⟩
      rw [TagSet.intersects_eq_false_iff] at hApart
      have hAfter := ih (by
        intro parent kinds hRequest hSeparate
        cases hRequest
        rw [TagSet.contains_union,
          hGuards entry hMem hSeparate, Bool.or_true])
      rw [TagSet.positions_union hApart, ← hChildren]
        at hAfter
      rw [List.flatMap_singleton,
        countP_claimsPosition_node hMem hConstructor]
      omega
  | none => simp
  | @next entry kind rest used left after fragment fragments
      chosen later _ _ ihFirst ihRest =>
      -- An expansion of one child is below no entry.
      have hFirst := ihFirst nofun
      have hPlace := hBelow entry _ rfl
      rw [List.flatMap_singleton] at hFirst
      rw [List.flatMap_cons, List.countP_append]
      cases hSeparate : entry.separateTags with
      | true =>
          -- What the child leaves is forgotten, but it was
          -- given the position and so claims nothing of it.
          have hUsed := TagSet.positions_eq_one_iff.mpr
            (hPlace hSeparate)
          have hRest := ihRest (by
            intro parent kinds hRequest _
            rw [if_pos hSeparate]
            exact hPlace hSeparate)
          rw [Entry.childBudget, if_pos hSeparate,
            TagSet.isolated_eq,
            TagSet.positions_freshBudget] at hFirst
          rw [if_pos hSeparate] at hRest
          have hLeft := left.positions_le
          omega
      | false =>
          have hRest := ihRest (by
            intro parent kinds hRequest hParent
            cases hRequest
            rw [hSeparate] at hParent
            exact absurd hParent Bool.false_ne_true)
          simp only [Entry.childBudget, hSeparate,
            Bool.false_eq_true, if_false] at hFirst hRest
          omega

end Grammar

end HiddenRule

------------------------------------------------------------
-- Places In Stock Rules
------------------------------------------------------------

namespace HiddenRule

/- The noun of a rule, if it has one. -/
def Rule.noun? : Rule → Option Predicate
| .universal noun _
| .existential noun _
| .negativeUniversal noun _ => some noun
| .grouped _ _ => none
| .line _ noun => some noun

/-
  A rule about a place asks for no neighborhood, nothing is
  next to a place, and no line is filled with a place.
-/
structure Rule.PlacesApart
    (rule : Rule) : Prop where
  no_neighborhood :
    ∀ noun ∈ rule.noun?,
      noun ∈ Predicate.placeNouns →
        ∀ node ∈ (Fragment.rule rule).nodes,
          node.constructor ≠ .adjacencyPredicate
  no_place_inside :
    ∀ noun,
      .predicate (.adjacentTo noun) ∈
          (Fragment.rule rule).nodes →
        ∀ place ∈ Predicate.placeNouns,
          .predicate place ∉ noun.nodes
  no_line_of_place :
    ∀ axis noun,
      rule = .line axis noun →
        noun ∉ Predicate.placeNouns

namespace Grammar

theorem guardsPosition_standard :
    standard.GuardsPosition := by
  decide

/- The constructors that are about where symbols lie. -/
def positional : List Constructor :=
  [.lineRule, .rowNoun, .columnNoun, .rowPredicate,
   .columnPredicate, .adjacencyPredicate, .lineGroup,
   .adjacentGroup, .contiguousGroupPredicate]

/- For these the stock grammar claims the position. -/
theorem claimsPosition_standard
    (node : Fragment) :
    standard.claimsPosition node =
      decide (node.constructor ∈ positional) := by
  rw [claimsPosition, tagsOf]
  cases node.constructor <;> rfl

theorem claims_of_positional
    {node : Fragment}
    (hPositional : node.constructor ∈ positional) :
    standard.claimsPosition node = true := by
  rw [claimsPosition_standard]
  exact decide_eq_true hPositional

/- A node that claims the position is counted. -/
private theorem countP_pos_of_positional
    {nodes : List Fragment}
    {node : Fragment}
    (hNode : node ∈ nodes)
    (hPositional : node.constructor ∈ positional) :
    0 < nodes.countP standard.claimsPosition :=
  List.countP_pos_iff.mpr
    ⟨node, hNode, claims_of_positional hPositional⟩

private theorem adjacency_positional :
    Constructor.adjacencyPredicate ∈ positional := by
  decide

private theorem line_positional :
    Constructor.lineRule ∈ positional := by
  decide

/- A place is positional and has no nodes below it. -/
private theorem place_of_mem_placeNouns
    {noun : Predicate}
    (hMem : noun ∈ Predicate.placeNouns) :
    noun.constructor ∈ positional ∧
      noun.constructor ≠ .adjacencyPredicate ∧
      (Fragment.predicate noun).nodes =
        [.predicate noun] := by
  have hAll :
      ∀ noun ∈ Predicate.placeNouns,
        noun.constructor ∈ positional ∧
          noun.constructor ≠ .adjacencyPredicate ∧
          (Fragment.predicate noun).nodes =
            [.predicate noun] := by
    decide
  exact hAll noun hMem

/- The noun of a rule comes first among its children. -/
private theorem children_of_noun?
    {rule : Rule}
    {noun : Predicate}
    (hNoun : rule.noun? = some noun) :
    ∃ others,
      (Fragment.rule rule).children =
        .predicate noun :: others := by
  cases rule with
  | grouped _ _ => exact nomatch hNoun
  | _ =>
      cases hNoun
      exact ⟨_, rfl⟩

section

variable {rule : Rule}
  (hOnce :
    (Fragment.rule rule).nodes.countP
      standard.claimsPosition ≤ 1)

include hOnce

/- A neighborhood comes after the place of the noun. -/
private theorem not_adjacency_of_place
    {noun : Predicate}
    (hNoun : rule.noun? = some noun)
    (hPlace : noun ∈ Predicate.placeNouns)
    {node : Fragment}
    (hNode : node ∈ (Fragment.rule rule).nodes) :
    node.constructor ≠ .adjacencyPredicate := by
  intro hAdjacency
  rcases children_of_noun? hNoun with ⟨others, hChildren⟩
  rcases place_of_mem_placeNouns hPlace with
    ⟨hPositional, hOther, hNodes⟩
  have hClaims : standard.claimsPosition (.predicate noun) :=
    claims_of_positional hPositional
  rw [Fragment.nodes_eq, hChildren, List.flatMap_cons,
    hNodes, List.singleton_append] at hOnce hNode
  rcases List.mem_cons.mp hNode with hRule | hNode
  · rw [hRule] at hAdjacency
    cases rule <;> exact nomatch hAdjacency
  · rcases List.mem_cons.mp hNode with hSame | hNode
    · rw [hSame] at hAdjacency
      exact hOther hAdjacency
    · have hPos := countP_pos_of_positional hNode
        (hAdjacency ▸ adjacency_positional)
      rw [List.countP_cons, List.countP_cons, hClaims,
        if_pos rfl] at hOnce
      omega

/- A place comes below the neighborhood it is in. -/
private theorem not_place_of_adjacency
    {noun place : Predicate}
    (hInside :
      .predicate (.adjacentTo noun) ∈
        (Fragment.rule rule).nodes)
    (hPlace : place ∈ Predicate.placeNouns) :
    .predicate place ∉ noun.nodes := by
  intro hMem
  have hCount :=
    (Fragment.sublist_nodes hInside).countP_le
      (p := standard.claimsPosition)
  have hPos := countP_pos_of_positional hMem
    (place_of_mem_placeNouns hPlace).1
  have hClaims :
      standard.claimsPosition
        (.predicate (.adjacentTo noun)) :=
    claims_of_positional adjacency_positional
  rw [Fragment.nodes, Predicate.nodes, List.countP_cons,
    hClaims, if_pos rfl] at hCount
  omega

/- A line comes before the place it is filled with. -/
private theorem not_place_of_line
    {axis : Axis}
    {noun : Predicate}
    (hRule : rule = .line axis noun) :
    noun ∉ Predicate.placeNouns := by
  intro hPlace
  rcases place_of_mem_placeNouns hPlace with
    ⟨hPositional, _, hNodes⟩
  have hClaims :
      standard.claimsPosition (.rule (.line axis noun)) :=
    claims_of_positional line_positional
  have hMem :
      .predicate noun ∈ (Fragment.predicate noun).nodes := by
    rw [hNodes]
    exact List.mem_singleton_self _
  have hPos := countP_pos_of_positional hMem hPositional
  rw [hRule, Fragment.nodes_eq, List.countP_cons, hClaims,
    if_pos rfl, Fragment.children,
    List.flatMap_singleton] at hOnce
  omega

/-
  Where the position is claimed once at most, the places of
  a rule are apart: each would claim it a second time.
-/
theorem placesApart_of_countP_le :
    rule.PlacesApart where
  no_neighborhood := fun _ hNoun hPlace _ hNode =>
    not_adjacency_of_place hOnce hNoun hPlace hNode
  no_place_inside := fun _ hInside _ hPlace =>
    not_place_of_adjacency hOnce hInside hPlace
  no_line_of_place := fun _ _ hRule =>
    not_place_of_line hOnce hRule

end

------------------------------------------------------------
-- Expansions
------------------------------------------------------------

/-
  An expansion claims the position once at most, and not at
  all if it was claimed before.
-/
theorem GuardsPosition.countP_le_of_expand
    {grammar : Grammar}
    (hGuards : grammar.GuardsPosition)
    {depth : Nat}
    {kind : Kind}
    {used : TagSet}
    {stream : Stream}
    {fragment : Fragment}
    (hResult :
      (grammar.expand depth kind used stream).result =
        .ok fragment) :
    fragment.nodes.countP grammar.claimsPosition +
        used.positions ≤ 1 := by
  have hCount :=
    (expand_derives hResult).position_count hGuards nofun
  rw [List.flatMap_singleton] at hCount
  rw [hCount]
  exact TagSet.positions_le _

/- The places of a rule of the stock grammar are apart. -/
theorem placesApart_of_expand
    {depth : Nat}
    {kind : Kind}
    {used : TagSet}
    {stream : Stream}
    {rule : Rule}
    (hResult :
      (standard.expand depth kind used stream).result =
        .ok (.rule rule)) :
    rule.PlacesApart := by
  have hCount :=
    guardsPosition_standard.countP_le_of_expand hResult
  exact placesApart_of_countP_le (by omega)

/-
  In a grammar whose separating entries claim the position,
  a fragment has one node at most, at any depth, that claims
  the position, and none if it was claimed before.  In a
  rule of the stock grammar places are therefore apart.
-/
theorem position_claimed_once :
    (∀ grammar : Grammar,
      grammar.GuardsPosition →
        ∀ depth kind used stream fragment,
          (grammar.expand depth kind used stream).result =
              .ok fragment →
            fragment.nodes.countP
                grammar.claimsPosition ≤ 1 ∧
              (used.contains .position = true →
                ∀ node ∈ fragment.nodes,
                  grammar.claimsPosition node = false)) ∧
    standard.GuardsPosition ∧
    (∀ depth kind used stream rule,
      (standard.expand depth kind used stream).result =
          .ok (.rule rule) →
        rule.PlacesApart) ∧
    ∀ depth stream rule,
      (standard.newRule depth stream).result = .ok rule →
        rule.PlacesApart := by
  refine ⟨?_, guardsPosition_standard, ?_, ?_⟩
  · intro grammar hGuards depth kind used stream fragment
      hResult
    have hCount := hGuards.countP_le_of_expand hResult
    refine ⟨by omega, ?_⟩
    intro hUsed node hNode
    rw [TagSet.positions_eq_one_iff.mpr hUsed] at hCount
    have hNone :
        fragment.nodes.countP grammar.claimsPosition =
          0 := by
      omega
    rw [List.countP_eq_zero] at hNone
    exact Bool.eq_false_iff.mpr (hNone node hNode)
  · intro depth kind used stream rule hResult
    exact placesApart_of_expand hResult
  · intro depth stream rule hRule
    exact placesApart_of_expand (expand_of_newRule hRule)

/-
  "Every blue symbol is next to a blue symbol": the position
  is claimed by the neighborhood, and by nothing below it.
-/
theorem position_claimed_by_neighborhood :
    let noun : Predicate := .colorNoun .blue
    let rule : Rule := .universal noun (.adjacentTo noun)
    let stream := Stream.ofSeed 3
    standard.GuardsPosition ∧
      (standard.expand 3 .rule .empty stream).result =
        .ok (.rule rule) ∧
      (Fragment.rule rule).nodes.countP
        standard.claimsPosition ≤ 1 ∧
      (standard.newRule 3 stream).result = .ok rule ∧
      rule.PlacesApart := by
  have hExpand :
      (standard.expand 3 .rule .empty
        (Stream.ofSeed 3)).result =
          .ok (.rule (.universal (.colorNoun .blue)
            (.adjacentTo (.colorNoun .blue)))) := by
    decide +kernel
  have hRule :
      (standard.newRule 3 (Stream.ofSeed 3)).result =
        .ok (.universal (.colorNoun .blue)
          (.adjacentTo (.colorNoun .blue))) := by
    rw [newRule, hExpand]
    rfl
  rcases position_claimed_once with
    ⟨hOnce, hStandard, _, hApart⟩
  have hCount := hOnce _ hStandard _ _ _ _ _ hExpand
  exact ⟨hStandard, hExpand, hCount.1, hRule,
    hApart _ _ _ hRule⟩

end Grammar

end HiddenRule
