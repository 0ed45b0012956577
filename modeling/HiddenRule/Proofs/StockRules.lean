import HiddenRule.Proofs.Budget
import HiddenRule.Proofs.Validation

/-
  This file proves which rules the stock grammar gives.

  The parts of such a rule claim tags that keep them apart:
  no question asks for a color among symbols of a color, and
  no noun below a neighborhood names a place.

  Main declarations:
    * `Predicate.nouns`, `Predicate.tests` and `Group.all`
    * `Grammar.Apart`
    * `Rule.Stock`
    * `Grammar.stock_of_newRule`
-/

------------------------------------------------------------
-- Nodes Without Children
------------------------------------------------------------

namespace HiddenRule

namespace Grammar

variable {grammar : Grammar}

/- A node without children is the only one it shares. -/
theorem sharedNodes_of_leaf
    {node : Fragment}
    (hLeaf : node.children = []) :
    grammar.sharedNodes [node] = [node] := by
  cases hSeparates : grammar.separates node with
  | true => exact sharedNodes_of_separates hSeparates
  | false =>
      rw [sharedNodes_of_shares hSeparates, hLeaf, sharedNodes]

/- A node claims what was free. -/
theorem Derives.tagsOf_disjoint
    {kind : Kind}
    {used after : TagSet}
    {node : Fragment}
    {chosen : List ChosenEntry}
    (hDerives :
      grammar.Derives (.node kind) used [node] after chosen) :
    (grammar.tagsOf node).Disjoint used := by
  have hKeeps := hDerives.keeps
  rcases hKeeps.lawful with ⟨hFresh, _, _⟩
  apply hFresh
  rw [sharedNodes]
  split <;> exact List.mem_cons_self

/- A node without children leaves its tags behind. -/
theorem Derives.after_of_leaf
    {kind : Kind}
    {used after : TagSet}
    {node : Fragment}
    {chosen : List ChosenEntry}
    (hDerives :
      grammar.Derives (.node kind) used [node] after chosen)
    (hLeaf : node.children = []) :
    after = used.union (grammar.tagsOf node) := by
  have hAfter := hDerives.keeps.exact_after
  rw [sharedNodes_of_leaf hLeaf, claims_singleton] at hAfter
  exact hAfter

/- A node is of the kind that was asked for. -/
theorem Derives.kind_eq
    {kind : Kind}
    {used after : TagSet}
    {node : Fragment}
    {chosen : List ChosenEntry}
    (hDerives :
      grammar.Derives (.node kind) used [node] after chosen) :
    node.constructor.kind = kind :=
  (List.cons.inj hDerives.kinds_eq).1

/- A node was put together of derived children. -/
theorem Derives.children_derived
    {kind : Kind}
    {used after : TagSet}
    {node : Fragment}
    {chosen : List ChosenEntry}
    (hDerives :
      grammar.Derives (.node kind) used [node] after chosen) :
    ∃ entry below,
      grammar.entryFor? node.constructor = some entry ∧
        grammar.Derives (.children entry entry.children)
          (used.union entry.tags) node.children after
          below := by
  cases hDerives with
  | node hCandidate _ _ hChildren hAssemble =>
      have hMem := (mem_candidates_iff.mp hCandidate).1
      rcases Fragment.assemble_parts hAssemble with
        ⟨⟨hConstructor, _, hNode⟩, _, _⟩
      rw [hConstructor, hNode]
      exact ⟨_, _, entryFor?_of_mem hMem, hChildren⟩

/- An only child is derived in the budget of children. -/
theorem Derives.only_child
    {entry : Entry}
    {kind : Kind}
    {used after : TagSet}
    {node : Fragment}
    {chosen : List ChosenEntry}
    (hDerives :
      grammar.Derives (.children entry [kind]) used [node]
        after chosen) :
    ∃ left below,
      grammar.Derives (.node kind) (entry.childBudget used)
        [node] left below := by
  cases hDerives with
  | next hFirst _ => exact ⟨_, _, hFirst⟩

/-
  Of two children that share a budget, the second is derived
  in the budget that the first leaves.
-/
theorem Derives.two_children
    {entry : Entry}
    {kind later : Kind}
    {used after : TagSet}
    {first second : Fragment}
    {chosen : List ChosenEntry}
    (hDerives :
      grammar.Derives (.children entry [kind, later]) used
        [first, second] after chosen)
    (hShares : entry.separateTags = false) :
    ∃ left below rest belowLater,
      grammar.Derives (.node kind) used [first] left below ∧
        grammar.Derives (.node later) left [second] rest
          belowLater := by
  cases hDerives with
  | next hFirst hRest =>
      cases hRest with
      | next hSecond _ =>
          simp only [Entry.childBudget, hShares,
            Bool.false_eq_true, if_false] at hFirst hSecond
          exact ⟨_, _, _, _, hFirst, hSecond⟩

/-
  If two children share a budget and the first of them has
  no children, their tags are apart.
-/
theorem Derives.children_apart
    {entry : Entry}
    {kind later : Kind}
    {used after : TagSet}
    {first second : Fragment}
    {chosen : List ChosenEntry}
    (hDerives :
      grammar.Derives (.children entry [kind, later]) used
        [first, second] after chosen)
    (hShares : entry.separateTags = false)
    (hLeaf : first.children = []) :
    (grammar.tagsOf first).Disjoint
      (grammar.tagsOf second) := by
  rcases hDerives.two_children hShares with
    ⟨left, _, _, _, hFirst, hSecond⟩
  have hApart := hSecond.tagsOf_disjoint
  rw [hFirst.after_of_leaf hLeaf,
    TagSet.disjoint_union_right] at hApart
  exact hApart.2.symm

end Grammar

end HiddenRule

------------------------------------------------------------
-- Stock Rules
------------------------------------------------------------

namespace HiddenRule

namespace Predicate

/- The nouns that name a sort of content. -/
def sortNouns : List Predicate :=
  Color.all.map .colorNoun ++ Shape.all.map .shapeNoun ++
    [.emptyCellNoun]

/- The nouns that name a place. -/
def placeNouns : List Predicate :=
  Row.all.map .rowNoun ++ Column.all.map .columnNoun

/- What the stock grammar asks of a noun. -/
def questions : List Predicate :=
  Color.all.map .color ++ Shape.all.map .shape ++
    Row.all.map .row ++ Column.all.map .column ++
    sortNouns.map .adjacentTo

end Predicate

/- Every grouping. -/
def Group.all : List Group :=
  [.color, .shape, .identical, .line .row, .line .column,
   .adjacent]

namespace Grammar

/- The stock grammar claims other tags for two nodes. -/
def StockApart
    (left right : Fragment) : Prop :=
  (standard.tagsOf left).Disjoint (standard.tagsOf right)

instance
    (left right : Fragment) :
    Decidable (StockApart left right) :=
  inferInstanceAs (Decidable (TagSet.Disjoint _ _))

end Grammar

open Grammar

/-
  The rules of the stock grammar.  A question is about other
  tags than its noun, and so is the test of a grouping; a
  line is filled with a sort of content.
-/
def Rule.Stock : Rule → Prop
| .universal noun question
| .existential noun question
| .negativeUniversal noun question =>
    noun ∈ Predicate.sortNouns ++ Predicate.placeNouns ∧
      question ∈ Predicate.questions ∧
      StockApart (.predicate noun) (.predicate question)
| .grouped group test =>
    group ∈ Group.all ∧ test ∈ GroupPredicate.all ∧
      StockApart (.group group) (.groupPredicate test)
| .line axis noun =>
    axis ∈ Axis.all ∧ noun ∈ Predicate.sortNouns

end HiddenRule

------------------------------------------------------------
-- Parts Of Stock Rules
------------------------------------------------------------

namespace HiddenRule

namespace Predicate

/- Nouns have no children. -/
theorem children_of_noun
    {noun : Predicate}
    (hKind : noun.constructor.kind = .noun) :
    (Fragment.predicate noun).children = [] := by
  cases noun with
  | adjacentTo _ => exact nomatch hKind
  | _ => rfl

/- Every noun names a sort of content or a place. -/
theorem mem_nouns
    {noun : Predicate}
    (hKind : noun.constructor.kind = .noun) :
    noun ∈ sortNouns ++ placeNouns := by
  cases noun with
  | colorNoun c => cases c <;> decide
  | shapeNoun s => cases s <;> decide
  | rowNoun r => cases r <;> decide
  | columnNoun c => cases c <;> decide
  | emptyCellNoun => decide
  | _ => exact nomatch hKind

/- The stock grammar claims the position for a place. -/
theorem not_disjoint_of_mem_placeNouns
    {noun : Predicate}
    (hMem : noun ∈ placeNouns) :
    ¬ (Grammar.standard.tagsOf (.predicate noun)).Disjoint
      (.ofList [.position]) := by
  have hAll :
      ∀ noun ∈ placeNouns,
        ¬ (Grammar.standard.tagsOf
          (.predicate noun)).Disjoint
          (.ofList [.position]) := by
    decide
  exact hAll noun hMem

/- A noun without the position names a sort of content. -/
theorem mem_sortNouns
    {noun : Predicate}
    (hKind : noun.constructor.kind = .noun)
    (hApart :
      (Grammar.standard.tagsOf (.predicate noun)).Disjoint
        (.ofList [.position])) :
    noun ∈ sortNouns := by
  rcases List.mem_append.mp (mem_nouns hKind) with
    hSort | hPlace
  · exact hSort
  · exact absurd hApart (not_disjoint_of_mem_placeNouns hPlace)

end Predicate

namespace Grammar

/- The entry of a constructor of the stock grammar. -/
private theorem eq_of_standard
    {α : Type}
    {constructor : Constructor}
    {entry : Entry}
    {field : Entry → α}
    {value : α}
    (hEntry : standard.entryFor? constructor = some entry)
    (hField :
      (standard.entryFor? constructor).map field =
        some value) :
    field entry = value := by
  rw [hEntry] at hField
  exact Option.some.inj hField

/- A derived predicate is one of the questions. -/
theorem mem_questions_of_derives
    {used after : TagSet}
    {question : Predicate}
    {chosen : List ChosenEntry}
    (hDerives :
      standard.Derives (.node .predicate) used
        [.predicate question] after chosen) :
    question ∈ Predicate.questions := by
  have hKind := hDerives.kind_eq
  cases question with
  | color c => cases c <;> decide
  | shape s => cases s <;> decide
  | row r => cases r <;> decide
  | column c => cases c <;> decide
  | adjacentTo noun =>
      rcases hDerives.children_derived with
        ⟨entry, below, hEntry, hChildren⟩
      have hOne : entry.children = [.noun] :=
        eq_of_standard hEntry rfl
      have hTags : entry.tags = .ofList [.position] :=
        eq_of_standard hEntry rfl
      have hSeparate : entry.separateTags = true :=
        eq_of_standard hEntry rfl
      rw [hOne] at hChildren
      rcases hChildren.only_child with ⟨_, _, hNoun⟩
      -- The position is claimed, so it stays claimed below.
      have hPosition :
          (used.union entry.tags).contains .position =
            true := by
        rw [hTags, ← Bool.not_eq_false,
          TagSet.contains_eq_false_iff,
          TagSet.disjoint_union_left]
        intro hBoth
        exact absurd hBoth.2 (by decide)
      have hApart := hNoun.tagsOf_disjoint
      rw [Entry.childBudget, if_pos hSeparate,
        TagSet.isolated_eq, TagSet.freshBudget,
        if_pos hPosition] at hApart
      have hSort :=
        Predicate.mem_sortNouns hNoun.kind_eq hApart
      exact List.mem_append_right _
        (List.mem_map_of_mem hSort)
  | _ => cases hKind

end Grammar

end HiddenRule

------------------------------------------------------------
-- Derived Rules
------------------------------------------------------------

namespace HiddenRule

namespace Grammar

/- A noun and a question that were derived are apart. -/
private theorem stock_parts
    {entry : Entry}
    {used after : TagSet}
    {noun question : Predicate}
    {chosen : List ChosenEntry}
    (hDerives :
      standard.Derives (.children entry [.noun, .predicate])
        used [.predicate noun, .predicate question] after
        chosen)
    (hShares : entry.separateTags = false) :
    noun ∈ Predicate.sortNouns ++ Predicate.placeNouns ∧
      question ∈ Predicate.questions ∧
      StockApart (.predicate noun) (.predicate question) := by
  rcases hDerives.two_children hShares with
    ⟨_, _, _, _, hNoun, hQuestion⟩
  have hKind := hNoun.kind_eq
  refine ⟨Predicate.mem_nouns hKind,
    mem_questions_of_derives hQuestion, ?_⟩
  exact hDerives.children_apart hShares
    (Predicate.children_of_noun hKind)

/- A derived rule is a stock rule. -/
theorem stock_of_derives
    {after : TagSet}
    {rule : Rule}
    {chosen : List ChosenEntry}
    (hDerives :
      standard.Derives (.node .rule) .empty [.rule rule] after
        chosen) :
    rule.Stock := by
  rcases hDerives.children_derived with
    ⟨entry, below, hEntry, hChildren⟩
  cases rule with
  | universal noun question
  | existential noun question
  | negativeUniversal noun question =>
      have hTwo : entry.children = [.noun, .predicate] :=
        eq_of_standard hEntry rfl
      rw [hTwo] at hChildren
      exact stock_parts hChildren (eq_of_standard hEntry rfl)
  | grouped group test =>
      have hTwo :
          entry.children = [.group, .groupPredicate] :=
        eq_of_standard hEntry rfl
      rw [hTwo] at hChildren
      refine ⟨?_, ?_, ?_⟩
      · cases group with
        | line axis => cases axis <;> decide
        | _ => decide
      · cases test <;> decide
      · exact hChildren.children_apart
          (eq_of_standard hEntry rfl) rfl
  | line axis noun =>
      have hOne : entry.children = [.noun] :=
        eq_of_standard hEntry rfl
      have hTags : entry.tags = .ofList [.position] :=
        eq_of_standard hEntry rfl
      have hShares : entry.separateTags = false :=
        eq_of_standard hEntry rfl
      rw [hOne] at hChildren
      rcases hChildren.only_child with ⟨_, _, hNoun⟩
      have hApart := hNoun.tagsOf_disjoint
      rw [Entry.childBudget,
        if_neg (by simp [hShares]), hTags,
        TagSet.disjoint_union_right] at hApart
      refine ⟨?_, ?_⟩
      · cases axis <;> decide
      · exact Predicate.mem_sortNouns hNoun.kind_eq hApart.2

/- A rule of the stock grammar is a stock rule. -/
theorem stock_of_newRule
    {depth : Nat}
    {stream : Stream}
    {rule : Rule}
    (hRule :
      (standard.newRule depth stream).result = .ok rule) :
    rule.Stock :=
  stock_of_derives (expand_derives (expand_of_newRule hRule))

end Grammar

end HiddenRule
