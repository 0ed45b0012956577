import HiddenRule.Proofs.Depth
import HiddenRule.Proofs.StockRules

/-
  This file proves that the stock grammar has no dead ends.

  Which entries fit depends on the budget alone, so all
  budgets that an expansion may leave can be listed without
  a draw.  If the list never meets a budget in which no
  entry can be taken, every expansion has a result.

  Main declarations:
    * `Grammar.leftovers`
    * `Expansion.Succeeds`
    * `Grammar.WellFormed.expand_succeeds`
    * `Fragment.levels` and `Grammar.levels_le_of_expand`
    * `Grammar.standard_has_no_dead_end`
-/

------------------------------------------------------------
-- Budgets Left Behind
------------------------------------------------------------

namespace HiddenRule

namespace Grammar

/- The budgets of several lists, if none is missing. -/
def gather :
    List (Option (List TagSet)) → Option (List TagSet)
| [] => some []
| first :: rest => do
    let budgets ← first
    let others ← gather rest
    return budgets ++ others

/-
  The budgets that the children of an entry may leave, given
  those that one kind may leave.
-/
def childLeftovers
    (leftoversOf : Kind → TagSet → Option (List TagSet))
    (entry : Entry) :
    List Kind → TagSet → Option (List TagSet)
| [], used => some [used]
| kind :: rest, used => do
    let left ← leftoversOf kind (entry.childBudget used)
    gather
      ((if entry.separateTags then [used] else left).map
        (childLeftovers leftoversOf entry rest))

/- The candidates that have a weight. -/
def choices
    (grammar : Grammar)
    (kind : Kind)
    (used : TagSet) : List Entry :=
  (grammar.candidates kind used).filter Entry.available

/-
  The budgets that an expansion may leave behind, whatever
  is drawn.  There is no list if some draws lead to a budget
  without a choice, or deeper than allowed.
-/
def leftovers
    (grammar : Grammar) :
    (depth : Nat) → Kind → TagSet → Option (List TagSet)
| 0, _, _ => none
| depth + 1, kind, used =>
    let choices := grammar.choices kind used
    if choices.isEmpty then
      none
    else
      gather
        (choices.map fun entry =>
          childLeftovers (leftovers grammar depth) entry
            entry.children (used.union entry.tags))

/- Each of the lists is there, and its budgets are gathered. -/
theorem exists_of_gather
    {answers : List (Option (List TagSet))}
    {budgets : List TagSet}
    (hGather : gather answers = some budgets)
    {answer : Option (List TagSet)}
    (hAnswer : answer ∈ answers) :
    ∃ part,
      answer = some part ∧
        ∀ budget ∈ part, budget ∈ budgets := by
  induction answers generalizing budgets with
  | nil => exact absurd hAnswer List.not_mem_nil
  | cons first rest ih =>
      rw [gather] at hGather
      rcases Option.bind_eq_some_iff.mp hGather with
        ⟨part, hFirst, hRest⟩
      rcases Option.bind_eq_some_iff.mp hRest with
        ⟨others, hOthers, hBudgets⟩
      have hAll : part ++ others = budgets :=
        Option.some.inj hBudgets
      rw [← hAll]
      rcases List.mem_cons.mp hAnswer with hHere | hLater
      · rw [hHere]
        refine ⟨part, hFirst, ?_⟩
        intro budget hBudget
        exact List.mem_append_left others hBudget
      · rcases ih hOthers hLater with ⟨found, hFound, hIn⟩
        refine ⟨found, hFound, ?_⟩
        intro budget hBudget
        exact List.mem_append_right part (hIn budget hBudget)

end Grammar

end HiddenRule

------------------------------------------------------------
-- Expansions That Succeed
------------------------------------------------------------

namespace HiddenRule

/- An expansion has a result and leaves a listed budget. -/
def Expansion.Succeeds
    {α : Type}
    (expansion : Expansion α)
    (budgets : List TagSet) : Prop :=
  (∃ value, expansion.result = .ok value) ∧
    expansion.used ∈ budgets

namespace Grammar

variable {grammar : Grammar}

/- Children succeed if each of them does. -/
theorem expandChildren_succeeds
    {leftoversOf : Kind → TagSet → Option (List TagSet)}
    {expandOne :
      Kind → TagSet → Stream → Expansion Fragment}
    (hOne :
      ∀ kind used {budgets},
        leftoversOf kind used = some budgets →
          ∀ stream,
            (expandOne kind used stream).Succeeds budgets)
    (entry : Entry)
    {kinds : List Kind}
    {used : TagSet}
    {budgets : List TagSet}
    (hLeft :
      childLeftovers leftoversOf entry kinds used =
        some budgets)
    (stream : Stream) :
    (expandChildren expandOne entry kinds used
      stream).Succeeds budgets := by
  induction kinds generalizing used budgets stream with
  | nil =>
      cases hLeft
      exact ⟨⟨[], rfl⟩, List.mem_singleton_self used⟩
  | cons kind rest ih =>
      rw [childLeftovers] at hLeft
      rcases Option.bind_eq_some_iff.mp hLeft with
        ⟨left, hKind, hRest⟩
      generalize hChild :
        expandOne kind (entry.childBudget used) stream = child
      have hSucceeds := hOne kind _ hKind stream
      rw [hChild] at hSucceeds
      rcases hSucceeds with ⟨⟨fragment, hOk⟩, hUsed⟩
      rw [expandChildren_of_ok hChild hOk]
      generalize hAfter :
        (if entry.separateTags then used else child.used) =
          after
      have hListed :
          after ∈
            if entry.separateTags then [used] else left := by
        rw [← hAfter]
        split
        · exact List.mem_singleton_self used
        · exact hUsed
      rcases exists_of_gather hRest
          (List.mem_map_of_mem hListed) with
        ⟨part, hPart, hIn⟩
      rcases ih hPart child.stream with
        ⟨⟨fragments, hLater⟩, hLast⟩
      refine ⟨⟨fragment :: fragments, ?_⟩, hIn _ hLast⟩
      dsimp only
      rw [hLater]
      rfl

/-
  A node is finished if its children play the roles of its
  slots and no flavor is drawn that it lacks.
-/
theorem Accepts.finishNode_ok
    {entry : Entry}
    {fragments : List Fragment}
    (hAccepts : grammar.Accepts entry)
    (hFlavors :
      entry.variantCount.toNat ≤ entry.constructor.flavors)
    (hRoles :
      fragments.map Fragment.role =
        entry.children.map Kind.role)
    (stream : Stream) :
    ∃ fragment,
      (finishNode entry fragments stream).1 =
        .ok fragment := by
  rw [hAccepts.fitting] at hRoles
  rcases finishNode_cases entry fragments stream with
    ⟨hZero, _⟩ | ⟨variant, hVariant, hFinish⟩
  · exact absurd hZero hAccepts.flavored
  · rcases Fragment.assemble_of_roles variant hRoles with
      ⟨fragment, hOk⟩ | ⟨hLacking, _⟩
    · refine ⟨fragment, ?_⟩
      rw [hFinish, hOk]
      rfl
    · omega

/-
  By induction on the depth: whichever entry is picked, its
  children succeed, and the node is finished.
-/
theorem WellFormed.expand_succeeds
    {depth : Nat}
    {kind : Kind}
    {used : TagSet}
    {budgets : List TagSet}
    (hWellFormed : grammar.WellFormed)
    (hFlavors :
      ∀ entry ∈ grammar.entries,
        entry.variantCount.toNat ≤
          entry.constructor.flavors)
    (hLeft :
      grammar.leftovers depth kind used = some budgets)
    (stream : Stream) :
    (grammar.expand depth kind used stream).Succeeds
      budgets := by
  induction depth generalizing kind used budgets stream with
  | zero => exact nomatch hLeft
  | succ depth ih =>
      rw [leftovers] at hLeft
      split at hLeft
      case isTrue => exact nomatch hLeft
      case isFalse hSome =>
        rcases grammar.pick_cases kind used stream with
          ⟨entry, next, hMem, hAvailable, hPick⟩ |
          ⟨next, hNone, _⟩
        · have hChoice : entry ∈ grammar.choices kind used :=
            List.mem_filter.mpr ⟨hMem, hAvailable⟩
          rcases exists_of_gather hLeft
              (List.mem_map_of_mem hChoice) with
            ⟨part, hPart, hIn⟩
          have hChildren :=
            expandChildren_succeeds
              (fun _ _ _ h stream => ih h stream) entry hPart
              next
          rw [expand_of_pick_ok depth hPick]
          rcases hChildren with ⟨⟨fragments, hOk⟩, hUsed⟩
          have hRoles :=
            (expandChildren_derives
              (fun _ _ _ _ h => expand_derives h) entry
              hOk).roles_eq
          have hEntry := (mem_candidates_iff.mp hMem).1
          rcases (hWellFormed.accepts_candidate
              hMem).finishNode_ok (hFlavors entry hEntry)
              hRoles _ with
            ⟨fragment, hFinish⟩
          refine ⟨⟨fragment, ?_⟩, ?_⟩
          · rw [nodeOf_of_ok hOk]
            exact hFinish
          · rw [nodeOf_used]
            exact hIn _ hUsed
        · -- Without a pick there are no choices to list.
          apply absurd _ hSome
          rw [choices, List.isEmpty_iff,
            List.filter_eq_nil_iff]
          intro entry hMem
          rw [hNone entry hMem]
          exact Bool.false_ne_true

end Grammar

end HiddenRule

------------------------------------------------------------
-- Levels
------------------------------------------------------------

namespace HiddenRule

/- The levels of nodes in a predicate. -/
def Predicate.levels : Predicate → Nat
| .adjacentTo noun => noun.levels + 1
| _ => 1

namespace Fragment

/- The levels of nodes in a fragment. -/
def levels : Fragment → Nat
| .rule (.universal noun question)
| .rule (.existential noun question)
| .rule (.negativeUniversal noun question) =>
    max noun.levels question.levels + 1
| .rule (.grouped _ _) => 2
| .rule (.line _ noun) => noun.levels + 1
| .predicate test => test.levels
| .group _ => 1
| .groupPredicate _ => 1

/- A fragment has one level more than its children allow. -/
theorem levels_le_of_children
    {fragment : Fragment}
    {most : Nat}
    (hChildren :
      ∀ child ∈ fragment.children, child.levels ≤ most) :
    fragment.levels ≤ most + 1 := by
  cases fragment with
  | rule rule =>
      cases rule <;>
        simp [children, levels] at hChildren ⊢ <;> omega
  | predicate test =>
      cases test with
      | adjacentTo noun =>
          exact Nat.succ_le_succ
            (hChildren _ (List.mem_singleton_self _))
      | _ => exact Nat.succ_le_succ (Nat.zero_le most)
  | group group => exact Nat.succ_le_succ (Nat.zero_le most)
  | groupPredicate test =>
      exact Nat.succ_le_succ (Nat.zero_le most)

end Fragment

namespace Grammar

variable {grammar : Grammar}

/- Children have what each expanded fragment has. -/
theorem forall_of_expandChildren
    {expandOne :
      Kind → TagSet → Stream → Expansion Fragment}
    {property : Fragment → Prop}
    (hOne :
      ∀ kind used stream fragment,
        (expandOne kind used stream).result =
            .ok fragment →
          property fragment)
    {entry : Entry}
    {kinds : List Kind}
    {used : TagSet}
    {stream : Stream}
    {fragments : List Fragment}
    (hResult :
      (expandChildren expandOne entry kinds used
        stream).result = .ok fragments) :
    ∀ fragment ∈ fragments, property fragment := by
  induction kinds generalizing used stream fragments with
  | nil =>
      cases hResult
      exact fun _ hMem => absurd hMem List.not_mem_nil
  | cons kind rest ih =>
      cases hChild :
          (expandOne kind (entry.childBudget used)
            stream).result with
      | error stop =>
          rw [expandChildren_of_error hChild] at hResult
          exact nomatch hResult
      | ok first =>
          rw [expandChildren_of_ok rfl hChild] at hResult
          rcases map_eq_ok_iff.mp hResult with
            ⟨later, hLater, hCons⟩
          rw [← hCons, List.forall_mem_cons]
          exact ⟨hOne kind _ _ first hChild, ih hLater⟩

/- A fragment has no more levels than its expansion may. -/
theorem levels_le_of_expand
    {depth : Nat}
    {kind : Kind}
    {used : TagSet}
    {stream : Stream}
    {fragment : Fragment}
    (hResult :
      (grammar.expand depth kind used stream).result =
        .ok fragment) :
    fragment.levels ≤ depth := by
  induction depth generalizing
      kind used stream fragment with
  | zero => exact nomatch hResult
  | succ depth ih =>
      rcases exists_of_expand_ok hResult with
        ⟨entry, next, fragments, variant, _, _, _,
          hFragments, _, hAssemble⟩
      rcases Fragment.assemble_parts hAssemble with
        ⟨⟨_, _, hNode⟩, _, _⟩
      have hBelow :=
        forall_of_expandChildren (fun _ _ _ _ h => ih h)
          hFragments
      rw [← hNode] at hBelow
      exact Fragment.levels_le_of_children hBelow

end Grammar

end HiddenRule

------------------------------------------------------------
-- The Stock Grammar
------------------------------------------------------------

namespace HiddenRule

/-
  The third level of a stock rule holds the nouns of
  neighborhoods, and there is no fourth.
-/
theorem Rule.Stock.third_level
    {rule : Rule}
    (hStock : rule.Stock)
    {part inner : Fragment}
    (hPart : part ∈ (Fragment.rule rule).children)
    (hInner : inner ∈ part.children) :
    part.constructor = .adjacencyPredicate ∧
      inner.constructor.kind = .noun ∧
        inner.children = [] := by
  have hNoun :
      ∀ noun ∈ Predicate.sortNouns ++ Predicate.placeNouns,
        (Fragment.predicate noun).children = [] := by
    decide
  have hQuestion :
      ∀ question ∈ Predicate.questions,
        ∀ inner ∈ (Fragment.predicate question).children,
          (Fragment.predicate question).constructor =
              .adjacencyPredicate ∧
            inner.constructor.kind = .noun ∧
              inner.children = [] := by
    decide
  cases rule with
  | universal noun question
  | existential noun question
  | negativeUniversal noun question =>
      rcases hStock with ⟨hNounMem, hQuestionMem, _⟩
      simp only [Fragment.children, List.mem_cons,
        List.not_mem_nil, or_false] at hPart
      rcases hPart with hFirst | hSecond
      · rw [hFirst, hNoun noun hNounMem] at hInner
        exact absurd hInner List.not_mem_nil
      · rw [hSecond] at hInner ⊢
        exact hQuestion question hQuestionMem inner hInner
  | grouped group test =>
      simp only [Fragment.children, List.mem_cons,
        List.not_mem_nil, or_false] at hPart
      rcases hPart with hFirst | hSecond
      · rw [hFirst] at hInner
        exact absurd hInner List.not_mem_nil
      · rw [hSecond] at hInner
        exact absurd hInner List.not_mem_nil
  | line axis noun =>
      rw [List.mem_singleton.mp hPart,
        hNoun noun (List.mem_append_left _ hStock.2)]
        at hInner
      exact absurd hInner List.not_mem_nil

namespace Grammar

/- No draws lead the stock grammar into a dead end. -/
theorem exists_leftovers_standard :
    ∃ budgets,
      standard.leftovers 3 .rule .empty = some budgets := by
  apply Option.isSome_iff_exists.mp
  decide

/-
  Over the stock grammar every stream gives a rule, which
  has three levels at most: the rule, its parts, and the
  noun of a neighborhood.
-/
theorem standard_has_no_dead_end
    (stream : Stream) :
    ∃ rule,
      (∀ depth,
        (standard.newRule (depth + 3) stream).result =
          .ok rule) ∧
      (Fragment.rule rule).levels ≤ 3 ∧
      ∀ part ∈ (Fragment.rule rule).children,
        ∀ inner ∈ part.children,
          part.constructor = .adjacencyPredicate ∧
            inner.constructor.kind = .noun ∧
              inner.children = [] := by
  have hWellFormed := validate_eq_ok_iff.mp validate_standard
  have hFlavors :
      ∀ entry ∈ standard.entries,
        entry.variantCount.toNat ≤
          entry.constructor.flavors := by
    decide
  rcases exists_leftovers_standard with ⟨budgets, hLeft⟩
  rcases hWellFormed.expand_succeeds hFlavors hLeft stream
    with ⟨⟨fragment, hOk⟩, _⟩
  have hEnds :
      (standard.expand 3 .rule .empty stream).result ≠
        .error .tooDeep := by
    rw [hOk]
    exact fun hDeep => nomatch hDeep
  rcases asRule_of_expand hOk with ⟨rule, hFragment, hRule⟩
  rw [hFragment] at hOk hRule
  have hNew :
      ∀ depth,
        (standard.newRule (depth + 3) stream).result =
          .ok rule := by
    intro depth
    have hSame := expand_mono hEnds (Nat.le_add_left 3 depth)
    unfold newRule
    dsimp only
    rw [hSame, hOk]
    exact hRule
  refine ⟨rule, hNew, levels_le_of_expand hOk, ?_⟩
  intro part hPart inner hInner
  exact (stock_of_newRule (hNew 0)).third_level hPart hInner

end Grammar

end HiddenRule
