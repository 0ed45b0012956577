import HiddenRule.Proofs.Depth
import HiddenRule.Proofs.Tags
import HiddenRule.Proofs.Validation

/-
  This file proves when the expansions over a valid grammar
  have an end.

  A predicate is the only kind that may ask for itself.  It
  does so without end if its entry claims nothing that is
  claimed below it: then nothing but the draws keeps the
  entry from being chosen again.  Validation does not look
  for such an entry.

  Main declarations:
    * `Entry.Regrows` and `Grammar.Regrows`
    * `Grammar.regrowAfter`
    * `Grammar.Calls`
    * `Grammar.ends_of_validate`
    * `Grammar.endless`
-/

------------------------------------------------------------
-- Entries That Regrow
------------------------------------------------------------

namespace HiddenRule

namespace Entry

/-
  An entry regrows if it is a predicate that asks for a
  predicate and stays free below itself.  It stays free if
  it claims nothing, or if it separates its children and
  does not claim the position.
-/
def Regrows
    (entry : Entry) : Prop :=
  entry.kind = .predicate ∧ entry.available = true ∧
    Kind.predicate ∈ entry.children ∧
      (entry.tags = .empty ∨
        entry.separateTags = true ∧
          entry.tags.contains .position = false)

instance
    (entry : Entry) :
    Decidable entry.Regrows :=
  inferInstanceAs (Decidable (_ ∧ _))

/- An entry that was free is free below itself, or not. -/
theorem disjoint_childBudget_iff
    {entry : Entry}
    {used : TagSet}
    (hApart : entry.tags.Disjoint used) :
    entry.tags.Disjoint
        (entry.childBudget (used.union entry.tags)) ↔
      entry.tags = .empty ∨
        entry.separateTags = true ∧
          entry.tags.contains .position = false := by
  unfold childBudget
  cases hSeparate : entry.separateTags with
  | true =>
      rw [if_pos rfl, TagSet.isolated_eq,
        TagSet.disjoint_freshBudget_iff]
      constructor
      · intro hPosition
        exact Or.inr ⟨rfl, hPosition⟩
      · rintro (hEmpty | ⟨_, hPosition⟩)
        · rw [hEmpty]
          rfl
        · exact hPosition
  | false =>
      rw [if_neg Bool.false_ne_true,
        TagSet.disjoint_union_right,
        TagSet.disjoint_self_iff]
      constructor
      · intro ⟨_, hEmpty⟩
        exact Or.inl hEmpty
      · rintro (hEmpty | ⟨hFalse, _⟩)
        · exact ⟨hApart, hEmpty⟩
        · exact nomatch hFalse

end Entry

namespace Constructor

/- Only rules and predicates have children. -/
theorem childRoles_eq_nil
    {constructor : Constructor}
    (hRule : constructor.kind ≠ .rule)
    (hPredicate : constructor.kind ≠ .predicate) :
    constructor.childRoles = [] := by
  cases constructor <;> simp_all [kind, childRoles]

/- Only one constructor of predicates has children. -/
theorem eq_adjacencyPredicate
    {constructor : Constructor}
    (hPredicate : constructor.kind = .predicate)
    (hRoles : constructor.childRoles ≠ []) :
    constructor = .adjacencyPredicate := by
  cases constructor <;> simp_all [kind, childRoles]

end Constructor

namespace Grammar

variable {grammar : Grammar}

/- A grammar regrows if one of its entries does. -/
def Regrows
    (grammar : Grammar) : Prop :=
  ∃ entry ∈ grammar.entries, entry.Regrows

instance
    (grammar : Grammar) :
    Decidable grammar.Regrows :=
  inferInstanceAs
    (Decidable (∃ entry ∈ grammar.entries, entry.Regrows))

/- Other kinds than rules and predicates have no children. -/
theorem WellFormed.children_eq_nil
    {kind : Kind}
    {used : TagSet}
    {entry : Entry}
    (hWellFormed : grammar.WellFormed)
    (hCandidate : entry ∈ grammar.candidates kind used)
    (hRule : kind ≠ .rule)
    (hPredicate : kind ≠ .predicate) :
    entry.children = [] := by
  have hRoles :=
    (hWellFormed.accepts_candidate hCandidate).fitting
  have hKind := (mem_candidates_iff.mp hCandidate).2.1
  rw [← hKind] at hRule hPredicate
  rw [Constructor.childRoles_eq_nil hRule hPredicate]
    at hRoles
  exact List.map_eq_nil_iff.mp hRoles

/-
  A predicate has no child, or is a neighborhood with one
  child, a noun or a predicate.
-/
theorem WellFormed.predicate_children
    {used : TagSet}
    {entry : Entry}
    (hWellFormed : grammar.WellFormed)
    (hCandidate :
      entry ∈ grammar.candidates .predicate used) :
    entry.children = [] ∨
      entry.constructor = .adjacencyPredicate ∧
        ∃ child,
          entry.children = [child] ∧
            (child = .noun ∨ child = .predicate) := by
  have hRoles :=
    (hWellFormed.accepts_candidate hCandidate).fitting
  have hKind := (mem_candidates_iff.mp hCandidate).2.1
  by_cases hNone : entry.constructor.childRoles = []
  · left
    rw [hNone] at hRoles
    exact List.map_eq_nil_iff.mp hRoles
  · right
    have hAdjacency :=
      Constructor.eq_adjacencyPredicate hKind hNone
    refine ⟨hAdjacency, ?_⟩
    rw [hAdjacency] at hRoles
    rcases List.map_eq_singleton_iff.mp hRoles with
      ⟨child, hChildren, hRole⟩
    refine ⟨child, hChildren, ?_⟩
    cases child with
    | noun => exact Or.inl rfl
    | predicate => exact Or.inr rfl
    | rule | group | groupPredicate => exact nomatch hRole

/- A predicate that asks for a predicate asks for no more. -/
theorem WellFormed.children_of_asks
    {used : TagSet}
    {entry : Entry}
    (hWellFormed : grammar.WellFormed)
    (hCandidate :
      entry ∈ grammar.candidates .predicate used)
    (hAsks : Kind.predicate ∈ entry.children) :
    entry.children = [.predicate] := by
  rcases hWellFormed.predicate_children hCandidate with
    hNone | ⟨_, child, hOnly, _⟩
  · rw [hNone] at hAsks
    exact absurd hAsks List.not_mem_nil
  · rw [hOnly, List.mem_singleton] at hAsks
    rw [hOnly, hAsks]

/-
  An entry regrows if it can be chosen for the predicate
  below it too: there is but one entry to choose twice.
-/
theorem regrows_of_twice
    {first again : Entry}
    {used : TagSet}
    (hFirst : first ∈ grammar.candidates .predicate used)
    (hAvailable : first.available = true)
    (hAdjacency : first.constructor = .adjacencyPredicate)
    (hChildren : first.children = [.predicate])
    (hAgain :
      again ∈ grammar.candidates .predicate
        (first.childBudget (used.union first.tags)))
    (hAdjacencyAgain :
      again.constructor = .adjacencyPredicate) :
    grammar.Regrows := by
  rcases mem_candidates_iff.mp hFirst with
    ⟨hMem, hKind, hApart⟩
  rcases mem_candidates_iff.mp hAgain with
    ⟨hMemAgain, _, hApartAgain⟩
  rw [TagSet.intersects_eq_false_iff] at hApart hApartAgain
  rw [← hAdjacency] at hAdjacencyAgain
  rw [eq_of_constructor_eq hMemAgain hMem hAdjacencyAgain,
    Entry.disjoint_childBudget_iff hApart] at hApartAgain
  have hAsks : Kind.predicate ∈ first.children := by
    rw [hChildren]
    exact List.mem_singleton_self _
  exact ⟨first, hMem, hKind, hAvailable, hAsks, hApartAgain⟩

end Grammar

end HiddenRule

------------------------------------------------------------
-- Three Levels
------------------------------------------------------------

namespace HiddenRule

namespace Grammar

variable {grammar : Grammar}

/- A candidate without children can have no depth. -/
theorem children_ne_nil_of_tooDeep
    {depth : Nat}
    {kind : Kind}
    {used : TagSet}
    {stream next : Stream}
    {entry : Entry}
    (hDeep :
      (grammar.expand (depth + 1) kind used
        stream).result = .error .tooDeep)
    (hPick :
      grammar.pick kind used stream = (.ok entry, next)) :
    entry.children ≠ [] := by
  intro hNone
  rw [expand_tooDeep_iff depth hPick, hNone] at hDeep
  exact nomatch hDeep

/- Other kinds than rules and predicates have one level. -/
theorem WellFormed.leaf_ends
    {depth : Nat}
    {kind : Kind}
    {used : TagSet}
    {stream : Stream}
    (hWellFormed : grammar.WellFormed)
    (hRule : kind ≠ .rule)
    (hPredicate : kind ≠ .predicate) :
    (grammar.expand (depth + 1) kind used
      stream).result ≠ .error .tooDeep := by
  intro hDeep
  rcases exists_pick_of_tooDeep hDeep with
    ⟨entry, next, hPick⟩
  have hCandidate := (mem_of_pick_ok hPick).1
  have hNone :=
    hWellFormed.children_eq_nil hCandidate hRule hPredicate
  exact children_ne_nil_of_tooDeep hDeep hPick hNone

/-
  A predicate that is too deep was picked as a neighborhood
  of a predicate that is too deep.
-/
theorem WellFormed.predicate_below
    {depth : Nat}
    {used : TagSet}
    {stream : Stream}
    (hWellFormed : grammar.WellFormed)
    (hDeep :
      (grammar.expand (depth + 2) .predicate used
        stream).result = .error .tooDeep) :
    ∃ entry next,
      grammar.pick .predicate used stream =
          (.ok entry, next) ∧
        entry.constructor = .adjacencyPredicate ∧
        entry.children = [.predicate] ∧
        (grammar.expand (depth + 1) .predicate
          (entry.childBudget (used.union entry.tags))
          next).result = .error .tooDeep := by
  rcases exists_pick_of_tooDeep hDeep with
    ⟨entry, next, hPick⟩
  have hCandidate := (mem_of_pick_ok hPick).1
  have hSome := children_ne_nil_of_tooDeep hDeep hPick
  rw [expand_tooDeep_iff _ hPick] at hDeep
  rcases hWellFormed.predicate_children hCandidate with
    hNone | ⟨hAdjacency, child, hOnly, hNoun | hPredicate⟩
  · exact absurd hNone hSome
  · rw [hOnly, hNoun, expandChildren_only_tooDeep_iff]
      at hDeep
    exact absurd hDeep
      (hWellFormed.leaf_ends (by decide) (by decide))
  · rw [hPredicate] at hOnly
    rw [hOnly, expandChildren_only_tooDeep_iff] at hDeep
    exact ⟨entry, next, hPick, hAdjacency, hOnly, hDeep⟩

/- If no entry regrows, predicates have two levels. -/
theorem WellFormed.predicate_ends
    {depth : Nat}
    {used : TagSet}
    {stream : Stream}
    (hWellFormed : grammar.WellFormed)
    (hRegrows : ¬ grammar.Regrows) :
    (grammar.expand (depth + 2) .predicate used
      stream).result ≠ .error .tooDeep := by
  intro hDeep
  rcases hWellFormed.predicate_below hDeep with
    ⟨entry, next, hPick, hAdjacency, hChildren, hBelow⟩
  rcases exists_pick_of_tooDeep hBelow with
    ⟨again, later, hAgain⟩
  rcases mem_of_pick_ok hPick with ⟨hCandidate, hAvailable⟩
  have hCandidateAgain := (mem_of_pick_ok hAgain).1
  have hSome := children_ne_nil_of_tooDeep hBelow hAgain
  rcases hWellFormed.predicate_children hCandidateAgain with
    hNone | ⟨hAdjacencyAgain, _⟩
  · exact hSome hNone
  · exact hRegrows
      (regrows_of_twice hCandidate hAvailable hAdjacency
        hChildren hCandidateAgain hAdjacencyAgain)

/- If no entry regrows, there are three levels. -/
theorem WellFormed.ends
    {depth : Nat}
    {kind : Kind}
    {used : TagSet}
    {stream : Stream}
    (hWellFormed : grammar.WellFormed)
    (hRegrows : ¬ grammar.Regrows) :
    (grammar.expand (depth + 3) kind used
      stream).result ≠ .error .tooDeep := by
  by_cases hPredicate : kind = .predicate
  · rw [hPredicate]
    exact hWellFormed.predicate_ends hRegrows
  · intro hDeep
    rcases expand_error_cases hDeep with
      ⟨hStop, _⟩ | ⟨entry, hCandidate, hCases⟩
    · exact nomatch hStop
    · have hAccepts :=
        hWellFormed.accepts_candidate hCandidate
      rcases hCases with
        ⟨child, hChild, budget, later, hBelow⟩ | ⟨_, hStop⟩ |
        ⟨_, _, _, _, _, _, hStop⟩
      · by_cases hPredicateChild : child = .predicate
        · rw [hPredicateChild] at hBelow
          exact hWellFormed.predicate_ends hRegrows hBelow
        · exact hWellFormed.leaf_ends
            (hAccepts.child_ne_rule hChild) hPredicateChild
            hBelow
      · exact nomatch hStop
      · exact nomatch hStop

end Grammar

end HiddenRule

------------------------------------------------------------
-- Draw By Draw
------------------------------------------------------------

namespace HiddenRule

namespace Grammar

/- An expansion has an end if some depth is enough for it. -/
def Ends
    (grammar : Grammar)
    (kind : Kind)
    (used : TagSet)
    (stream : Stream) : Prop :=
  ∃ depth,
    (grammar.expand depth kind used stream).result ≠
      .error .tooDeep

/-
  The budget and the stream for a predicate that is the
  child of a predicate, if the pick asks for one.
-/
def regrow?
    (grammar : Grammar)
    (used : TagSet)
    (stream : Stream) : Option (TagSet × Stream) :=
  match grammar.pick .predicate used stream with
  | (.ok entry, next) =>
      if .predicate ∈ entry.children then
        some (entry.childBudget (used.union entry.tags), next)
      else
        none
  | (.error _, _) => none

/- The same, so many levels further down. -/
def regrowAfter
    (grammar : Grammar) :
    Nat → TagSet → Stream → Option (TagSet × Stream)
| 0, used, stream => some (used, stream)
| levels + 1, used, stream =>
    match grammar.regrow? used stream with
    | some (budget, next) =>
        regrowAfter grammar levels budget next
    | none => none

variable {grammar : Grammar}

/- A predicate within a predicate is as deep as that one. -/
theorem WellFormed.tooDeep_of_regrow
    {used budget : TagSet}
    {stream next : Stream}
    (depth : Nat)
    (hWellFormed : grammar.WellFormed)
    (hRegrow :
      grammar.regrow? used stream = some (budget, next)) :
    (grammar.expand (depth + 1) .predicate used
        stream).result = .error .tooDeep ↔
      (grammar.expand depth .predicate budget
        next).result = .error .tooDeep := by
  unfold regrow? at hRegrow
  split at hRegrow
  · rename_i entry later hPick
    split at hRegrow
    · rename_i hAsks
      cases hRegrow
      have hCandidate := (mem_of_pick_ok hPick).1
      rw [expand_tooDeep_iff depth hPick,
        hWellFormed.children_of_asks hCandidate hAsks,
        expandChildren_only_tooDeep_iff]
    · exact nomatch hRegrow
  · exact nomatch hRegrow

/- Without a predicate below it, a predicate has two levels. -/
theorem WellFormed.ends_of_regrow_none
    {depth : Nat}
    {used : TagSet}
    {stream : Stream}
    (hWellFormed : grammar.WellFormed)
    (hRegrow : grammar.regrow? used stream = none) :
    (grammar.expand (depth + 2) .predicate used
      stream).result ≠ .error .tooDeep := by
  intro hDeep
  rcases hWellFormed.predicate_below hDeep with
    ⟨entry, next, hPick, _, hChildren, _⟩
  simp [regrow?, hPick, hChildren] at hRegrow

/-
  A predicate has an end exactly if the draws leave the
  chain of predicates within predicates after some levels.
-/
theorem WellFormed.predicate_ends_iff
    {used : TagSet}
    {stream : Stream}
    (hWellFormed : grammar.WellFormed) :
    grammar.Ends .predicate used stream ↔
      ∃ levels,
        grammar.regrowAfter levels used stream = none := by
  constructor
  · intro ⟨depth, hEnds⟩
    induction depth generalizing used stream with
    | zero => exact absurd rfl hEnds
    | succ depth ih =>
        cases hRegrow : grammar.regrow? used stream with
        | none =>
            refine ⟨1, ?_⟩
            simp only [regrowAfter, hRegrow]
        | some state =>
            rw [ne_eq, hWellFormed.tooDeep_of_regrow depth
              hRegrow] at hEnds
            rcases ih hEnds with ⟨levels, hLevels⟩
            refine ⟨levels + 1, ?_⟩
            simp only [regrowAfter, hRegrow, hLevels]
  · intro ⟨levels, hLevels⟩
    refine ⟨levels + 1, ?_⟩
    induction levels generalizing used stream with
    | zero => exact nomatch hLevels
    | succ levels ih =>
        cases hRegrow : grammar.regrow? used stream with
        | none => exact hWellFormed.ends_of_regrow_none hRegrow
        | some state =>
            simp only [regrowAfter, hRegrow] at hLevels
            rw [ne_eq, hWellFormed.tooDeep_of_regrow _ hRegrow]
            exact ih hLevels

/- Children have an end together if each of them has one. -/
theorem exists_expandChildren_ends
    (entry : Entry)
    {kinds : List Kind}
    (used : TagSet)
    (stream : Stream)
    (hEach :
      ∀ kind ∈ kinds, ∀ budget later,
        grammar.Ends kind budget later) :
    ∃ depth,
      (expandChildren (grammar.expand depth) entry kinds used
        stream).result ≠ .error .tooDeep := by
  induction kinds generalizing used stream with
  | nil => exact ⟨0, fun h => nomatch h⟩
  | cons kind rest ih =>
      rcases List.forall_mem_cons.mp hEach with
        ⟨hFirst, hRest⟩
      rcases hFirst (entry.childBudget used) stream with
        ⟨depth, hEnds⟩
      cases hChild :
          (grammar.expand depth kind (entry.childBudget used)
            stream).result with
      | error stop =>
          refine ⟨depth, ?_⟩
          rw [expandChildren_of_error hChild, ne_eq,
            Except.error.injEq]
          rw [hChild, ne_eq, Except.error.injEq] at hEnds
          exact hEnds
      | ok fragment =>
          let child :=
            grammar.expand depth kind
              (entry.childBudget used) stream
          let after :=
            if entry.separateTags then used else child.used
          rcases ih after child.stream hRest with
            ⟨more, hMore⟩
          refine ⟨max depth more, ?_⟩
          have hSame :=
            expand_mono hEnds (Nat.le_max_left depth more)
          rw [expandChildren_of_ok hSame hChild, ne_eq,
            map_eq_error_iff, expandChildren_eq_of_ends _ hMore]
          · exact hMore
          · intro child budget later hLater
            exact expand_mono hLater
              (Nat.le_max_right depth more)

/- All expansions have an end if those of predicates have. -/
theorem WellFormed.ends_of_predicate_ends
    (hWellFormed : grammar.WellFormed)
    (hPredicates :
      ∀ used stream, grammar.Ends .predicate used stream)
    (kind : Kind)
    (used : TagSet)
    (stream : Stream) :
    grammar.Ends kind used stream := by
  have hBelow :
      ∀ child, child ≠ .rule → ∀ budget later,
        grammar.Ends child budget later := by
    intro child hRule budget later
    by_cases hPredicate : child = .predicate
    · rw [hPredicate]
      exact hPredicates budget later
    · exact ⟨1, hWellFormed.leaf_ends hRule hPredicate⟩
  rcases grammar.pick_cases kind used stream with
    ⟨entry, next, hCandidate, _, hPick⟩ | ⟨next, _, hPick⟩
  · have hAccepts := hWellFormed.accepts_candidate hCandidate
    rcases exists_expandChildren_ends entry
      (used.union entry.tags) next fun child hChild =>
        hBelow child (hAccepts.child_ne_rule hChild) with
      ⟨depth, hEnds⟩
    refine ⟨depth + 1, ?_⟩
    rw [ne_eq, expand_tooDeep_iff depth hPick]
    exact hEnds
  · refine ⟨1, ?_⟩
    rw [expand_of_pick_error 0 hPick]
    exact fun h => nomatch h

end Grammar

end HiddenRule

------------------------------------------------------------
-- Chains Of Calls
------------------------------------------------------------

namespace HiddenRule

namespace Grammar

/-
  A kind in a budget calls another one if, with some draws,
  its expansion comes to a child of that kind in that
  budget, after the children on its left.
-/
inductive Calls
    (grammar : Grammar) :
    Kind × TagSet → Kind × TagSet → Prop
| child
    {kind child : Kind}
    {used left : TagSet}
    {entry : Entry}
    {before after : List Kind}
    {fragments : List Fragment}
    {chosen : List ChosenEntry} :
    entry ∈ grammar.candidates kind used →
    entry.available = true →
    entry.children = before ++ child :: after →
    Derives grammar (.children entry before)
      (used.union entry.tags) fragments left chosen →
    Calls grammar (kind, used)
      (child, entry.childBudget left)

variable {grammar : Grammar}

/- No call is for a rule. -/
theorem WellFormed.call_ne_rule
    {caller called : Kind × TagSet}
    (hWellFormed : grammar.WellFormed)
    (hCalls : grammar.Calls caller called) :
    called.1 ≠ .rule := by
  cases hCalls with
  | child hCandidate _ hChildren _ =>
      have hAccepts :=
        hWellFormed.accepts_candidate hCandidate
      apply hAccepts.child_ne_rule
      rw [hChildren]
      simp

/- What calls is a rule or a predicate. -/
theorem WellFormed.caller_eq
    {caller called : Kind × TagSet}
    (hWellFormed : grammar.WellFormed)
    (hCalls : grammar.Calls caller called)
    (hRule : caller.1 ≠ .rule) :
    caller.1 = .predicate := by
  cases hCalls with
  | @child kind _ _ _ _ _ _ _ _ hCandidate _ hChildren _ =>
      apply Decidable.byContradiction
      intro hPredicate
      have hNone :=
        hWellFormed.children_eq_nil hCandidate hRule
          hPredicate
      rw [hNone] at hChildren
      simp at hChildren

/- A predicate calls through its neighborhood entry. -/
theorem WellFormed.entry_of_predicate_call
    {used budget : TagSet}
    {kind : Kind}
    (hWellFormed : grammar.WellFormed)
    (hCalls :
      grammar.Calls (.predicate, used) (kind, budget)) :
    ∃ entry ∈ grammar.candidates .predicate used,
      entry.available = true ∧
        entry.constructor = .adjacencyPredicate ∧
        entry.children = [kind] ∧
        budget =
          entry.childBudget (used.union entry.tags) := by
  cases hCalls with
  | @child _ child _ _ entry before _ _ _ hCandidate
      hAvailable hChildren hBefore =>
      rcases hWellFormed.predicate_children hCandidate with
        hNone | ⟨hAdjacency, only, hOnly, _⟩
      · rw [hNone] at hChildren
        simp at hChildren
      · rw [hOnly, List.singleton_eq_append_iff] at hChildren
        rcases hChildren with
          ⟨hFirst, hCons⟩ | ⟨_, hCons⟩
        · rw [List.cons.injEq] at hCons
          rw [hFirst] at hBefore
          cases hBefore
          rw [← hCons.1] at hOnly
          exact ⟨entry, hCandidate, hAvailable, hAdjacency,
            hOnly, rfl⟩
        · exact nomatch hCons

/- The budgets of an entry that is chosen within itself. -/
def regrownBudget
    (entry : Entry) : Nat → TagSet
| 0 => entry.childBudget entry.tags
| level + 1 =>
    entry.childBudget
      ((regrownBudget entry level).union entry.tags)

/- An entry that regrows is free at every level. -/
theorem disjoint_regrownBudget
    {entry : Entry}
    (hRegrows : entry.Regrows)
    (level : Nat) :
    entry.tags.Disjoint (regrownBudget entry level) := by
  rcases hRegrows with ⟨_, _, _, hFree⟩
  induction level with
  | zero =>
      have hStart :=
        Entry.disjoint_childBudget_iff
          entry.tags.disjoint_empty
      rw [TagSet.empty_union] at hStart
      exact hStart.mpr hFree
  | succ level ih =>
      exact (Entry.disjoint_childBudget_iff ih).mpr hFree

/-
  Calls may follow on each other without end exactly if an
  entry regrows.
-/
theorem WellFormed.exists_chain_iff
    (hWellFormed : grammar.WellFormed) :
    (∃ chain : Nat → Kind × TagSet,
      ∀ n, grammar.Calls (chain n) (chain (n + 1))) ↔
        grammar.Regrows := by
  constructor
  · intro ⟨chain, hChain⟩
    have hPredicate :
        ∀ n, (chain (n + 1)).1 = .predicate := by
      intro n
      exact hWellFormed.caller_eq (hChain (n + 1))
        (hWellFormed.call_ne_rule (hChain n))
    have hFirst := hChain 1
    have hSecond := hChain 2
    have hKind := hPredicate 0
    have hKindBelow := hPredicate 1
    rcases hOne : chain 1 with ⟨kind, used⟩
    rcases hTwo : chain 2 with ⟨below, budget⟩
    rcases hThree : chain 3 with ⟨last, rest⟩
    rw [hOne] at hKind
    rw [hTwo] at hKindBelow
    cases hKind
    cases hKindBelow
    rw [hOne, hTwo] at hFirst
    rw [hTwo, hThree] at hSecond
    rcases hWellFormed.entry_of_predicate_call hFirst with
      ⟨entry, hCandidate, hAvailable, hAdjacency, hChildren,
        hBudget⟩
    rcases hWellFormed.entry_of_predicate_call hSecond with
      ⟨again, hCandidateAgain, _, hAdjacencyAgain, _, _⟩
    rw [hBudget] at hCandidateAgain
    exact regrows_of_twice hCandidate hAvailable hAdjacency
      hChildren hCandidateAgain hAdjacencyAgain
  · intro ⟨entry, hMem, hRegrows⟩
    refine ⟨fun level =>
      (.predicate, regrownBudget entry level), ?_⟩
    intro level
    have hFree := disjoint_regrownBudget hRegrows level
    rcases hRegrows with ⟨hKind, hAvailable, hAsks, _⟩
    have hCandidate :
        entry ∈ grammar.candidates .predicate
          (regrownBudget entry level) :=
      mem_candidates_iff.mpr
        ⟨hMem, hKind,
          TagSet.intersects_eq_false_iff.mpr hFree⟩
    have hOnly :=
      hWellFormed.children_of_asks hCandidate hAsks
    exact .child hCandidate hAvailable hOnly .none

end Grammar

end HiddenRule

------------------------------------------------------------
-- When Expansions Have An End
------------------------------------------------------------

namespace HiddenRule

namespace Grammar

/-
  Over a valid grammar in which no entry regrows, three
  levels are enough for every expansion.  If an entry
  regrows, calls may follow on each other without end.
  Whether they do is up to the draws: all expansions have an
  end exactly if every chain of predicates within predicates
  is left after some levels.
-/
theorem ends_of_validate
    {grammar : Grammar}
    {order : KindOrder}
    (hValid : grammar.validate order = .ok ()) :
    (¬ grammar.Regrows →
      ∀ depth kind used stream, 3 ≤ depth →
        (grammar.expand depth kind used stream).result ≠
          .error .tooDeep) ∧
    ((∃ chain : Nat → Kind × TagSet,
      ∀ n, grammar.Calls (chain n) (chain (n + 1))) ↔
        grammar.Regrows) ∧
    (∀ used stream,
      grammar.Ends .predicate used stream ↔
        ∃ levels,
          grammar.regrowAfter levels used stream = none) ∧
    ((∀ kind used stream, grammar.Ends kind used stream) ↔
      ∀ used stream, ∃ levels,
        grammar.regrowAfter levels used stream = none) := by
  have hWellFormed := validate_eq_ok_iff.mp hValid
  refine ⟨?_, hWellFormed.exists_chain_iff,
    fun _ _ => hWellFormed.predicate_ends_iff, ?_⟩
  · intro hRegrows depth kind used stream hDepth
    rcases Nat.exists_eq_add_of_le' hDepth with ⟨more, hEq⟩
    rw [hEq]
    exact hWellFormed.ends hRegrows
  · constructor
    · intro hAll used stream
      exact hWellFormed.predicate_ends_iff.mp
        (hAll .predicate used stream)
    · intro hLeft
      apply hWellFormed.ends_of_predicate_ends
      intro used stream
      exact hWellFormed.predicate_ends_iff.mpr
        (hLeft used stream)

/- Three levels are enough for the stock grammar. -/
theorem ends_standard :
    standard.validate = .ok () ∧
      ¬ standard.Regrows ∧
      ∀ depth kind used stream, 3 ≤ depth →
        (standard.expand depth kind used stream).result ≠
          .error .tooDeep := by
  have hRegrows : ¬ standard.Regrows := by
    decide
  exact ⟨validate_standard, hRegrows,
    (ends_of_validate validate_standard).1 hRegrows⟩

/-
  A valid grammar whose only predicate is to be next to a
  predicate, and claims nothing.
-/
def endless : Grammar where
  entries :=
    [{ constructor := .lineRule, weight := 1,
       variantCount := 2, children := [.predicate] },
     { constructor := .adjacencyPredicate, weight := 1,
       children := [.predicate] }]
  distinct := by decide

/- No depth is enough for a rule or a predicate of it. -/
theorem expand_endless
    {kind : Kind}
    (depth : Nat)
    (stream : Stream)
    (hKind : kind = .rule ∨ kind = .predicate) :
    (endless.expand depth kind .empty stream).result =
      .error .tooDeep := by
  induction depth generalizing kind stream with
  | zero => rfl
  | succ depth ih =>
      -- The one candidate asks for a predicate.
      have hOnly :
          ∃ entry,
            endless.candidates kind .empty = [entry] ∧
              entry.available = true ∧
              entry.children = [.predicate] ∧
              entry.childBudget
                (TagSet.empty.union entry.tags) = .empty := by
        rcases hKind with hRule | hPredicate
        · rw [hRule]
          exact ⟨_, rfl, rfl, rfl, rfl⟩
        · rw [hPredicate]
          exact ⟨_, rfl, rfl, rfl, rfl⟩
      rcases hOnly with
        ⟨entry, hCandidates, hAvailable, hChildren, hBudget⟩
      rcases endless.pick_cases kind .empty stream with
        ⟨picked, next, hMem, _, hPick⟩ | ⟨_, hNone, _⟩
      · rw [hCandidates, List.mem_singleton] at hMem
        rw [hMem] at hPick
        rw [expand_tooDeep_iff depth hPick, hChildren,
          expandChildren_only_tooDeep_iff, hBudget]
        exact ih next (Or.inr rfl)
      · rw [hCandidates] at hNone
        have hFalse :=
          hNone entry (List.mem_singleton_self entry)
        rw [hAvailable] at hFalse
        exact nomatch hFalse

/- A valid grammar may have no end, whatever is drawn. -/
theorem endless_has_no_end :
    endless.validate = .ok () ∧
      ∀ stream,
        ¬ endless.Ends .rule .empty stream ∧
          ∀ depth,
            (endless.newRule depth stream).result =
              .error .tooDeep := by
  refine ⟨rfl, ?_⟩
  intro stream
  constructor
  · intro ⟨depth, hEnds⟩
    exact hEnds (expand_endless depth stream (Or.inl rfl))
  · intro depth
    rcases newRule_cases endless depth stream with
      ⟨rule, hExpand, _⟩ | ⟨stop, hExpand, hNew⟩
    · rw [expand_endless depth stream (Or.inl rfl)]
        at hExpand
      exact nomatch hExpand
    · rw [expand_endless depth stream (Or.inl rfl)]
        at hExpand
      rw [hNew, ← Except.error.inj hExpand]

end Grammar

end HiddenRule
