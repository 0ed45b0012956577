import HiddenRule.Grammar.Expansion
import HiddenRule.Proofs.Assembly
import HiddenRule.Proofs.Draw

/-
  This file defines the derivations of a grammar, and proves
  that every fragment that an expansion gives is derived.

  A derivation forgets the random stream.  It keeps, for
  each node, the entry that was taken and the budget it was
  taken in, so that a property of expansions is an induction
  on derivations.

  Main declarations:
    * `Grammar.mem_candidates_iff`
    * `Grammar.pick_cases`
    * `Request` and `Grammar.Derives`
    * `Grammar.expand_derives` and `Grammar.Derives.kinds_eq`
    * `Grammar.expand_error_cases`
-/

------------------------------------------------------------
-- Entries
------------------------------------------------------------

namespace HiddenRule

namespace Grammar

/- Candidates are entries of the kind that fit the budget. -/
theorem mem_candidates_iff
    {grammar : Grammar}
    {kind : Kind}
    {used : TagSet}
    {entry : Entry} :
    entry ∈ grammar.candidates kind used ↔
      entry ∈ grammar.entries ∧ entry.kind = kind ∧
        entry.tags.intersects used = false := by
  simp only [candidates, entriesFor, List.mem_filter,
    beq_iff_eq, Bool.not_eq_true', and_assoc]

/- Two entries of one constructor are the same. -/
theorem eq_of_constructor_eq
    {grammar : Grammar}
    {left right : Entry}
    (hLeft : left ∈ grammar.entries)
    (hRight : right ∈ grammar.entries)
    (hEq : left.constructor = right.constructor) :
    left = right := by
  have hDistinct := grammar.distinct
  generalize grammar.entries = entries at *
  induction entries with
  | nil => exact absurd hLeft List.not_mem_nil
  | cons first rest ih =>
      rw [List.map_cons, List.nodup_cons] at hDistinct
      rcases hDistinct with ⟨hFirst, hRest⟩
      rcases List.mem_cons.mp hLeft with hLeft | hLeft
      · rcases List.mem_cons.mp hRight with hRight | hRight
        · rw [hLeft, hRight]
        · refine absurd (List.mem_map.mpr ?_) hFirst
          exact ⟨right, hRight, by rw [← hEq, hLeft]⟩
      · rcases List.mem_cons.mp hRight with hRight | hRight
        · refine absurd (List.mem_map.mpr ?_) hFirst
          exact ⟨left, hLeft, by rw [hEq, hRight]⟩
        · exact ih hLeft hRight hRest

/- An entry is found by its constructor. -/
theorem entryFor?_of_mem
    {grammar : Grammar}
    {entry : Entry}
    (hMem : entry ∈ grammar.entries) :
    grammar.entryFor? entry.constructor = some entry := by
  unfold entryFor?
  cases hFind :
      grammar.entries.find? fun other =>
        other.constructor == entry.constructor with
  | none =>
      have hNone := List.find?_eq_none.mp hFind entry hMem
      simp at hNone
  | some found =>
      have hSame := List.find?_some hFind
      have hFound := List.mem_of_find?_eq_some hFind
      rw [eq_of_constructor_eq hFound hMem
        (beq_iff_eq.mp hSame)]

------------------------------------------------------------
-- Picks
------------------------------------------------------------

/-
  A pick takes a candidate with a weight, or fails because
  there is none.
-/
theorem pick_cases
    (grammar : Grammar)
    (kind : Kind)
    (used : TagSet)
    (stream : Stream) :
    (∃ entry next,
      entry ∈ grammar.candidates kind used ∧
        entry.available = true ∧
          grammar.pick kind used stream =
            (.ok entry, next)) ∨
    (∃ next,
      (∀ entry ∈ grammar.candidates kind used,
        entry.available = false) ∧
          grammar.pick kind used stream =
            (.error (.failed (.noApplicableEntry kind used)),
              next)) := by
  generalize hCandidates :
    grammar.candidates kind used = candidates
  cases hChoose :
      stream.choose (candidates.map Entry.weight) with
  | mk index next =>
      cases index with
      | none =>
          right
          have hNone := congrArg Prod.fst hChoose
          rw [Stream.choose_eq_none_iff] at hNone
          refine ⟨next, ?_, ?_⟩
          · intro entry hMem
            have hZero := hNone entry.weight
              (List.mem_map_of_mem hMem)
            simp [Entry.available, hZero]
          · simp [pick, hCandidates, hChoose]
      | some i =>
          left
          have hSome := congrArg Prod.fst hChoose
          rcases Stream.choose_pos hSome with
            ⟨weight, hGet, hPos⟩
          rw [List.getElem?_map, Option.map_eq_some_iff]
            at hGet
          rcases hGet with ⟨entry, hEntry, hWeight⟩
          refine ⟨entry, next, ?_, ?_, ?_⟩
          · exact List.mem_of_getElem? hEntry
          · simp [Entry.available, hWeight, hPos]
          · simp [pick, hCandidates, hChoose,
              mapError_eq_ok_iff, Checked.lookup, hEntry]

/- An entry that was picked is a candidate with a weight. -/
theorem mem_of_pick_ok
    {grammar : Grammar}
    {kind : Kind}
    {used : TagSet}
    {stream next : Stream}
    {entry : Entry}
    (hPick :
      grammar.pick kind used stream = (.ok entry, next)) :
    entry ∈ grammar.candidates kind used ∧
      entry.available = true := by
  rcases grammar.pick_cases kind used stream with
    ⟨found, other, hMem, hAvailable, hFound⟩ |
    ⟨other, _, hFound⟩
  · rw [hPick] at hFound
    cases hFound
    exact ⟨hMem, hAvailable⟩
  · rw [hPick] at hFound
    cases hFound

end Grammar

end HiddenRule

------------------------------------------------------------
-- Expansion Step By Step
------------------------------------------------------------

namespace HiddenRule

namespace Grammar

/-
  The expansion of a node whose entry was chosen, given the
  expansion of its children.
-/
def nodeOf
    (entry : Entry)
    (choice : ChosenEntry)
    (children : Expansion (List Fragment)) :
    Expansion Fragment :=
  match children.result with
  | .error stop =>
      { result := .error stop
        used := children.used
        stream := children.stream
        chosen := choice :: children.chosen }
  | .ok fragments =>
      let finished :=
        finishNode entry fragments children.stream
      { result := finished.1
        used := children.used
        stream := finished.2
        chosen := choice :: children.chosen }

/- Without a pick an expansion ends at once. -/
theorem expand_of_pick_error
    {grammar : Grammar}
    {kind : Kind}
    {used : TagSet}
    {stream next : Stream}
    {stop : Stop}
    (depth : Nat)
    (hPick :
      grammar.pick kind used stream = (.error stop, next)) :
    grammar.expand (depth + 1) kind used stream =
      { result := .error stop, used, stream := next,
        chosen := [] } := by
  rw [expand, hPick]

/- With a pick an expansion goes on with the children. -/
theorem expand_of_pick_ok
    {grammar : Grammar}
    {kind : Kind}
    {used : TagSet}
    {stream next : Stream}
    {entry : Entry}
    (depth : Nat)
    (hPick :
      grammar.pick kind used stream = (.ok entry, next)) :
    grammar.expand (depth + 1) kind used stream =
      nodeOf entry ⟨kind, entry.constructor, used⟩
        (expandChildren (grammar.expand depth) entry
          entry.children (used.union entry.tags) next) := by
  rw [expand, hPick]
  rfl

/- A node stops where its children stop. -/
theorem nodeOf_of_error
    {entry : Entry}
    {choice : ChosenEntry}
    {children : Expansion (List Fragment)}
    {stop : Stop}
    (hError : children.result = .error stop) :
    (nodeOf entry choice children).result =
      .error stop := by
  simp only [nodeOf, hError]

/- A node with children is finished with its flavor. -/
theorem nodeOf_of_ok
    {entry : Entry}
    {choice : ChosenEntry}
    {children : Expansion (List Fragment)}
    {fragments : List Fragment}
    (hOk : children.result = .ok fragments) :
    (nodeOf entry choice children).result =
      (finishNode entry fragments children.stream).1 := by
  simp only [nodeOf, hOk]

/- A node leaves the budget that its children leave. -/
theorem nodeOf_used
    (entry : Entry)
    (choice : ChosenEntry)
    (children : Expansion (List Fragment)) :
    (nodeOf entry choice children).used = children.used := by
  unfold nodeOf
  split <;> rfl

/- The choice for a node comes before those below it. -/
theorem nodeOf_chosen
    (entry : Entry)
    (choice : ChosenEntry)
    (children : Expansion (List Fragment)) :
    (nodeOf entry choice children).chosen =
      choice :: children.chosen := by
  unfold nodeOf
  split <;> rfl

/-
  A node is finished with a flavor below the number of
  flavors, unless that number is 0.
-/
theorem finishNode_cases
    (entry : Entry)
    (fragments : List Fragment)
    (stream : Stream) :
    (entry.variantCount = 0 ∧
      (finishNode entry fragments stream).1 =
        .error (.fault .emptyRange)) ∨
    (∃ variant,
      variant < entry.variantCount.toNat ∧
        (finishNode entry fragments stream).1 =
          (Fragment.assemble entry.constructor variant
            fragments).mapError .failed) := by
  unfold finishNode
  rcases Nat.eq_zero_or_pos entry.variantCount.toNat with
    hZero | hPos
  · left
    rw [Stream.range_of_le (Nat.le_of_eq hZero)]
    exact ⟨UInt64.toNat_inj.mp hZero, rfl⟩
  · right
    rcases Stream.range_of_lt hPos stream with
      ⟨variant, next, hRange, _, hLt⟩
    rw [hRange]
    exact ⟨variant, hLt, rfl⟩

/- Children stop where the first of them stops. -/
theorem expandChildren_of_error
    {expandOne :
      Kind → TagSet → Stream → Expansion Fragment}
    {entry : Entry}
    {kind : Kind}
    {rest : List Kind}
    {used : TagSet}
    {stream : Stream}
    {stop : Stop}
    (hError :
      (expandOne kind (entry.childBudget used)
        stream).result = .error stop) :
    (expandChildren expandOne entry (kind :: rest) used
      stream).result = .error stop := by
  rw [expandChildren]
  simp only [hError]

/-
  After the first child the others follow, in the budget
  that it leaves unless the budgets are separate.
-/
theorem expandChildren_of_ok
    {expandOne :
      Kind → TagSet → Stream → Expansion Fragment}
    {entry : Entry}
    {kind : Kind}
    {rest : List Kind}
    {used : TagSet}
    {stream : Stream}
    {child : Expansion Fragment}
    {fragment : Fragment}
    (hChild :
      expandOne kind (entry.childBudget used) stream = child)
    (hOk : child.result = .ok fragment) :
    let after :=
      if entry.separateTags then used else child.used
    let later :=
      expandChildren expandOne entry rest after child.stream
    expandChildren expandOne entry (kind :: rest) used
        stream =
      { result := later.result.map (fragment :: ·)
        used := later.used
        stream := later.stream
        chosen := child.chosen ++ later.chosen } := by
  rw [expandChildren]
  simp only [hChild, hOk]

/-
  A fragment comes from a pick, from children that have
  results, and from a flavor with which it is put together.
-/
theorem exists_of_expand_ok
    {grammar : Grammar}
    {depth : Nat}
    {kind : Kind}
    {used : TagSet}
    {stream : Stream}
    {fragment : Fragment}
    (hResult :
      (grammar.expand (depth + 1) kind used
        stream).result = .ok fragment) :
    ∃ entry next fragments variant,
      entry ∈ grammar.candidates kind used ∧
        entry.available = true ∧
        grammar.pick kind used stream = (.ok entry, next) ∧
        (expandChildren (grammar.expand depth) entry
          entry.children (used.union entry.tags)
          next).result = .ok fragments ∧
        variant < entry.variantCount.toNat ∧
        Fragment.assemble entry.constructor variant
          fragments = .ok fragment := by
  rcases grammar.pick_cases kind used stream with
    ⟨entry, next, hMem, hAvailable, hPick⟩ |
    ⟨next, _, hPick⟩
  · rw [expand_of_pick_ok depth hPick] at hResult
    generalize hChildren :
      expandChildren (grammar.expand depth) entry
        entry.children (used.union entry.tags) next =
          children at hResult
    cases hFragments : children.result with
    | error stop =>
        rw [nodeOf_of_error hFragments] at hResult
        exact nomatch hResult
    | ok fragments =>
        rw [nodeOf_of_ok hFragments] at hResult
        rw [← hChildren] at hFragments
        rcases finishNode_cases entry fragments
            children.stream with
          ⟨_, hFault⟩ | ⟨variant, hVariant, hFinish⟩
        · rw [hFault] at hResult
          exact nomatch hResult
        · rw [hFinish, mapError_eq_ok_iff] at hResult
          exact ⟨entry, next, fragments, variant, hMem,
            hAvailable, hPick, hFragments, hVariant, hResult⟩
  · rw [expand_of_pick_error depth hPick] at hResult
    exact nomatch hResult

end Grammar

end HiddenRule

------------------------------------------------------------
-- Derivations
------------------------------------------------------------

namespace HiddenRule

/-
  What a derivation is asked for: one node of a kind, or the
  children that remain of the node of an entry.
-/
inductive Request where
| node : Kind → Request
| children : Entry → List Kind → Request

namespace Grammar

/-
  The fragments derived for a request within a budget, the
  budget left behind, and the choices made on the way.
-/
inductive Derives
    (grammar : Grammar) :
    Request → TagSet → List Fragment → TagSet →
      List ChosenEntry → Prop
| node
    {kind : Kind}
    {used after : TagSet}
    {entry : Entry}
    {variant : Nat}
    {children : List Fragment}
    {chosen : List ChosenEntry}
    {fragment : Fragment} :
    entry ∈ grammar.candidates kind used →
    entry.available = true →
    variant < entry.variantCount.toNat →
    Derives grammar (.children entry entry.children)
      (used.union entry.tags) children after chosen →
    Fragment.assemble entry.constructor variant children =
      .ok fragment →
    Derives grammar (.node kind) used [fragment] after
      (⟨kind, entry.constructor, used⟩ :: chosen)
| none
    {entry : Entry}
    {used : TagSet} :
    Derives grammar (.children entry []) used [] used []
| next
    {entry : Entry}
    {kind : Kind}
    {rest : List Kind}
    {used left after : TagSet}
    {fragment : Fragment}
    {fragments : List Fragment}
    {chosen later : List ChosenEntry} :
    Derives grammar (.node kind) (entry.childBudget used)
      [fragment] left chosen →
    Derives grammar (.children entry rest)
      (if entry.separateTags then used else left)
      fragments after later →
    Derives grammar (.children entry (kind :: rest)) used
      (fragment :: fragments) after (chosen ++ later)

/- Children that are expanded are derived, if each one is. -/
theorem expandChildren_derives
    {grammar : Grammar}
    {expandOne :
      Kind → TagSet → Stream → Expansion Fragment}
    (hOne :
      ∀ kind used stream {fragment},
        (expandOne kind used stream).result =
            .ok fragment →
          grammar.Derives (.node kind) used [fragment]
            (expandOne kind used stream).used
            (expandOne kind used stream).chosen)
    (entry : Entry)
    {kinds : List Kind}
    {used : TagSet}
    {stream : Stream}
    {fragments : List Fragment}
    (hResult :
      (expandChildren expandOne entry kinds used
        stream).result = .ok fragments) :
    grammar.Derives (.children entry kinds) used fragments
      (expandChildren expandOne entry kinds used
        stream).used
      (expandChildren expandOne entry kinds used
        stream).chosen := by
  induction kinds generalizing used stream fragments with
  | nil =>
      cases hResult
      exact .none
  | cons kind rest ih =>
      cases hChild :
          (expandOne kind (entry.childBudget used)
            stream).result with
      | error stop =>
          rw [expandChildren_of_error hChild] at hResult
          exact nomatch hResult
      | ok fragment =>
          rw [expandChildren_of_ok rfl hChild] at hResult ⊢
          rcases map_eq_ok_iff.mp hResult with
            ⟨later, hLater, hCons⟩
          rw [← hCons]
          exact .next (hOne kind _ _ hChild) (ih hLater)

/- A fragment that an expansion gives is derived. -/
theorem expand_derives
    {grammar : Grammar}
    {depth : Nat}
    {kind : Kind}
    {used : TagSet}
    {stream : Stream}
    {fragment : Fragment}
    (hResult :
      (grammar.expand depth kind used stream).result =
        .ok fragment) :
    grammar.Derives (.node kind) used [fragment]
      (grammar.expand depth kind used stream).used
      (grammar.expand depth kind used stream).chosen := by
  induction depth generalizing
      kind used stream fragment with
  | zero => exact nomatch hResult
  | succ depth ih =>
      rcases exists_of_expand_ok hResult with
        ⟨entry, next, fragments, variant, hMem, hAvailable,
          hPick, hFragments, hVariant, hAssemble⟩
      have hBelow :=
        expandChildren_derives
          (fun kind used stream _ h => ih h) entry hFragments
      rw [expand_of_pick_ok depth hPick, nodeOf_used,
        nodeOf_chosen]
      exact .node hMem hAvailable hVariant hBelow hAssemble

end Grammar

end HiddenRule

------------------------------------------------------------
-- Kinds And Roles
------------------------------------------------------------

namespace HiddenRule

/- The kinds of the fragments that answer a request. -/
def Request.kinds : Request → List Kind
| .node kind => [kind]
| .children _ kinds => kinds

namespace Grammar

variable {grammar : Grammar}

/- What is derived is of the kinds that were asked for. -/
theorem Derives.kinds_eq
    {request : Request}
    {used after : TagSet}
    {fragments : List Fragment}
    {chosen : List ChosenEntry}
    (hDerives :
      grammar.Derives request used fragments after chosen) :
    fragments.map (fun node => node.constructor.kind) =
      request.kinds := by
  induction hDerives with
  | node hCandidate _ _ _ hAssemble _ =>
      rcases mem_candidates_iff.mp hCandidate with
        ⟨_, hKind, _⟩
      rcases Fragment.assemble_parts hAssemble with
        ⟨⟨hConstructor, _, _⟩, _, _⟩
      rw [List.map_singleton, hConstructor]
      exact congrArg (· :: []) hKind
  | none => rfl
  | next _ _ ihFirst ihRest =>
      rw [List.map_cons, ihRest]
      rcases List.cons.inj ihFirst with ⟨hFirst, _⟩
      exact congrArg (· :: _) hFirst

/- What is derived plays the roles of those kinds. -/
theorem Derives.roles_eq
    {request : Request}
    {used after : TagSet}
    {fragments : List Fragment}
    {chosen : List ChosenEntry}
    (hDerives :
      grammar.Derives request used fragments after chosen) :
    fragments.map Fragment.role =
      request.kinds.map Kind.role := by
  rw [← hDerives.kinds_eq, List.map_map]
  exact List.map_congr_left
    fun fragment _ => fragment.role_eq

------------------------------------------------------------
-- Ways To Stop
------------------------------------------------------------

/- Children stop because one of them does. -/
theorem expandChildren_error_cases
    {expandOne :
      Kind → TagSet → Stream → Expansion Fragment}
    {entry : Entry}
    {kinds : List Kind}
    {used : TagSet}
    {stream : Stream}
    {stop : Stop}
    (hResult :
      (expandChildren expandOne entry kinds used
        stream).result = .error stop) :
    ∃ kind ∈ kinds, ∃ budget later,
      (expandOne kind budget later).result =
        .error stop := by
  induction kinds generalizing used stream with
  | nil => exact nomatch hResult
  | cons kind rest ih =>
      cases hChild :
          (expandOne kind (entry.childBudget used)
            stream).result with
      | error first =>
          rw [expandChildren_of_error hChild] at hResult
          cases hResult
          exact ⟨kind, List.mem_cons_self, _, _, hChild⟩
      | ok fragment =>
          rw [expandChildren_of_ok rfl hChild] at hResult
          rcases ih (map_eq_error_iff.mp hResult) with
            ⟨other, hMem, hStop⟩
          exact ⟨other, List.mem_cons_of_mem _ hMem, hStop⟩

/-
  An expansion stops where no candidate can be taken, where
  a child stops, where there is no flavor to draw, or where
  the node cannot be put together.
-/
theorem expand_error_cases
    {depth : Nat}
    {kind : Kind}
    {used : TagSet}
    {stream : Stream}
    {stop : Stop}
    (hResult :
      (grammar.expand (depth + 1) kind used
        stream).result = .error stop) :
    (stop = .failed (.noApplicableEntry kind used) ∧
      ∀ entry ∈ grammar.candidates kind used,
        entry.available = false) ∨
    (∃ entry ∈ grammar.candidates kind used,
      (∃ child ∈ entry.children, ∃ budget later,
        (grammar.expand depth child budget later).result =
          .error stop) ∨
      (entry.variantCount = 0 ∧ stop = .fault .emptyRange) ∨
      ∃ variant children error,
        variant < entry.variantCount.toNat ∧
          children.map Fragment.role =
            entry.children.map Kind.role ∧
          Fragment.assemble entry.constructor variant
            children = .error error ∧
          stop = .failed error) := by
  rcases grammar.pick_cases kind used stream with
    ⟨entry, next, hMem, _, hPick⟩ | ⟨next, hNone, hPick⟩
  · right
    refine ⟨entry, hMem, ?_⟩
    rw [expand_of_pick_ok depth hPick] at hResult
    generalize hChildren :
      expandChildren (grammar.expand depth) entry
        entry.children (used.union entry.tags) next =
          children at hResult
    cases hFragments : children.result with
    | error first =>
        rw [nodeOf_of_error hFragments] at hResult
        rw [← hChildren] at hFragments
        left
        rw [← hResult]
        exact expandChildren_error_cases hFragments
    | ok fragments =>
        right
        rw [nodeOf_of_ok hFragments] at hResult
        rw [← hChildren] at hFragments
        have hBelow :=
          expandChildren_derives
            (fun _ _ _ _ h => expand_derives h) entry
            hFragments
        rcases finishNode_cases entry fragments
            children.stream with
          ⟨hZero, hFault⟩ | ⟨variant, hVariant, hFinish⟩
        · left
          rw [hFault] at hResult
          exact ⟨hZero, (Except.error.inj hResult).symm⟩
        · right
          rw [hFinish, mapError_eq_error_iff] at hResult
          rcases hResult with ⟨error, hAssemble, hStop⟩
          exact ⟨variant, fragments, error, hVariant,
            hBelow.roles_eq, hAssemble, hStop.symm⟩
  · left
    rw [expand_of_pick_error depth hPick] at hResult
    cases hResult
    exact ⟨rfl, hNone⟩

end Grammar

end HiddenRule
