import HiddenRule.Log
import HiddenRule.Proofs.Blueprints

/-
  This file proves what the log of an expansion tells.

  An expansion asks for one choice after the other.  Each
  choice that gives an entry is recorded, on the way down;
  the nodes are put together on the way up.  The records are
  nevertheless the nodes of the fragment, from the top down
  and from left to right.  If no entry can be chosen, the
  expansion ends there, and that choice leaves no record.

  Main declarations:
    * `Attempt` and `Grammar.attempts`
    * `Grammar.chosen_eq_attempts`
    * `Attempt.Explain` and `Grammar.attempts_explain`
    * `Grammar.requests`
    * `Grammar.Derives.requests_eq`
    * `Grammar.Derives.constructors_eq`
    * `Grammar.Tells` and `Grammar.TellsFailure`
    * `Grammar.records_tell_fragment`
-/

------------------------------------------------------------
-- Attempts
------------------------------------------------------------

namespace HiddenRule

/-
  A choice that was asked for: the kind, the budget, and the
  entry that was chosen, if there was one.
-/
structure Attempt where
  kind : Kind
  used : TagSet
  entry? : Option Entry
deriving DecidableEq

namespace Attempt

/- The choice that is recorded, if an entry was chosen. -/
def choice?
    (attempt : Attempt) : Option ChosenEntry :=
  attempt.entry?.map fun entry =>
    { kind := attempt.kind
      constructor := entry.constructor
      used := attempt.used }

/- Whether an entry was chosen. -/
def Succeeds
    (attempt : Attempt) : Prop :=
  attempt.entry?.isSome = true

end Attempt

namespace Grammar

/-
  The choices asked for by the children of an entry, up to
  the first child that stops.
-/
def childAttempts
    (expandOne :
      Kind → TagSet → Stream → Expansion Fragment)
    (attemptsOne :
      Kind → TagSet → Stream → List Attempt)
    (entry : Entry) :
    List Kind → TagSet → Stream → List Attempt
| [], _, _ => []
| kind :: rest, used, stream =>
    let budget := entry.childBudget used
    let child := expandOne kind budget stream
    let later :=
      match child.result with
      | .error _ => []
      | .ok _ =>
          childAttempts expandOne attemptsOne entry rest
            (if entry.separateTags then used else child.used)
            child.stream
    attemptsOne kind budget stream ++ later

/-
  The choices that an expansion asks for, one after the
  other: first for the kind itself, then for the children of
  the entry that was chosen.
-/
def attempts
    (grammar : Grammar) :
    (depth : Nat) → Kind → TagSet → Stream → List Attempt
| 0, _, _, _ => []
| depth + 1, kind, used, stream =>
    match grammar.pick kind used stream with
    | (.error _, _) => [{ kind, used, entry? := none }]
    | (.ok entry, next) =>
        { kind, used, entry? := some entry } ::
          childAttempts (grammar.expand depth)
            (attempts grammar depth) entry entry.children
            (used.union entry.tags) next

section

variable {expandOne :
  Kind → TagSet → Stream → Expansion Fragment}
variable {attemptsOne :
  Kind → TagSet → Stream → List Attempt}
variable {entry : Entry}
variable {kind : Kind}
variable {rest : List Kind}
variable {used : TagSet}
variable {stream : Stream}

/- After a child that stops no choice is asked for. -/
theorem childAttempts_of_error
    {stop : Stop}
    (hError :
      (expandOne kind (entry.childBudget used)
        stream).result = .error stop) :
    childAttempts expandOne attemptsOne entry (kind :: rest)
        used stream =
      attemptsOne kind (entry.childBudget used) stream := by
  rw [childAttempts]
  simp only [hError, List.append_nil]

/- After another child those of the later ones follow. -/
theorem childAttempts_of_ok
    {fragment : Fragment}
    (hOk :
      (expandOne kind (entry.childBudget used)
        stream).result = .ok fragment) :
    let child :=
      expandOne kind (entry.childBudget used) stream
    childAttempts expandOne attemptsOne entry (kind :: rest)
        used stream =
      attemptsOne kind (entry.childBudget used) stream ++
        childAttempts expandOne attemptsOne entry rest
          (if entry.separateTags then used else child.used)
          child.stream := by
  rw [childAttempts]
  simp only [hOk]

/- Children that stop have chosen what the last one chose. -/
theorem chosen_of_error
    {stop : Stop}
    (hError :
      (expandOne kind (entry.childBudget used)
        stream).result = .error stop) :
    (expandChildren expandOne entry (kind :: rest) used
      stream).chosen =
      (expandOne kind (entry.childBudget used)
        stream).chosen := by
  rw [expandChildren]
  simp only [hError]

end

variable {grammar : Grammar}
variable {depth : Nat}
variable {kind : Kind}
variable {used : TagSet}
variable {stream next : Stream}
variable {entry : Entry}

/- A choice that fails is the only one. -/
theorem attempts_of_pick_error
    {stop : Stop}
    (hPick :
      grammar.pick kind used stream = (.error stop, next)) :
    grammar.attempts (depth + 1) kind used stream =
      [{ kind, used, entry? := none }] := by
  rw [attempts, hPick]

/- A choice that gives an entry is followed by others. -/
theorem attempts_of_pick_ok
    (hPick :
      grammar.pick kind used stream = (.ok entry, next)) :
    grammar.attempts (depth + 1) kind used stream =
      { kind, used, entry? := some entry } ::
        childAttempts (grammar.expand depth)
          (grammar.attempts depth) entry entry.children
          (used.union entry.tags) next := by
  rw [attempts, hPick]

------------------------------------------------------------
-- One Record For Each Entry
------------------------------------------------------------

/- Children record the entries chosen for each of them. -/
private theorem chosen_eq_childAttempts
    (hOne :
      ∀ kind used stream,
        (grammar.expand depth kind used stream).chosen =
          (grammar.attempts depth kind used
            stream).filterMap Attempt.choice?)
    (entry : Entry)
    (kinds : List Kind)
    (used : TagSet)
    (stream : Stream) :
    (expandChildren (grammar.expand depth) entry kinds used
      stream).chosen =
      (childAttempts (grammar.expand depth)
        (grammar.attempts depth) entry kinds used
        stream).filterMap Attempt.choice? := by
  induction kinds generalizing used stream with
  | nil => rfl
  | cons kind rest ih =>
      cases hChild :
          (grammar.expand depth kind (entry.childBudget used)
            stream).result with
      | error stop =>
          rw [chosen_of_error hChild,
            childAttempts_of_error hChild, hOne]
      | ok fragment =>
          rw [expandChildren_of_ok rfl hChild,
            childAttempts_of_ok hChild,
            List.filterMap_append, hOne, ih]

/-
  An expansion records the entries that were chosen, and
  nothing else, in the order of the choices.
-/
theorem chosen_eq_attempts
    (grammar : Grammar)
    (depth : Nat)
    (kind : Kind)
    (used : TagSet)
    (stream : Stream) :
    (grammar.expand depth kind used stream).chosen =
      (grammar.attempts depth kind used stream).filterMap
        Attempt.choice? := by
  induction depth generalizing kind used stream with
  | zero => rfl
  | succ depth ih =>
      cases hPick : grammar.pick kind used stream with
      | mk picked next =>
          cases picked with
          | error stop =>
              rw [expand_of_pick_error depth hPick,
                attempts_of_pick_error hPick]
              rfl
          | ok entry =>
              rw [expand_of_pick_ok depth hPick,
                attempts_of_pick_ok hPick, nodeOf_chosen,
                chosen_eq_childAttempts ih]
              rfl

end Grammar

end HiddenRule

------------------------------------------------------------
-- Why An Expansion Stops
------------------------------------------------------------

namespace HiddenRule

/-
  Attempts explain a result: if no entry was applicable, the
  last one asked for one in vain, with the kind and the
  budget of the error, and it is the only one to do so.
-/
def Attempt.Explain
    {α : Type}
    (result : Except Stop α)
    (attempts : List Attempt) : Prop :=
  (∃ kind used earlier,
    result = .error (.failed (.noApplicableEntry kind used)) ∧
      attempts = earlier ++ [⟨kind, used, none⟩] ∧
        ∀ attempt ∈ earlier, attempt.Succeeds) ∨
  ((∀ kind used,
      result ≠
        .error (.failed (.noApplicableEntry kind used))) ∧
    ∀ attempt ∈ attempts, attempt.Succeeds)

namespace Attempt

variable {α β : Type}
variable {attempts earlier later : List Attempt}

/- An answer is explained by successes. -/
theorem explain_ok_iff
    {answer : α} :
    Explain (.ok answer : Except Stop α) attempts ↔
      ∀ attempt ∈ attempts, attempt.Succeeds := by
  constructor
  · rintro (⟨_, _, _, hError, _⟩ | ⟨_, hSucceed⟩)
    · exact nomatch hError
    · exact hSucceed
  · intro hSucceed
    exact Or.inr ⟨fun _ _ => nofun, hSucceed⟩

/- The same stop is explained by the same attempts. -/
theorem Explain.of_error
    {stop : Stop}
    (hExplain :
      Explain (.error stop : Except Stop α) attempts) :
    Explain (.error stop : Except Stop β) attempts := by
  rcases hExplain with
    ⟨kind, used, earlier, hError, hAttempts⟩ |
    ⟨hOther, hSucceed⟩
  · left
    cases hError
    exact ⟨kind, used, earlier, rfl, hAttempts⟩
  · right
    refine ⟨fun kind used hError => ?_, hSucceed⟩
    cases hError
    exact hOther kind used rfl

/- What is made of an answer needs no other explanation. -/
theorem Explain.map
    {result : Except Stop α}
    {change : α → β}
    (hExplain : Explain result attempts) :
    Explain (result.map change) attempts := by
  cases result with
  | error stop => exact hExplain.of_error
  | ok answer =>
      rw [explain_ok_iff] at hExplain
      exact explain_ok_iff.mpr hExplain

/- Successes in front change no explanation. -/
theorem Explain.append
    {result : Except Stop α}
    (hEarlier : ∀ attempt ∈ earlier, attempt.Succeeds)
    (hExplain : Explain result later) :
    Explain result (earlier ++ later) := by
  rcases hExplain with
    ⟨kind, used, between, hError, rfl, hBetween⟩ |
    ⟨hOther, hSucceed⟩
  · left
    refine ⟨kind, used, earlier ++ between, hError,
      (List.append_assoc ..).symm, ?_⟩
    exact List.forall_mem_append.mpr ⟨hEarlier, hBetween⟩
  · right
    exact ⟨hOther,
      List.forall_mem_append.mpr ⟨hEarlier, hSucceed⟩⟩

end Attempt

namespace Grammar

variable {grammar : Grammar}
variable {depth : Nat}

/- To put a node together takes no entry. -/
theorem finishNode_ne_noApplicableEntry
    (entry : Entry)
    (fragments : List Fragment)
    (stream : Stream)
    (kind : Kind)
    (used : TagSet) :
    (finishNode entry fragments stream).1 ≠
      .error (.failed (.noApplicableEntry kind used)) := by
  intro hError
  rcases finishNode_cases entry fragments stream with
    ⟨_, hFault⟩ | ⟨variant, _, hFinish⟩
  · rw [hFault] at hError
    exact nomatch hError
  · rw [hFinish, mapError_eq_error_iff] at hError
    rcases hError with ⟨error, hAssemble, hEq⟩
    cases hEq
    exact nomatch Fragment.assemble_eq_error_iff.mp hAssemble

/- The attempts of children explain what they come to. -/
private theorem childAttempts_explain
    (hOne :
      ∀ kind used stream,
        Attempt.Explain
          (grammar.expand depth kind used stream).result
          (grammar.attempts depth kind used stream))
    (entry : Entry)
    (kinds : List Kind)
    (used : TagSet)
    (stream : Stream) :
    Attempt.Explain
      (expandChildren (grammar.expand depth) entry kinds used
        stream).result
      (childAttempts (grammar.expand depth)
        (grammar.attempts depth) entry kinds used
        stream) := by
  induction kinds generalizing used stream with
  | nil =>
      apply Attempt.explain_ok_iff.mpr
      intro attempt hMem
      exact absurd hMem List.not_mem_nil
  | cons kind rest ih =>
      have hFirst :=
        hOne kind (entry.childBudget used) stream
      cases hChild :
          (grammar.expand depth kind (entry.childBudget used)
            stream).result with
      | error stop =>
          rw [hChild] at hFirst
          rw [expandChildren_of_error hChild,
            childAttempts_of_error hChild]
          exact hFirst.of_error
      | ok fragment =>
          rw [hChild, Attempt.explain_ok_iff] at hFirst
          rw [expandChildren_of_ok rfl hChild,
            childAttempts_of_ok hChild]
          exact Attempt.Explain.append hFirst (ih _ _).map

/- The attempts of an expansion explain what it comes to. -/
theorem attempts_explain
    (grammar : Grammar)
    (depth : Nat)
    (kind : Kind)
    (used : TagSet)
    (stream : Stream) :
    Attempt.Explain
      (grammar.expand depth kind used stream).result
      (grammar.attempts depth kind used stream) := by
  induction depth generalizing kind used stream with
  | zero =>
      right
      exact ⟨fun _ _ => nofun,
        fun _ hMem => absurd hMem List.not_mem_nil⟩
  | succ depth ih =>
      rcases grammar.pick_cases kind used stream with
        ⟨entry, next, _, _, hPick⟩ | ⟨next, _, hPick⟩
      · have hChildren :=
          childAttempts_explain ih entry entry.children
            (used.union entry.tags) next
        rw [expand_of_pick_ok depth hPick,
          attempts_of_pick_ok hPick, ← List.singleton_append]
        apply Attempt.Explain.append
        · intro attempt hMem
          rw [List.mem_singleton.mp hMem]
          rfl
        · generalize
            expandChildren (grammar.expand depth) entry
              entry.children (used.union entry.tags) next =
                children at hChildren ⊢
          cases hResult : children.result with
          | error stop =>
              rw [hResult] at hChildren
              rw [nodeOf_of_error hResult]
              exact hChildren.of_error
          | ok fragments =>
              rw [hResult, Attempt.explain_ok_iff]
                at hChildren
              rw [nodeOf_of_ok hResult]
              exact Or.inr
                ⟨finishNode_ne_noApplicableEntry _ _ _,
                  hChildren⟩
      · rw [expand_of_pick_error depth hPick,
          attempts_of_pick_error hPick]
        left
        exact ⟨kind, used, [], rfl, rfl,
          fun _ hMem => absurd hMem List.not_mem_nil⟩

end Grammar

end HiddenRule

------------------------------------------------------------
-- The Order Of The Nodes
------------------------------------------------------------

namespace HiddenRule

/- A choice as the kind asked for and the constructor. -/
def ChosenEntry.request
    (choice : ChosenEntry) : Kind × Constructor :=
  (choice.kind, choice.constructor)

namespace Grammar

/- The kinds that the entry of a node asks for below it. -/
def childKinds
    (grammar : Grammar)
    (node : Fragment) : List Kind :=
  match grammar.entryFor? node.constructor with
  | some entry => entry.children
  | none => []

/-
  The constructors of all nodes of a row of fragments, from
  the top down and from left to right, each with the kind
  that was asked for in its place: those of the row are
  given, and below a node its entry tells them.
-/
def requests
    (grammar : Grammar) :
    List Kind → List Fragment → List (Kind × Constructor)
| kind :: kinds, node :: rest =>
    (kind, node.constructor) ::
      (requests grammar (grammar.childKinds node)
          node.children ++
        requests grammar kinds rest)
| _, _ => []
termination_by _ fragments => Fragment.totalCount fragments
decreasing_by
  all_goals
    simp only [Fragment.totalCount, Fragment.nodeCount_eq]
    omega

variable {grammar : Grammar}

/- The requests of one node and of those below it. -/
theorem requests_singleton
    (kind : Kind)
    (node : Fragment) :
    grammar.requests [kind] [node] =
      (kind, node.constructor) ::
        grammar.requests (grammar.childKinds node)
          node.children := by
  simp [requests]

/- The requests of fragments follow one another. -/
theorem requests_cons
    (kind : Kind)
    (kinds : List Kind)
    (node : Fragment)
    (rest : List Fragment) :
    grammar.requests (kind :: kinds) (node :: rest) =
      grammar.requests [kind] [node] ++
        grammar.requests kinds rest := by
  rw [requests_singleton, requests, List.cons_append]

/- A node that was assembled asks for what its entry does. -/
theorem childKinds_of_mem
    {entry : Entry}
    {node : Fragment}
    (hMem : entry ∈ grammar.entries)
    (hConstructor : node.constructor = entry.constructor) :
    grammar.childKinds node = entry.children := by
  simp only [childKinds, hConstructor, entryFor?_of_mem hMem]

/- The choices of a derivation are the requests, in order. -/
theorem Derives.requests_eq
    {request : Request}
    {used after : TagSet}
    {fragments : List Fragment}
    {chosen : List ChosenEntry}
    (hDerives :
      grammar.Derives request used fragments after chosen) :
    chosen.map ChosenEntry.request =
      grammar.requests request.kinds fragments := by
  induction hDerives with
  | node hCandidate _ _ _ hAssemble ih =>
      have hMem := (mem_candidates_iff.mp hCandidate).1
      rcases Fragment.assemble_parts hAssemble with
        ⟨⟨hConstructor, _, hChildren⟩, _, _⟩
      rw [List.map_cons, ih, Request.kinds, Request.kinds,
        requests_singleton, hConstructor, hChildren,
        childKinds_of_mem hMem hConstructor]
      rfl
  | none => simp [requests]
  | @next _ kind rest _ _ _ node later _ _ _ _ ihFirst
      ihRest =>
      rw [List.map_append, ihFirst, ihRest]
      exact (requests_cons kind rest node later).symm

/- They are the nodes, from the top down. -/
theorem Derives.constructors_eq
    {request : Request}
    {used after : TagSet}
    {fragments : List Fragment}
    {chosen : List ChosenEntry}
    (hDerives :
      grammar.Derives request used fragments after chosen) :
    chosen.map ChosenEntry.constructor =
      (fragments.flatMap Fragment.nodes).map
        Fragment.constructor := by
  induction hDerives with
  | node _ _ _ _ hAssemble ih =>
      rcases Fragment.assemble_parts hAssemble with
        ⟨⟨hConstructor, _, hChildren⟩, _, _⟩
      rw [List.map_cons, ih, List.flatMap_singleton,
        Fragment.nodes_eq, List.map_cons, hConstructor,
        hChildren]
  | none => rfl
  | next _ _ ihFirst ihRest =>
      rw [List.flatMap_singleton] at ihFirst
      rw [List.map_append, ihFirst, ihRest,
        List.flatMap_cons, List.map_append]

end Grammar

end HiddenRule

------------------------------------------------------------
-- What Is Told
------------------------------------------------------------

namespace HiddenRule

/-
  What is told of a fragment: all choices gave an entry, and
  the recorded ones are the nodes, from the top down and from
  left to right, each with the kind that was asked for in its
  place and the budget in force before its tags are claimed.
  The records name the three in their fields.
-/
structure Grammar.Tells
    (grammar : Grammar)
    (kind : Kind)
    (used : TagSet)
    (fragment : Fragment)
    (attempts : List Attempt)
    (chosen : List ChosenEntry) : Prop where
  succeed : ∀ attempt ∈ attempts, attempt.Succeeds
  nodes :
    chosen.map ChosenEntry.constructor =
      fragment.nodes.map Fragment.constructor
  requests :
    chosen.map ChosenEntry.request =
      grammar.requests [kind] [fragment]
  budgets :
    chosen.map ChosenEntry.place =
      grammar.budgets false used [fragment]
  fields :
    (chosen.map ChosenEntry.record).map Record.fields =
      List.zipWith
        (fun request place =>
          [("kind", request.1.text),
           ("constructor", request.2.name),
           ("used", place.2.text)])
        (grammar.requests [kind] [fragment])
        (grammar.budgets false used [fragment])

/-
  What is told where no entry of a kind fits a budget: just
  the last choice failed, the one for that kind within that
  budget, and only the choices before it are recorded.
-/
structure Grammar.TellsFailure
    (grammar : Grammar)
    (kind : Kind)
    (used : TagSet)
    (attempts : List Attempt)
    (chosen : List ChosenEntry) : Prop where
  last :
    ∃ earlier,
      attempts = earlier ++ [{ kind, used, entry? := none }] ∧
        (∀ attempt ∈ earlier, attempt.Succeeds) ∧
        chosen = earlier.filterMap Attempt.choice? ∧
        chosen.length = earlier.length
  none_fits :
    ∀ entry ∈ grammar.candidates kind used,
      entry.available = false

namespace Grammar

variable {grammar : Grammar}
variable {depth : Nat}
variable {kind : Kind}
variable {used : TagSet}
variable {stream : Stream}

/- Where no entry was applicable there is none to take. -/
theorem none_available_of_expand
    {asked : Kind}
    {budget : TagSet}
    (hResult :
      (grammar.expand depth kind used stream).result =
        .error (.failed (.noApplicableEntry asked budget))) :
    ∀ entry ∈ grammar.candidates asked budget,
      entry.available = false := by
  induction depth generalizing kind used stream with
  | zero => exact nomatch hResult
  | succ depth ih =>
      rcases expand_error_cases hResult with
        ⟨hStop, hNone⟩ |
        ⟨entry, _, hChild | ⟨_, hFault⟩ | hAssemble⟩
      · cases hStop
        exact hNone
      · rcases hChild with ⟨child, _, left, later, hStop⟩
        exact ih hStop
      · exact nomatch hFault
      · rcases hAssemble with
          ⟨_, _, error, _, _, hError, hStop⟩
        cases hStop
        exact nomatch
          Fragment.assemble_eq_error_iff.mp hError

/- The fields of the records of choices. -/
private theorem fields_of_chosen
    (chosen : List ChosenEntry) :
    (chosen.map ChosenEntry.record).map Record.fields =
      List.zipWith
        (fun request place =>
          [("kind", request.1.text),
           ("constructor", request.2.name),
           ("used", place.2.text)])
        (chosen.map ChosenEntry.request)
        (chosen.map ChosenEntry.place) := by
  induction chosen with
  | nil => rfl
  | cons choice rest ih =>
      rw [List.map_cons, List.map_cons, ih]
      rfl

/- A choice that gave an entry is recorded. -/
private theorem length_choices
    {attempts : List Attempt}
    (hSucceed : ∀ attempt ∈ attempts, attempt.Succeeds) :
    (attempts.filterMap Attempt.choice?).length =
      attempts.length := by
  rw [List.filterMap_length_eq_length]
  intro attempt hMem
  rw [Attempt.choice?, Option.isSome_map]
  exact hSucceed attempt hMem

/-
  The log of an expansion tells its fragment: the records
  are those of the entries chosen, one for each of them; they
  list the nodes of the fragment in order, if there is one;
  and where the expansion ends for want of an entry, it is
  the next record that is missing.
-/
theorem records_tell_fragment
    (grammar : Grammar)
    (depth : Nat)
    (kind : Kind)
    (used : TagSet)
    (stream : Stream) :
    let expansion := grammar.expand depth kind used stream
    let attempts := grammar.attempts depth kind used stream
    expansion.chosen =
        attempts.filterMap Attempt.choice? ∧
      (∀ fragment,
        expansion.result = .ok fragment →
          grammar.Tells kind used fragment attempts
            expansion.chosen) ∧
      ∀ asked budget,
        expansion.result =
            .error
              (.failed (.noApplicableEntry asked budget)) →
          grammar.TellsFailure asked budget attempts
            expansion.chosen := by
  have hChosen :=
    grammar.chosen_eq_attempts depth kind used stream
  have hExplain :=
    grammar.attempts_explain depth kind used stream
  refine ⟨hChosen, ?_, ?_⟩
  · intro fragment hResult
    have hDerives := expand_derives hResult
    have hRequests := hDerives.requests_eq
    have hBudgets := hDerives.keeps.recorded_eq
    rw [hResult, Attempt.explain_ok_iff] at hExplain
    refine ⟨hExplain, ?_, hRequests, hBudgets, ?_⟩
    · rw [hDerives.constructors_eq, List.flatMap_singleton]
    · rw [fields_of_chosen, hRequests, hBudgets]
      rfl
  · intro asked budget hResult
    refine ⟨?_, none_available_of_expand hResult⟩
    rcases hExplain with
      ⟨last, left, earlier, hLast, hAttempts, hSucceed⟩ |
      ⟨hOther, _⟩
    · rw [hResult] at hLast
      cases hLast
      refine ⟨earlier, hAttempts, hSucceed, ?_, ?_⟩
      · rw [hChosen, hAttempts, List.filterMap_append]
        exact List.append_nil _
      · rw [hChosen, hAttempts, List.filterMap_append,
          List.length_append, length_choices hSucceed]
        rfl
    · exact absurd hResult (hOther asked budget)

/-
  A grammar whose only noun claims what its only rule has
  claimed already.
-/
def cramped : Grammar where
  entries :=
    [{ constructor := .lineRule, weight := 1,
       tags := .ofList [.position], variantCount := 2,
       children := [.noun] },
     { constructor := .rowNoun, weight := 1,
       tags := .ofList [.position], variantCount := 3 }]
  distinct := by decide

set_option maxRecDepth 4000 in
/-
  "Every blue symbol is next to a blue symbol" is told by
  four records, and a rule without a noun that fits by one.
-/
theorem records_of_neighborhood_and_line :
    let whole :=
      standard.expand 3 .rule .empty (Stream.ofSeed 3)
    let broken :=
      cramped.expand 2 .rule .empty (Stream.ofSeed 5)
    let fragment : Fragment :=
      .rule (.universal (.colorNoun .blue)
        (.adjacentTo (.colorNoun .blue)))
    let position : TagSet := .ofList [.position]
    (whole.result = .ok fragment ∧
      standard.Tells .rule .empty fragment
        (standard.attempts 3 .rule .empty (Stream.ofSeed 3))
        whole.chosen) ∧
    broken.result =
        .error
          (.failed (.noApplicableEntry .noun position)) ∧
      cramped.TellsFailure .noun position
        (cramped.attempts 2 .rule .empty (Stream.ofSeed 5))
        broken.chosen := by
  have hWhole :
      (standard.expand 3 .rule .empty
        (Stream.ofSeed 3)).result =
          .ok (.rule (.universal (.colorNoun .blue)
            (.adjacentTo (.colorNoun .blue)))) := by
    decide +kernel
  have hBroken :
      (cramped.expand 2 .rule .empty
        (Stream.ofSeed 5)).result =
          .error (.failed (.noApplicableEntry .noun
            (.ofList [.position]))) := by
    decide +kernel
  have hTold :=
    standard.records_tell_fragment 3 .rule .empty
      (Stream.ofSeed 3)
  have hFailure :=
    cramped.records_tell_fragment 2 .rule .empty
      (Stream.ofSeed 5)
  exact ⟨⟨hWhole, hTold.2.1 _ hWhole⟩, hBroken,
    hFailure.2.2 _ _ hBroken⟩

end Grammar

end HiddenRule
