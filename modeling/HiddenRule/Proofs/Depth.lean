import HiddenRule.Proofs.Derivation

/-
  This file proves how the limit of the depth acts on an
  expansion: an expansion is too deep only through one of
  its children, and one that is not comes out the same with
  more depth.

  Main declarations:
    * `Grammar.expand_tooDeep_iff`
    * `Grammar.expandChildren_only_tooDeep_iff`
    * `Grammar.expand_mono`
-/

------------------------------------------------------------
-- Too Deep
------------------------------------------------------------

namespace HiddenRule

namespace Grammar

variable {grammar : Grammar}

/- To finish a node takes no depth. -/
theorem finishNode_ne_tooDeep
    (entry : Entry)
    (fragments : List Fragment)
    (stream : Stream) :
    (finishNode entry fragments stream).1 ≠
      .error .tooDeep := by
  intro hDeep
  rcases finishNode_cases entry fragments stream with
    ⟨_, hFault⟩ | ⟨variant, _, hFinish⟩
  · rw [hFault] at hDeep
    exact nomatch hDeep
  · rw [hFinish, mapError_eq_error_iff] at hDeep
    rcases hDeep with ⟨_, _, hEq⟩
    exact nomatch hEq

/- A node is too deep exactly if its children are. -/
theorem nodeOf_tooDeep_iff
    {entry : Entry}
    {choice : ChosenEntry}
    {children : Expansion (List Fragment)} :
    (nodeOf entry choice children).result =
        .error .tooDeep ↔
      children.result = .error .tooDeep := by
  cases hChildren : children.result with
  | error stop =>
      rw [nodeOf_of_error hChildren, Except.error.injEq,
        Except.error.injEq]
  | ok fragments =>
      rw [nodeOf_of_ok hChildren]
      constructor
      · intro hDeep
        exact absurd hDeep (finishNode_ne_tooDeep _ _ _)
      · intro hOk
        exact nomatch hOk

/- With a pick, an expansion is as deep as the children. -/
theorem expand_tooDeep_iff
    {kind : Kind}
    {used : TagSet}
    {stream next : Stream}
    {entry : Entry}
    (depth : Nat)
    (hPick :
      grammar.pick kind used stream = (.ok entry, next)) :
    (grammar.expand (depth + 1) kind used stream).result =
        .error .tooDeep ↔
      (expandChildren (grammar.expand depth) entry
        entry.children (used.union entry.tags)
        next).result = .error .tooDeep := by
  rw [expand_of_pick_ok depth hPick, nodeOf_tooDeep_iff]

/- An expansion that is too deep has made its pick. -/
theorem exists_pick_of_tooDeep
    {depth : Nat}
    {kind : Kind}
    {used : TagSet}
    {stream : Stream}
    (hDeep :
      (grammar.expand (depth + 1) kind used
        stream).result = .error .tooDeep) :
    ∃ entry next,
      grammar.pick kind used stream = (.ok entry, next) := by
  rcases grammar.pick_cases kind used stream with
    ⟨entry, next, _, _, hPick⟩ | ⟨next, _, hPick⟩
  · exact ⟨entry, next, hPick⟩
  · rw [expand_of_pick_error depth hPick] at hDeep
    exact nomatch hDeep

/- An only child is as deep as the row of children. -/
theorem expandChildren_only_tooDeep_iff
    {expandOne :
      Kind → TagSet → Stream → Expansion Fragment}
    {entry : Entry}
    {kind : Kind}
    {used : TagSet}
    {stream : Stream} :
    (expandChildren expandOne entry [kind] used
        stream).result = .error .tooDeep ↔
      (expandOne kind (entry.childBudget used)
        stream).result = .error .tooDeep := by
  cases hChild :
      (expandOne kind (entry.childBudget used)
        stream).result with
  | error stop =>
      rw [expandChildren_of_error hChild,
        Except.error.injEq, Except.error.injEq]
  | ok fragment =>
      rw [expandChildren_of_ok rfl hChild]
      constructor
      · intro hDeep
        exact nomatch hDeep
      · intro hOk
        exact nomatch hOk

------------------------------------------------------------
-- More Depth
------------------------------------------------------------

/-
  Children that are not too deep come out the same if each
  child that is not too deep does.
-/
theorem expandChildren_eq_of_ends
    {expandOne expandMore :
      Kind → TagSet → Stream → Expansion Fragment}
    (hMore :
      ∀ kind used stream,
        (expandOne kind used stream).result ≠
            .error .tooDeep →
          expandMore kind used stream =
            expandOne kind used stream)
    {entry : Entry}
    {kinds : List Kind}
    {used : TagSet}
    {stream : Stream}
    (hEnds :
      (expandChildren expandOne entry kinds used
        stream).result ≠ .error .tooDeep) :
    expandChildren expandMore entry kinds used stream =
      expandChildren expandOne entry kinds used stream := by
  induction kinds generalizing used stream with
  | nil => rfl
  | cons kind rest ih =>
      cases hChild :
          (expandOne kind (entry.childBudget used)
            stream).result with
      | error stop =>
          rw [expandChildren_of_error hChild, ne_eq,
            Except.error.injEq] at hEnds
          have hSame := hMore kind _ stream
            (by rw [hChild, ne_eq, Except.error.injEq]
                exact hEnds)
          rw [expandChildren, expandChildren]
          simp only [hSame, hChild]
      | ok fragment =>
          have hSame :=
            hMore kind (entry.childBudget used) stream
              (by simp [hChild])
          rw [expandChildren_of_ok rfl hChild] at hEnds ⊢
          rw [expandChildren_of_ok hSame hChild]
          rw [ih fun h => hEnds (map_eq_error_iff.mpr h)]

/- An expansion that has an end keeps it with more depth. -/
theorem expand_mono
    {depth more : Nat}
    {kind : Kind}
    {used : TagSet}
    {stream : Stream}
    (hEnds :
      (grammar.expand depth kind used stream).result ≠
        .error .tooDeep)
    (hMore : depth ≤ more) :
    grammar.expand more kind used stream =
      grammar.expand depth kind used stream := by
  induction depth generalizing more kind used stream with
  | zero => exact absurd rfl hEnds
  | succ depth ih =>
      rcases Nat.exists_eq_add_of_le' hMore with ⟨extra, hEq⟩
      rw [hEq, ← Nat.add_assoc]
      rcases grammar.pick_cases kind used stream with
        ⟨entry, next, _, _, hPick⟩ | ⟨next, _, hPick⟩
      · rw [ne_eq, expand_tooDeep_iff depth hPick] at hEnds
        rw [expand_of_pick_ok _ hPick,
          expand_of_pick_ok _ hPick,
          expandChildren_eq_of_ends _ hEnds]
        intro child budget later hChild
        exact ih hChild (Nat.le_add_left depth extra)
      · rw [expand_of_pick_error _ hPick,
          expand_of_pick_error _ hPick]

end Grammar

end HiddenRule
