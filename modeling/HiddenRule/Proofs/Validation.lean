import HiddenRule.Grammar.Standard
import HiddenRule.Proofs.Derivation

/-
  This file says which grammars are valid, and proves that
  an expansion over a valid grammar stops in two ways only:
  a kind other than a rule finds no entry that fits the
  budget, or an entry has more flavors than its constructor.

  Validity does not depend on the order in which the kinds
  are gone through.  What a grammar is refused for does, but
  only if entries of two kinds fail.

  Main declarations:
    * `Grammar.WellFormed` and `Grammar.validate_eq_ok_iff`
    * `Grammar.Blames` and `Grammar.blames_of_validate`
    * `Grammar.validate_eq_validate`
    * `Grammar.Tolerates`
    * `Grammar.WellFormed.tolerates`
    * `Grammar.newRule_of_validate`
-/

------------------------------------------------------------
-- Valid Grammars
------------------------------------------------------------

namespace HiddenRule

namespace Grammar

variable {grammar : Grammar}

/-
  What is asked of an entry: it has a flavor, its children
  play the roles of the slots, and each child has an entry
  that can be taken.
-/
structure Accepts
    (grammar : Grammar)
    (entry : Entry) : Prop where
  flavored : entry.variantCount ≠ 0
  fitting :
    entry.children.map Kind.role =
      entry.constructor.childRoles
  offered :
    ∀ kind ∈ entry.children,
      ∃ other ∈ grammar.entries,
        other.kind = kind ∧ other.available = true

/-
  What is asked of a grammar: it accepts its entries, and a
  rule that can be taken claims nothing.
-/
structure WellFormed
    (grammar : Grammar) : Prop where
  accepts : ∀ entry ∈ grammar.entries, grammar.Accepts entry
  rooted :
    ∃ entry ∈ grammar.entries,
      entry.kind = .rule ∧ entry.available = true ∧
        entry.tags = .empty

/- A kind is on offer if one of its entries can be taken. -/
theorem offers_eq_true_iff
    {kind : Kind} :
    grammar.offers kind = true ↔
      ∃ entry ∈ grammar.entries,
        entry.kind = kind ∧ entry.available = true := by
  simp only [offers, entriesFor, List.any_eq_true,
    List.mem_filter, beq_iff_eq, and_assoc]

/- As many slots as kinds are checked role by role. -/
theorem checkSlots_eq_ok_iff
    {constructor : Constructor}
    {kinds : List Kind}
    {roles : List Role}
    (slot : Nat)
    (hLength : kinds.length = roles.length) :
    checkSlots constructor slot kinds roles = .ok () ↔
      kinds.map Kind.role = roles := by
  induction kinds generalizing slot roles with
  | nil =>
      rw [List.length_nil, eq_comm, List.length_eq_zero_iff]
        at hLength
      rw [hLength]
      exact ⟨fun _ => rfl, fun _ => rfl⟩
  | cons kind kinds ih =>
      cases roles with
      | nil => exact nomatch hLength
      | cons expected roles =>
          have hRest := Nat.succ.inj hLength
          rw [checkSlots, List.map_cons, List.cons.injEq]
          by_cases hRole : kind.role = expected
          · rw [if_pos hRole, ih (slot + 1) hRest]
            exact ⟨fun h => ⟨hRole, h⟩, fun h => h.2⟩
          · rw [if_neg hRole]
            constructor
            · intro hCheck
              exact nomatch hCheck
            · intro ⟨hEq, _⟩
              exact absurd hEq hRole

/- Each of several kinds must be on offer. -/
theorem checkOffers_eq_ok_iff
    {constructor : Constructor}
    {kinds : List Kind} :
    grammar.checkOffers constructor kinds = .ok () ↔
      ∀ kind ∈ kinds, grammar.offers kind = true := by
  induction kinds with
  | nil => simp [checkOffers]
  | cons kind kinds ih =>
      rw [checkOffers, List.forall_mem_cons, ← ih]
      by_cases hOffers : grammar.offers kind = true
      · rw [if_pos hOffers]
        exact ⟨fun h => ⟨hOffers, h⟩, fun h => h.2⟩
      · rw [if_neg hOffers]
        constructor
        · intro hCheck
          exact nomatch hCheck
        · intro ⟨hFirst, _⟩
          exact absurd hFirst hOffers

/- An entry passes exactly if the grammar accepts it. -/
theorem checkEntry_eq_ok_iff
    {entry : Entry} :
    grammar.checkEntry entry = .ok () ↔
      grammar.Accepts entry := by
  unfold checkEntry
  constructor
  · intro hCheck
    dsimp only at hCheck
    split at hCheck
    · exact nomatch hCheck
    · rename_i hFlavored
      split at hCheck
      · exact nomatch hCheck
      · rename_i hLength
        rw [Decidable.not_not] at hLength
        rcases bind_eq_ok_iff.mp hCheck with
          ⟨_, hSlots, hOffers⟩
        refine ⟨hFlavored, ?_, ?_⟩
        · exact (checkSlots_eq_ok_iff 0 hLength).mp hSlots
        · intro kind hKind
          exact offers_eq_true_iff.mp
            (checkOffers_eq_ok_iff.mp hOffers kind hKind)
  · intro hAccepts
    have hLength :
        entry.children.length =
          entry.constructor.childRoles.length := by
      rw [← hAccepts.fitting, List.length_map]
    dsimp only
    rw [if_neg hAccepts.flavored, if_neg (by simp [hLength])]
    refine bind_eq_ok_iff.mpr ⟨(), ?_, ?_⟩
    · exact (checkSlots_eq_ok_iff 0 hLength).mpr
        hAccepts.fitting
    · refine checkOffers_eq_ok_iff.mpr fun kind hKind => ?_
      exact offers_eq_true_iff.mpr
        (hAccepts.offered kind hKind)

/- Entries pass exactly if each of them does. -/
theorem checkEntries_eq_ok_iff
    {entries : List Entry} :
    grammar.checkEntries entries = .ok () ↔
      ∀ entry ∈ entries, grammar.Accepts entry := by
  induction entries with
  | nil => simp [checkEntries]
  | cons entry rest ih =>
      rw [checkEntries, List.forall_mem_cons, ← ih,
        ← checkEntry_eq_ok_iff, bind_eq_ok_iff]
      constructor
      · intro ⟨_, hEntry, hRest⟩
        exact ⟨hEntry, hRest⟩
      · intro ⟨hEntry, hRest⟩
        exact ⟨(), hEntry, hRest⟩

/- A root is free if a rule can be taken and claims nothing. -/
theorem hasFreeRoot_eq_true_iff :
    grammar.hasFreeRoot = true ↔
      ∃ entry ∈ grammar.entries,
        entry.kind = .rule ∧ entry.available = true ∧
          entry.tags = .empty := by
  have hEmpty :
      ∀ set : TagSet, set.isEmpty = true ↔ set = .empty := by
    intro ⟨bits⟩
    simp [TagSet.isEmpty, TagSet.empty]
  simp only [hasFreeRoot, entriesFor, List.any_eq_true,
    List.mem_filter, beq_iff_eq, Bool.and_eq_true, and_assoc,
    hEmpty]

/- Every order of the kinds comes to every entry. -/
theorem mem_inOrder_iff
    {order : KindOrder}
    {entry : Entry} :
    entry ∈ order.kinds.flatMap grammar.entriesFor ↔
      entry ∈ grammar.entries := by
  have hKind : entry.kind ∈ order.kinds := by
    apply order.perm.mem_iff.mpr
    cases entry.kind <;> decide
  simp [entriesFor, hKind]

/-
  Validation passes exactly the well-formed grammars, in
  every order of the kinds.
-/
theorem validate_eq_ok_iff
    {order : KindOrder} :
    grammar.validate order = .ok () ↔
      grammar.WellFormed := by
  unfold validate
  rw [bind_eq_ok_iff]
  constructor
  · intro ⟨_, hEntries, hRoot⟩
    split at hRoot
    · rename_i hFree
      refine ⟨fun entry hEntry => ?_,
        hasFreeRoot_eq_true_iff.mp hFree⟩
      exact checkEntries_eq_ok_iff.mp hEntries entry
        (mem_inOrder_iff.mpr hEntry)
    · exact nomatch hRoot
  · intro hWellFormed
    refine ⟨(), ?_, ?_⟩
    · refine checkEntries_eq_ok_iff.mpr fun entry hEntry => ?_
      exact hWellFormed.accepts entry
        (mem_inOrder_iff.mp hEntry)
    · rw [if_pos
        (hasFreeRoot_eq_true_iff.mpr hWellFormed.rooted)]
      rfl

end Grammar

end HiddenRule

------------------------------------------------------------
-- Refused Grammars
------------------------------------------------------------

namespace HiddenRule

namespace Grammar

variable {grammar : Grammar}

/- The first entry that fails is the one that is named. -/
theorem checkEntries_eq_error_iff
    {entries : List Entry}
    {error : BuildError} :
    grammar.checkEntries entries = .error error ↔
      ∃ before entry after,
        entries = before ++ entry :: after ∧
          (∀ other ∈ before, grammar.Accepts other) ∧
          grammar.checkEntry entry = .error error := by
  induction entries with
  | nil => simp [checkEntries]
  | cons first rest ih =>
      rw [checkEntries, bind_eq_error_iff, ih]
      constructor
      · rintro (hFirst | ⟨_, hFirst, before, entry, after,
          rfl, hBefore, hEntry⟩)
        · exact ⟨[], first, rest, rfl, nofun, hFirst⟩
        · exact ⟨first :: before, entry, after, rfl,
            List.forall_mem_cons.mpr
              ⟨checkEntry_eq_ok_iff.mp hFirst, hBefore⟩,
            hEntry⟩
      · rintro ⟨before, entry, after, hEntries, hBefore,
          hEntry⟩
        cases before with
        | nil =>
            cases hEntries
            exact Or.inl hEntry
        | cons other before =>
            cases hEntries
            rw [List.forall_mem_cons] at hBefore
            exact Or.inr ⟨(),
              checkEntry_eq_ok_iff.mpr hBefore.1,
              before, entry, after, rfl, hBefore.2, hEntry⟩

theorem checkEntries_append
    (first second : List Entry) :
    grammar.checkEntries (first ++ second) =
      (grammar.checkEntries first >>= fun _ =>
        grammar.checkEntries second) := by
  induction first with
  | nil => rfl
  | cons entry rest ih =>
      rw [List.cons_append, checkEntries, checkEntries, ih,
        bind_assoc]

/- Where kinds fail, one of them fails by itself. -/
theorem checkEntries_of_kinds
    {kinds : List Kind}
    {error : BuildError}
    (hError :
      grammar.checkEntries
          (kinds.flatMap grammar.entriesFor) =
        .error error) :
    ∃ kind,
      grammar.checkEntries (grammar.entriesFor kind) =
        .error error := by
  induction kinds with
  | nil => exact nomatch hError
  | cons kind kinds ih =>
      rw [List.flatMap_cons, checkEntries_append,
        bind_eq_error_iff] at hError
      rcases hError with hKind | ⟨_, _, hRest⟩
      · exact ⟨kind, hKind⟩
      · exact ih hRest

/-
  What a grammar can be refused for: an entry that fails,
  while those of its kind before it pass; or, if all entries
  pass, that no rule can be begun.
-/
inductive Blames
    (grammar : Grammar) : BuildError → Prop
| entry
    {entry : Entry}
    {before after : List Entry}
    {error : BuildError} :
    grammar.entriesFor entry.kind =
        before ++ entry :: after →
    (∀ other ∈ before, grammar.Accepts other) →
    grammar.checkEntry entry = .error error →
    Blames grammar error
| root :
    (∀ entry ∈ grammar.entries, grammar.Accepts entry) →
    grammar.hasFreeRoot = false →
    Blames grammar .noTagFreeRoot

/- A refused grammar is refused for one of these reasons. -/
theorem blames_of_validate
    {order : KindOrder}
    {error : BuildError}
    (hError : grammar.validate order = .error error) :
    grammar.Blames error := by
  unfold validate at hError
  rcases bind_eq_error_iff.mp hError with
    hEntries | ⟨_, hEntries, hRoot⟩
  · rcases checkEntries_of_kinds hEntries with
      ⟨kind, hKind⟩
    rcases checkEntries_eq_error_iff.mp hKind with
      ⟨before, entry, after, hSplit, hBefore, hEntry⟩
    have hMem : entry ∈ grammar.entriesFor kind := by
      rw [hSplit]
      simp
    have hSame : entry.kind = kind := by
      simpa using (List.mem_filter.mp hMem).2
    rw [← hSame] at hSplit
    exact .entry hSplit hBefore hEntry
  · split at hRoot
    · exact nomatch hRoot
    · rename_i hBound
      cases hRoot
      refine .root (fun entry hEntry => ?_)
        (Bool.eq_false_iff.mpr hBound)
      exact checkEntries_eq_ok_iff.mp hEntries entry
        (mem_inOrder_iff.mpr hEntry)

/- An entry that fails is not accepted. -/
theorem not_accepts_of_error
    {entry : Entry}
    {error : BuildError}
    (hEntry : grammar.checkEntry entry = .error error) :
    ¬ grammar.Accepts entry := by
  intro hAccepts
  rw [checkEntry_eq_ok_iff.mpr hAccepts] at hEntry
  exact nomatch hEntry

/- An entry among those of its kind is one of the grammar. -/
private theorem mem_of_split
    {entry : Entry}
    {before after : List Entry}
    (hSplit :
      grammar.entriesFor entry.kind =
        before ++ entry :: after) :
    entry ∈ grammar.entries := by
  have hMem : entry ∈ grammar.entriesFor entry.kind := by
    rw [hSplit]
    simp
  exact (List.mem_filter.mp hMem).1

/- Entries of one kind at most fail. -/
def FailsInOneKind
    (grammar : Grammar) : Prop :=
  ∀ entry ∈ grammar.entries, ∀ other ∈ grammar.entries,
    ¬ grammar.Accepts entry →
      ¬ grammar.Accepts other →
        entry.kind = other.kind

/- Then there is only one reason. -/
theorem Blames.unique
    {error other : BuildError}
    (hError : grammar.Blames error)
    (hOther : grammar.Blames other)
    (hOne : grammar.FailsInOneKind) :
    error = other := by
  cases hError with
  | @entry first before after error hSplit hBefore hFirst =>
      cases hOther with
      | @entry second _ _ other hSplit' hBefore' hSecond =>
          have hKind : first.kind = second.kind :=
            hOne first (mem_of_split hSplit) second
              (mem_of_split hSplit')
              (not_accepts_of_error hFirst)
              (not_accepts_of_error hSecond)
          rw [← hKind] at hSplit'
          -- Both are the first to fail in one row of entries.
          have hLeft :=
            checkEntries_eq_error_iff.mpr
              ⟨_, _, _, hSplit, hBefore, hFirst⟩
          have hRight :=
            checkEntries_eq_error_iff.mpr
              ⟨_, _, _, hSplit', hBefore', hSecond⟩
          exact Except.error.inj (hLeft.symm.trans hRight)
      | root hAll _ =>
          exact absurd (hAll first (mem_of_split hSplit))
            (not_accepts_of_error hFirst)
  | root hAll _ =>
      cases hOther with
      | entry hSplit _ hSecond =>
          exact absurd (hAll _ (mem_of_split hSplit))
            (not_accepts_of_error hSecond)
      | root _ _ => rfl

/-
  If entries of one kind at most fail, the order of the kinds
  makes no difference at all.
-/
theorem validate_eq_validate
    (hOne : grammar.FailsInOneKind)
    (order other : KindOrder) :
    grammar.validate order = grammar.validate other := by
  have hSame :
      grammar.validate order = .ok () ↔
        grammar.validate other = .ok () :=
    validate_eq_ok_iff.trans validate_eq_ok_iff.symm
  cases hFirst : grammar.validate order with
  | ok passed => exact (hSame.mp hFirst).symm
  | error error =>
      cases hSecond : grammar.validate other with
      | ok passed =>
          rw [hSame.mpr hSecond] at hFirst
          exact nomatch hFirst
      | error reason =>
          rw [(blames_of_validate hFirst).unique
            (blames_of_validate hSecond) hOne]

end Grammar

end HiddenRule

------------------------------------------------------------
-- Tolerated Stops
------------------------------------------------------------

namespace HiddenRule

/- No slot of a node asks for a rule. -/
theorem Constructor.rule_not_mem_childRoles
    (constructor : Constructor) :
    Role.rule ∉ constructor.childRoles := by
  cases constructor <;> decide

namespace Grammar

variable {grammar : Grammar}

/- No child of an accepted entry is a rule. -/
theorem Accepts.child_ne_rule
    {entry : Entry}
    {kind : Kind}
    (hAccepts : grammar.Accepts entry)
    (hChild : kind ∈ entry.children) :
    kind ≠ .rule := by
  intro hKind
  have hRole := List.mem_map_of_mem (f := Kind.role) hChild
  rw [hAccepts.fitting, hKind] at hRole
  exact entry.constructor.rule_not_mem_childRoles hRole

/- A valid grammar accepts the candidates for a kind. -/
theorem WellFormed.accepts_candidate
    {kind : Kind}
    {used : TagSet}
    {entry : Entry}
    (hWellFormed : grammar.WellFormed)
    (hCandidate : entry ∈ grammar.candidates kind used) :
    grammar.Accepts entry := by
  have hMem := (mem_candidates_iff.mp hCandidate).1
  exact hWellFormed.accepts entry hMem

/-
  The ways in which an expansion over a valid grammar may
  stop: a kind below the root finds no entry that fits the
  budget, or a flavor is drawn that the constructor does not
  have.
-/
inductive Tolerates
    (grammar : Grammar) : Stop → Prop
| noApplicableEntry
    {kind : Kind}
    {used : TagSet} :
    kind ≠ .rule →
    Tolerates grammar (.failed (.noApplicableEntry kind used))
| malformedVariant
    {entry : Entry}
    {variant : Nat} :
    entry ∈ grammar.entries →
    entry.constructor.flavors ≤ variant →
    variant < entry.variantCount.toNat →
    Tolerates grammar
      (.failed (.malformedVariant entry.constructor variant
        entry.constructor.flavors))

/-
  A free root can be taken, so that an empty budget always
  leaves a candidate for a rule.
-/
theorem WellFormed.exists_root
    (hWellFormed : grammar.WellFormed) :
    ∃ entry ∈ grammar.candidates .rule .empty,
      entry.available = true := by
  rcases hWellFormed.rooted with
    ⟨entry, hMem, hKind, hAvailable, hTags⟩
  refine ⟨entry, ?_, hAvailable⟩
  rw [mem_candidates_iff, hTags]
  exact ⟨hMem, hKind, rfl⟩

/-
  An expansion over a valid grammar that is not too deep
  stops in a tolerated way only.
-/
theorem WellFormed.tolerates
    {depth : Nat}
    {kind : Kind}
    {used : TagSet}
    {stream : Stream}
    {stop : Stop}
    (hWellFormed : grammar.WellFormed)
    (hRoot : kind = .rule → used = .empty)
    (hResult :
      (grammar.expand depth kind used stream).result =
        .error stop) :
    stop = .tooDeep ∨ grammar.Tolerates stop := by
  induction depth generalizing kind used stream with
  | zero =>
      left
      exact (Except.error.inj hResult).symm
  | succ depth ih =>
      rcases expand_error_cases hResult with
        ⟨hStop, hNone⟩ | ⟨entry, hCandidate, hCases⟩
      · right
        rw [hStop]
        refine .noApplicableEntry ?_
        intro hKind
        rcases hWellFormed.exists_root with
          ⟨root, hMem, hAvailable⟩
        rw [hKind, hRoot hKind] at hNone
        rw [hNone root hMem] at hAvailable
        exact nomatch hAvailable
      · have hAccepts :=
          hWellFormed.accepts_candidate hCandidate
        rcases hCases with
          ⟨child, hChild, budget, later, hBelow⟩ | ⟨hZero, _⟩ |
          ⟨variant, children, error, hVariant, hRoles,
            hAssemble, hStop⟩
        · have hNotRule := hAccepts.child_ne_rule hChild
          exact ih (fun h => absurd h hNotRule) hBelow
        · exact absurd hZero hAccepts.flavored
        · right
          rw [hAccepts.fitting] at hRoles
          rcases Fragment.assemble_of_roles variant hRoles
            with ⟨fragment, hOk⟩ | ⟨hFlavors, hMalformed⟩
          · rw [hOk] at hAssemble
            exact nomatch hAssemble
          · rw [hMalformed] at hAssemble
            rw [hStop, ← Except.error.inj hAssemble]
            exact .malformedVariant
              (mem_candidates_iff.mp hCandidate).1 hFlavors
              hVariant

/-
  A flavor that the constructor lacks is drawn only if an
  entry has too many.
-/
theorem Tolerates.ne_malformedVariant
    {stop : Stop}
    (hTolerates : grammar.Tolerates stop)
    (hWithin :
      ∀ entry ∈ grammar.entries,
        entry.variantCount.toNat ≤
          entry.constructor.flavors)
    (constructor : Constructor)
    (variant count : Nat) :
    stop ≠
      .failed
        (.malformedVariant constructor variant count) := by
  cases hTolerates with
  | noApplicableEntry _ =>
      intro hEq
      exact nomatch hEq
  | malformedVariant hMem hFlavors hVariant =>
      have hLe := hWithin _ hMem
      omega

end Grammar

end HiddenRule

------------------------------------------------------------
-- Rules Of Valid Grammars
------------------------------------------------------------

namespace HiddenRule

namespace Grammar

variable {grammar : Grammar}

/- What is expanded as a rule is taken as one. -/
theorem asRule_of_expand
    {depth : Nat}
    {used : TagSet}
    {stream : Stream}
    {fragment : Fragment}
    (hResult :
      (grammar.expand depth .rule used stream).result =
        .ok fragment) :
    ∃ rule,
      fragment = .rule rule ∧ asRule fragment = .ok rule := by
  have hRoles := (expand_derives hResult).roles_eq
  rcases Fragment.exists_rule (List.cons.inj hRoles).1 with
    ⟨rule, hRule⟩
  rw [hRule]
  exact ⟨rule, rfl, rfl⟩

/- A random rule stops where its expansion does. -/
theorem newRule_cases
    (grammar : Grammar)
    (depth : Nat)
    (stream : Stream) :
    (∃ rule,
      (grammar.expand depth .rule .empty stream).result =
          .ok (.rule rule) ∧
        (grammar.newRule depth stream).result = .ok rule) ∨
    (∃ stop,
      (grammar.expand depth .rule .empty stream).result =
          .error stop ∧
        (grammar.newRule depth stream).result =
          .error stop) := by
  unfold newRule
  cases hResult :
      (grammar.expand depth .rule .empty stream).result with
  | error stop =>
      right
      refine ⟨stop, rfl, ?_⟩
      simp only [hResult]
      rfl
  | ok fragment =>
      left
      rcases asRule_of_expand hResult with
        ⟨rule, hFragment, hRule⟩
      refine ⟨rule, congrArg Except.ok hFragment, ?_⟩
      simp only [hResult]
      exact hRule

/- A new rule is one that was expanded. -/
theorem expand_of_newRule
    {grammar : Grammar}
    {depth : Nat}
    {stream : Stream}
    {rule : Rule}
    (hRule :
      (grammar.newRule depth stream).result = .ok rule) :
    (grammar.expand depth .rule .empty stream).result =
      .ok (.rule rule) := by
  rcases newRule_cases grammar depth stream with
    ⟨found, hExpand, hNew⟩ | ⟨stop, _, hNew⟩
  · rw [hNew, Except.ok.injEq] at hRule
    rw [hExpand, hRule]
  · rw [hNew] at hRule
    exact nomatch hRule

/-
  A valid grammar gives a rule, unless its expansion has no
  end or stops in a tolerated way.  If no entry has more
  flavors than its constructor, a flavor is never lacking.
-/
theorem newRule_of_validate
    {depth : Nat}
    {stream : Stream}
    {order : KindOrder}
    (hValid : grammar.validate order = .ok ())
    (hEnds :
      (grammar.newRule depth stream).result ≠
        .error .tooDeep) :
    ((∃ rule,
      (grammar.newRule depth stream).result = .ok rule) ∨
    (∃ stop,
      grammar.Tolerates stop ∧
        (grammar.newRule depth stream).result =
          .error stop)) ∧
    ((∀ entry ∈ grammar.entries,
      entry.variantCount.toNat ≤
        entry.constructor.flavors) →
      ∀ constructor variant count,
        (grammar.newRule depth stream).result ≠
          .error (.failed
            (.malformedVariant constructor variant count))) := by
  have hWellFormed := validate_eq_ok_iff.mp hValid
  rcases newRule_cases grammar depth stream with
    ⟨rule, _, hNew⟩ | ⟨stop, hExpand, hNew⟩
  · rw [hNew]
    refine ⟨Or.inl ⟨rule, rfl⟩, ?_⟩
    intro _ constructor variant count hEq
    exact nomatch hEq
  · rw [hNew] at hEnds ⊢
    rcases hWellFormed.tolerates (fun _ => rfl) hExpand with
      hDeep | hTolerates
    · rw [hDeep] at hEnds
      exact absurd rfl hEnds
    · refine ⟨Or.inr ⟨stop, hTolerates, rfl⟩, ?_⟩
      intro hWithin constructor variant count hEq
      exact hTolerates.ne_malformedVariant hWithin _ _ _
        (Except.error.inj hEq)

set_option maxRecDepth 4000 in
/- The stock grammar gives "Every blue symbol ...". -/
theorem newRule_standard :
    let expansion := standard.newRule 3 (Stream.ofSeed 3)
    standard.validate = .ok () ∧
      expansion.result ≠ .error .tooDeep ∧
      ((∃ rule, expansion.result = .ok rule) ∨
        (∃ stop,
          standard.Tolerates stop ∧
            expansion.result = .error stop)) ∧
      ((∀ entry ∈ standard.entries,
        entry.variantCount.toNat ≤
          entry.constructor.flavors) →
        ∀ constructor variant count,
          expansion.result ≠
            .error (.failed
              (.malformedVariant constructor variant
                count))) := by
  have hEnds :
      (standard.newRule 3 (Stream.ofSeed 3)).result ≠
        .error .tooDeep := by
    decide +kernel
  exact ⟨validate_standard, hEnds,
    newRule_of_validate validate_standard hEnds⟩

end Grammar

end HiddenRule
