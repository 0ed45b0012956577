/-
  This file proves how outcomes, answers or errors, are taken
  apart: an answer of several steps comes from an answer of
  each of them.

  Main declarations:
    * `bind_eq_ok_iff` and `bind_eq_error_iff`
    * `mapError_eq_ok_iff` and `mapError_eq_error_iff`
    * `map_eq_ok_iff` and `map_eq_error_iff`
    * `Yields` and `Yields.bind`
    * `mapM_eq_map` and `filterM_eq_filter`
    * `Decides`, `decides_allM` and `decides_anyM`
-/

namespace HiddenRule

variable {ε η α β : Type}

/- Outcomes can be compared. -/
instance decidableEqOutcome
    [DecidableEq ε]
    [DecidableEq α] :
    DecidableEq (Except ε α)
| .ok left, .ok right =>
    decidable_of_iff (left = right) (by simp)
| .error left, .error right =>
    decidable_of_iff (left = right) (by simp)
| .ok _, .error _ => isFalse (by simp)
| .error _, .ok _ => isFalse (by simp)

------------------------------------------------------------
-- Steps In Sequence
------------------------------------------------------------

/- After an answer the second step is taken. -/
@[simp] theorem ok_bind
    (middle : α)
    (second : α → Except ε β) :
    (.ok middle : Except ε α) >>= second = second middle :=
  rfl

/- Two steps answer if both do. -/
theorem bind_eq_ok_iff
    {first : Except ε α}
    {second : α → Except ε β}
    {answer : β} :
    first >>= second = .ok answer ↔
      ∃ middle,
        first = .ok middle ∧ second middle = .ok answer := by
  cases first with
  | ok middle =>
      constructor
      · intro hSecond
        exact ⟨middle, rfl, hSecond⟩
      · intro ⟨other, hFirst, hSecond⟩
        cases hFirst
        exact hSecond
  | error error =>
      constructor
      · intro hSecond
        exact nomatch hSecond
      · intro ⟨other, hFirst, _⟩
        exact nomatch hFirst

/- Two steps fail if one of them does. -/
theorem bind_eq_error_iff
    {first : Except ε α}
    {second : α → Except ε β}
    {error : ε} :
    first >>= second = .error error ↔
      first = .error error ∨
        ∃ middle,
          first = .ok middle ∧
            second middle = .error error := by
  cases first with
  | ok middle =>
      constructor
      · intro hSecond
        exact Or.inr ⟨middle, rfl, hSecond⟩
      · rintro (hFirst | ⟨other, hFirst, hSecond⟩)
        · exact nomatch hFirst
        · cases hFirst
          exact hSecond
  | error found =>
      constructor
      · intro hFirst
        cases hFirst
        exact Or.inl rfl
      · rintro (hFirst | ⟨other, hFirst, _⟩)
        · cases hFirst
          rfl
        · exact nomatch hFirst

------------------------------------------------------------
-- Errors Renamed
------------------------------------------------------------

/- Renaming errors leaves answers alone. -/
theorem mapError_eq_ok_iff
    {rename : ε → η}
    {outcome : Except ε α}
    {answer : α} :
    outcome.mapError rename = .ok answer ↔
      outcome = .ok answer := by
  cases outcome with
  | ok found =>
      constructor
      · intro hFound
        cases hFound
        rfl
      · intro hFound
        cases hFound
        rfl
  | error found =>
      constructor
      · intro hFound
        exact nomatch hFound
      · intro hFound
        exact nomatch hFound

/- A renamed error comes from an error. -/
theorem mapError_eq_error_iff
    {rename : ε → η}
    {outcome : Except ε α}
    {error : η} :
    outcome.mapError rename = .error error ↔
      ∃ found,
        outcome = .error found ∧ rename found = error := by
  cases outcome with
  | ok found =>
      constructor
      · intro hFound
        exact nomatch hFound
      · intro ⟨_, hFound, _⟩
        exact nomatch hFound
  | error found =>
      constructor
      · intro hRename
        exact ⟨found, rfl, Except.error.inj hRename⟩
      · intro ⟨other, hFound, hRename⟩
        cases hFound
        rw [← hRename]
        rfl

------------------------------------------------------------
-- Answers Changed
------------------------------------------------------------

/- A changed answer comes from an answer. -/
theorem map_eq_ok_iff
    {change : α → β}
    {outcome : Except ε α}
    {answer : β} :
    outcome.map change = .ok answer ↔
      ∃ found, outcome = .ok found ∧ change found = answer := by
  cases outcome with
  | ok found =>
      constructor
      · intro hChange
        exact ⟨found, rfl, Except.ok.inj hChange⟩
      · intro ⟨other, hFound, hChange⟩
        cases hFound
        rw [← hChange]
        rfl
  | error found =>
      constructor
      · intro hChange
        exact nomatch hChange
      · intro ⟨other, hFound, _⟩
        exact nomatch hFound

/- Changing answers leaves errors alone. -/
theorem map_eq_error_iff
    {change : α → β}
    {outcome : Except ε α}
    {error : ε} :
    outcome.map change = .error error ↔
      outcome = .error error := by
  cases outcome with
  | ok found =>
      constructor
      · intro hFound
        exact nomatch hFound
      · intro hFound
        exact nomatch hFound
  | error found =>
      constructor
      · intro hFound
        cases hFound
        rfl
      · intro hFound
        cases hFound
        rfl

------------------------------------------------------------
-- Steps That Answer
------------------------------------------------------------

/- An outcome is an answer, and the answer has a property. -/
def Yields
    (outcome : Except ε α)
    (property : α → Prop) : Prop :=
  ∃ answer, outcome = .ok answer ∧ property answer

theorem yields_ok
    {answer : α}
    {property : α → Prop}
    (hAnswer : property answer) :
    Yields (.ok answer : Except ε α) property :=
  ⟨answer, rfl, hAnswer⟩

/- Two steps answer if the second does after the first. -/
theorem Yields.bind
    {first : Except ε α}
    {second : α → Except ε β}
    {between : α → Prop}
    {property : β → Prop}
    (hFirst : Yields first between)
    (hSecond :
      ∀ middle, between middle →
        Yields (second middle) property) :
    Yields (first >>= second) property := by
  rcases hFirst with ⟨middle, hMiddle, hBetween⟩
  rw [hMiddle]
  exact hSecond middle hBetween

theorem Yields.mono
    {outcome : Except ε α}
    {stronger weaker : α → Prop}
    (hYields : Yields outcome stronger)
    (hMono : ∀ answer, stronger answer → weaker answer) :
    Yields outcome weaker := by
  rcases hYields with ⟨answer, hAnswer, hStronger⟩
  exact ⟨answer, hAnswer, hMono answer hStronger⟩

/- Items that are changed with answers are those answers. -/
theorem mapM_eq_map
    {change : α → Except ε β}
    {image : α → β}
    {items : List α}
    (hChange :
      ∀ item ∈ items, change item = .ok (image item)) :
    items.mapM change = .ok (items.map image) := by
  induction items with
  | nil => rfl
  | cons item rest ih =>
      rw [List.forall_mem_cons] at hChange
      rw [List.mapM_cons, hChange.1, ih hChange.2]
      rfl

private theorem filterAuxM_eq
    {keep : α → Except ε Bool}
    {kept : α → Bool}
    {items found : List α}
    (hKeep :
      ∀ item ∈ items, keep item = .ok (kept item)) :
    items.filterAuxM keep found =
      .ok ((items.filter kept).reverse ++ found) := by
  induction items generalizing found with
  | nil => rfl
  | cons item rest ih =>
      rw [List.forall_mem_cons] at hKeep
      rw [List.filterAuxM, hKeep.1, ok_bind, ih hKeep.2]
      cases hItem : kept item <;> simp [hItem]

/- Items that are kept by answers are filtered by them. -/
theorem filterM_eq_filter
    {keep : α → Except ε Bool}
    {kept : α → Bool}
    {items : List α}
    (hKeep :
      ∀ item ∈ items, keep item = .ok (kept item)) :
    items.filterM keep = .ok (items.filter kept) := by
  rw [List.filterM, filterAuxM_eq hKeep, ok_bind,
    List.append_nil, List.reverse_reverse]
  rfl

------------------------------------------------------------
-- Questions Decided
------------------------------------------------------------

/- An outcome says whether a statement is true. -/
def Decides
    (outcome : Except ε Bool)
    (statement : Prop) : Prop :=
  Yields outcome fun answer => answer = true ↔ statement

theorem decides_ok
    {answer : Bool}
    {statement : Prop}
    (hAnswer : answer = true ↔ statement) :
    Decides (.ok answer : Except ε Bool) statement :=
  yields_ok hAnswer

theorem Decides.congr
    {outcome : Except ε Bool}
    {left right : Prop}
    (hDecides : Decides outcome left)
    (hIff : left ↔ right) :
    Decides outcome right :=
  hDecides.mono fun _ hAnswer => hAnswer.trans hIff

/- Outcomes that decide the same statement are equal. -/
theorem Decides.unique
    {first second : Except ε Bool}
    {left right : Prop}
    (hFirst : Decides first left)
    (hSecond : Decides second right)
    (hIff : left ↔ right) :
    first = second := by
  rcases hFirst with ⟨answer, hAnswer, hLeft⟩
  rcases hSecond with ⟨other, hOther, hRight⟩
  rw [hAnswer, hOther]
  congr 1
  exact Bool.eq_iff_iff.mpr
    (hLeft.trans (hIff.trans hRight.symm))

/- A second test is made if the first is passed. -/
theorem Decides.and
    {first second : Except ε Bool}
    {left right : Prop}
    (hFirst : Decides first left)
    (hSecond : Decides second right) :
    Decides
      (first >>= fun passed =>
        if passed then second else pure false)
      (left ∧ right) := by
  rcases hFirst with ⟨answer, hAnswer, hLeft⟩
  rw [hAnswer, ok_bind]
  cases answer with
  | true =>
      apply hSecond.congr
      simp [← hLeft]
  | false =>
      apply decides_ok
      simp [← hLeft]

/- A second test is made only if the first is passed. -/
theorem Decides.imp
    {first second : Except ε Bool}
    {left right : Prop}
    (hFirst : Decides first left)
    (hSecond : Decides second right) :
    Decides
      (first >>= fun passed =>
        if passed then second else pure true)
      (left → right) := by
  rcases hFirst with ⟨answer, hAnswer, hLeft⟩
  rw [hAnswer, ok_bind]
  cases answer with
  | true =>
      apply hSecond.congr
      simp [← hLeft]
  | false =>
      apply decides_ok
      simp [← hLeft]

/- A second test is made if the first is failed. -/
theorem Decides.or
    {first second : Except ε Bool}
    {left right : Prop}
    (hFirst : Decides first left)
    (hSecond : Decides second right) :
    Decides
      (first >>= fun passed =>
        if passed then pure true else second)
      (left ∨ right) := by
  rcases hFirst with ⟨answer, hAnswer, hLeft⟩
  rw [hAnswer, ok_bind]
  cases answer with
  | true =>
      apply decides_ok
      simp [← hLeft]
  | false =>
      apply hSecond.congr
      simp [← hLeft]

theorem Decides.not
    {outcome : Except ε Bool}
    {statement : Prop}
    (hDecides : Decides outcome statement) :
    Decides (outcome >>= fun answer => pure !answer)
      (¬ statement) := by
  rcases hDecides with ⟨answer, hAnswer, hIff⟩
  rw [hAnswer, ok_bind]
  apply decides_ok
  rw [← hIff]
  simp

/- A test of all items decides whether all of them pass. -/
theorem decides_allM
    {test : α → Except ε Bool}
    {items : List α}
    {passes : α → Prop}
    (hTest :
      ∀ item ∈ items, Decides (test item) (passes item)) :
    Decides (items.allM test)
      (∀ item ∈ items, passes item) := by
  induction items with
  | nil => exact decides_ok (by simp)
  | cons item rest ih =>
      rw [List.forall_mem_cons] at hTest
      rw [List.allM_cons]
      apply (hTest.1.and (ih hTest.2)).congr
      rw [List.forall_mem_cons]

/- A search among items decides whether one of them passes. -/
theorem decides_anyM
    {test : α → Except ε Bool}
    {items : List α}
    {passes : α → Prop}
    (hTest :
      ∀ item ∈ items, Decides (test item) (passes item)) :
    Decides (items.anyM test)
      (∃ item ∈ items, passes item) := by
  induction items with
  | nil => exact decides_ok (by simp)
  | cons item rest ih =>
      rw [List.forall_mem_cons] at hTest
      rw [List.anyM_cons]
      apply (hTest.1.or (ih hTest.2)).congr
      simp

end HiddenRule
