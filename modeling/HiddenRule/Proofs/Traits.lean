import HiddenRule.Proofs.Contents

/-
  This file proves that the tests of a group for a trait
  compare its cells pair by pair, whatever list of cells of
  the board they are given.

  Being the same asks for one color or shape in all cells,
  where an empty cell has none, unlike a symbol.  Being
  different passes over empty cells and counts a cell that
  is listed twice as two.  So neither depends on the order of
  the list, and a list that passes has no part that fails.

  Main declarations:
    * `GroupPredicate.Unrepeated` and `GroupPredicate.Says`
    * `GroupPredicate.holdsOn_decides_pairs`
    * `GroupPredicate.says_perm` and
      `GroupPredicate.Says.sublist`
    * `GroupPredicate.traits_compare_pairs`
-/

------------------------------------------------------------
-- Tests Of Lists
------------------------------------------------------------

namespace HiddenRule

namespace Trait

/- The test that a trait is the same. -/
def same : Trait → GroupPredicate
| .color => .sameColor
| .shape => .sameShape

/- The test that a trait is always another. -/
def distinct : Trait → GroupPredicate
| .color => .distinctColors
| .shape => .distinctShapes

end Trait

namespace GroupPredicate

/- Any two members agree in a trait. -/
def Uniform
    (board : Board)
    (trait : Trait)
    (members : Cell → Prop) : Prop :=
  ∀ here there, members here → members there →
    trait.Agree (board.content here) (board.content there)

/-
  No two places of a list hold symbols that agree in a trait.
  Empty cells agree with nothing.
-/
def Unrepeated
    (board : Board)
    (trait : Trait)
    (cells : List Cell) : Prop :=
  cells.Pairwise fun here there =>
    board.Filled here → board.Filled there →
      ¬ trait.Agree (board.content here)
        (board.content there)

/- It does not matter which of two places comes first. -/
theorem symm_unlike
    (board : Board)
    (trait : Trait) :
    Std.Symm fun here there =>
      board.Filled here → board.Filled there →
        ¬ trait.Agree (board.content here)
          (board.content there) :=
  ⟨fun _ _ hUnlike hThere hHere hAgree =>
    hUnlike hHere hThere hAgree.symm⟩

/- What a test says of a list of cells. -/
def Says
    (board : Board)
    (cells : List Cell) : GroupPredicate → Prop
| .sameColor => Uniform board .color (· ∈ cells)
| .sameShape => Uniform board .shape (· ∈ cells)
| .distinctColors => Unrepeated board .color cells
| .distinctShapes => Unrepeated board .shape cells
| .sameColorOrShape =>
    ∃ trait : Trait, Uniform board trait (· ∈ cells)
| .contiguous => Cell.Contiguous (· ∈ cells)

theorem says_same_iff
    {board : Board}
    {cells : List Cell}
    (trait : Trait) :
    trait.same.Says board cells ↔
      Uniform board trait (· ∈ cells) := by
  cases trait <;> rfl

theorem says_distinct_iff
    {board : Board}
    {cells : List Cell}
    (trait : Trait) :
    trait.distinct.Says board cells ↔
      Unrepeated board trait cells := by
  cases trait <;> rfl

/- A test that a trait is another scans for seen values. -/
theorem holdsOn_distinct
    (board : Board)
    (cells : List Cell)
    (trait : Trait) :
    trait.distinct.holdsOn board cells =
      distinctFrom board trait.variant? [] cells := by
  cases trait <;> rfl

end GroupPredicate

end HiddenRule

------------------------------------------------------------
-- Tests Decided
------------------------------------------------------------

namespace HiddenRule

namespace GroupPredicate

/- Comparing with the first cell compares any two. -/
theorem uniform_decides
    {α : Type}
    [DecidableEq α]
    (board : Board)
    (trait : Symbol → α)
    {cells : List Cell}
    (hCells : Cell.OnBoard cells) :
    Decides (uniform board trait cells)
      (∀ here there, here ∈ cells → there ∈ cells →
        trait (board.content here) =
          trait (board.content there)) := by
  cases cells with
  | nil =>
      apply decides_ok
      simp
  | cons first rest =>
      rw [Cell.OnBoard, List.forall_mem_cons] at hCells
      rw [uniform, board.get_eq_content hCells.1, ok_bind]
      have hRest :
          Decides
            (rest.allM fun cell => do
              let other ← board.get cell
              return trait other ==
                trait (board.content first))
            (∀ cell ∈ rest,
              trait (board.content cell) =
                trait (board.content first)) := by
        apply decides_allM
        intro cell hCell
        rw [board.get_eq_content (hCells.2 cell hCell),
          ok_bind]
        exact decides_ok beq_iff_eq
      apply hRest.congr
      constructor
      · intro hAgree here there hHere hThere
        have hFirst :
            ∀ cell ∈ first :: rest,
              trait (board.content cell) =
                trait (board.content first) :=
          List.forall_mem_cons.mpr ⟨rfl, hAgree⟩
        rw [hFirst here hHere, hFirst there hThere]
      · intro hAll cell hCell
        exact hAll cell first (List.mem_cons_of_mem _ hCell)
          List.mem_cons_self

/- Values that are not both there and the same. -/
def Apart
    {α : Type}
    (left right : Option α) : Prop :=
  ∀ value, left = some value → right ≠ some value

/- A scan for seen values compares any two cells. -/
theorem distinctFrom_decides
    {α : Type}
    [DecidableEq α]
    (board : Board)
    (trait : Symbol → Option α)
    (seen : List α)
    {cells : List Cell}
    (hCells : Cell.OnBoard cells) :
    Decides (distinctFrom board trait seen cells)
      ((∀ cell ∈ cells, ∀ value ∈ seen,
          trait (board.content cell) ≠ some value) ∧
        cells.Pairwise fun here there =>
          Apart (trait (board.content here))
            (trait (board.content there))) := by
  -- The seen values grow along the list.
  induction cells generalizing seen with
  | nil =>
      apply decides_ok
      simp
  | cons cell rest ih =>
      rw [Cell.OnBoard, List.forall_mem_cons] at hCells
      rw [distinctFrom, board.get_eq_content hCells.1,
        ok_bind, List.pairwise_cons, List.forall_mem_cons]
      cases hValue : trait (board.content cell) with
      | none =>
          apply (ih seen hCells.2).congr
          simp [Apart]
      | some value =>
          by_cases hSeen : value ∈ seen
          · simp only [hSeen, if_true]
            apply decides_ok
            simp only [Bool.false_eq_true, false_iff]
            intro hBoth
            exact hBoth.1.1 value hSeen rfl
          · simp only [hSeen, if_false]
            apply (ih (value :: seen) hCells.2).congr
            constructor
            · intro ⟨hNew, hPairs⟩
              refine ⟨⟨?_, ?_⟩, ?_, hPairs⟩
              · intro other hOther hSame
                exact hSeen (Option.some.inj hSame ▸ hOther)
              · intro other hOther seenValue hMem
                exact hNew other hOther seenValue
                  (List.mem_cons_of_mem _ hMem)
              · intro other hOther same hSame
                rw [← hSame]
                exact hNew other hOther value
                  List.mem_cons_self
            · intro ⟨⟨_, hOld⟩, hApart, hPairs⟩
              refine ⟨?_, hPairs⟩
              intro other hOther seenValue hMem
              rcases List.mem_cons.mp hMem with hSame | hMem
              · rw [hSame]
                exact hApart other hOther value rfl
              · exact hOld other hOther seenValue hMem

theorem apart_iff
    {α : Type}
    {left right : Option α} :
    Apart left right ↔
      (left.isSome → right.isSome → left ≠ right) := by
  cases left <;> cases right <;> simp [Apart, eq_comm]

/- Symbols are apart in a trait if they do not agree in it. -/
theorem apart_variant?_iff
    {board : Board}
    {trait : Trait}
    {here there : Cell} :
    Apart (trait.variant? (board.content here))
        (trait.variant? (board.content there)) ↔
      (board.Filled here → board.Filled there →
        ¬ trait.Agree (board.content here)
          (board.content there)) := by
  simp only [apart_iff, Trait.isSome_variant?,
    Trait.agree_iff, Board.Filled, Bool.not_eq_true']

/- Scanning a list compares its symbols pair by pair. -/
theorem distinct_decides
    (board : Board)
    (trait : Trait)
    {cells : List Cell}
    (hCells : Cell.OnBoard cells) :
    Decides (trait.distinct.holdsOn board cells)
      (Unrepeated board trait cells) := by
  rw [holdsOn_distinct]
  apply (distinctFrom_decides board _ [] hCells).congr
  simp [apart_variant?_iff, Unrepeated]

/- Testing a list decides what the test says of it. -/
theorem holdsOn_decides_pairs
    (board : Board)
    (predicate : GroupPredicate)
    {cells : List Cell}
    (hCells : Cell.OnBoard cells) :
    Decides (predicate.holdsOn board cells)
      (predicate.Says board cells) := by
  cases predicate with
  | sameColor | sameShape =>
      exact uniform_decides board _ hCells
  | distinctColors =>
      exact distinct_decides board .color hCells
  | distinctShapes =>
      exact distinct_decides board .shape hCells
  | sameColorOrShape =>
      apply ((uniform_decides board _ hCells).or
        (uniform_decides board _ hCells)).congr
      rw [Says, Trait.exists_iff]
      exact Iff.rfl
  | contiguous => exact connected_decides hCells

theorem holdsOn_eq_true_iff
    {board : Board}
    {predicate : GroupPredicate}
    {cells : List Cell}
    (hCells : Cell.OnBoard cells) :
    predicate.holdsOn board cells = .ok true ↔
      predicate.Says board cells := by
  rcases predicate.holdsOn_decides_pairs board hCells with
    ⟨answer, hAnswer, hIff⟩
  rw [hAnswer, ← hIff, Except.ok.injEq]

end GroupPredicate

end HiddenRule

------------------------------------------------------------
-- Lists In Another Order And Parts Of Lists
------------------------------------------------------------

namespace HiddenRule

namespace GroupPredicate

variable {board : Board}
variable {trait : Trait}
variable {predicate : GroupPredicate}
variable {cells : List Cell}

theorem Uniform.mono
    {members fewer : Cell → Prop}
    (hUniform : Uniform board trait members)
    (hFewer : ∀ cell, fewer cell → members cell) :
    Uniform board trait fewer :=
  fun here there hHere hThere =>
    hUniform here there (hFewer here hHere)
      (hFewer there hThere)

/- The order of a list does not matter for any test. -/
theorem says_perm
    {others : List Cell}
    (hPerm : others.Perm cells) :
    predicate.Says board others ↔
      predicate.Says board cells := by
  have hMembers : (· ∈ others) = (· ∈ cells) :=
    funext fun cell => propext hPerm.mem_iff
  have hUnrepeated :
      ∀ trait,
        Unrepeated board trait others ↔
          Unrepeated board trait cells := by
    intro trait
    apply hPerm.pairwise_iff
    exact (symm_unlike board trait).symm _ _
  cases predicate with
  | distinctColors | distinctShapes => exact hUnrepeated _
  | _ => simp only [Says, hMembers]

/- A part of a list passes the tests for traits with it. -/
theorem Says.sublist
    {shorter : List Cell}
    (hSays : predicate.Says board cells)
    (hPredicate : predicate ≠ .contiguous)
    (hSublist : shorter.Sublist cells) :
    predicate.Says board shorter := by
  have hFewer : ∀ cell, cell ∈ shorter → cell ∈ cells :=
    fun _ hCell => hSublist.subset hCell
  cases predicate with
  | sameColor | sameShape => exact Uniform.mono hSays hFewer
  | distinctColors | distinctShapes =>
      exact List.Pairwise.sublist hSublist hSays
  | sameColorOrShape =>
      rcases hSays with ⟨trait, hUniform⟩
      exact ⟨trait, hUniform.mono hFewer⟩
  | contiguous => exact absurd rfl hPredicate

/- Of different values there are no more than all values. -/
private theorem countP_le_of_apart
    {α : Type}
    {value : Cell → Option α}
    {values : List α}
    (hAll : ∀ item, item ∈ values)
    (hApart :
      cells.Pairwise fun here there =>
        Apart (value here) (value there)) :
    (cells.countP fun cell => (value cell).isSome) ≤
      values.length := by
  have hNodup : (cells.filterMap value).Nodup := by
    rw [List.Nodup, List.pairwise_filterMap]
    apply hApart.imp
    intro here there hOther left hLeft right hRight hSame
    exact hOther left hLeft (hSame ▸ hRight)
  have hSubset : cells.filterMap value ⊆ values :=
    fun item _ => hAll item
  rw [← List.length_filterMap_eq_countP]
  exact (List.subperm_of_subset hNodup hSubset).length_le

/- Symbols that all differ in a trait are three at most. -/
theorem Unrepeated.countP_le
    (hUnrepeated : Unrepeated board trait cells) :
    (cells.countP fun cell =>
      !(board.content cell).isEmpty) ≤ 3 := by
  have hLe :=
    countP_le_of_apart Trait.mem_variants
      (hUnrepeated.imp apart_variant?_iff.mpr)
  simp only [Trait.isSome_variant?, Trait.length_variants]
    at hLe
  exact hLe

end GroupPredicate

end HiddenRule

------------------------------------------------------------
-- Tests For Traits
------------------------------------------------------------

namespace HiddenRule

namespace GroupPredicate

/-
  On every list of cells of the board, in any order and with
  repetitions, a test for a trait has an answer.  It is
  whether all cells agree in it; whether no two places hold
  symbols that agree; or whether one of the tests for the
  same color and the same shape is passed.  More than three
  symbols are never different.  The empty list passes, the
  order does not matter, and if a list passes, so does what
  is left of it.
-/
theorem traits_compare_pairs
    (board : Board)
    {cells : List Cell}
    (hCells : Cell.OnBoard cells) :
    (∀ trait : Trait,
      Decides (trait.same.holdsOn board cells)
        (∀ here ∈ cells, ∀ there ∈ cells,
          trait.Agree (board.content here)
            (board.content there)) ∧
      Decides (trait.distinct.holdsOn board cells)
        (cells.Pairwise fun here there =>
          board.Filled here → board.Filled there →
            ¬ trait.Agree (board.content here)
              (board.content there)) ∧
      (3 < cells.countP (fun cell =>
          !(board.content cell).isEmpty) →
        trait.distinct.holdsOn board cells = .ok false)) ∧
    Decides (holdsOn board cells .sameColorOrShape)
      (holdsOn board cells .sameColor = .ok true ∨
        holdsOn board cells .sameShape = .ok true) ∧
    ∀ predicate : GroupPredicate, predicate ≠ .contiguous →
      predicate.holdsOn board [] = .ok true ∧
      (∀ others, others.Perm cells →
        predicate.holdsOn board others =
          predicate.holdsOn board cells) ∧
      ∀ shorter, shorter.Sublist cells →
        predicate.holdsOn board cells = .ok true →
          predicate.holdsOn board shorter = .ok true := by
  refine ⟨fun trait => ⟨?_, ?_, ?_⟩, ?_, ?_⟩
  · apply (trait.same.holdsOn_decides_pairs board hCells).congr
    rw [says_same_iff]
    exact ⟨fun hAll here hHere there hThere =>
        hAll here there hHere hThere,
      fun hAll here there hHere hThere =>
        hAll here hHere there hThere⟩
  · apply (trait.distinct.holdsOn_decides_pairs board
      hCells).congr
    exact says_distinct_iff trait
  · intro hMany
    rcases trait.distinct.holdsOn_decides_pairs board hCells
      with ⟨answer, hAnswer, hIff⟩
    rw [hAnswer]
    congr 1
    rw [← Bool.not_eq_true, hIff, says_distinct_iff]
    intro hUnrepeated
    exact absurd hUnrepeated.countP_le (Nat.not_le.mpr hMany)
  · apply (holdsOn_decides_pairs board .sameColorOrShape
      hCells).congr
    rw [holdsOn_eq_true_iff hCells,
      holdsOn_eq_true_iff hCells]
    exact Trait.exists_iff
  · intro predicate hPredicate
    refine ⟨?_, ?_, ?_⟩
    · cases predicate <;> rfl
    · intro others hPerm
      have hOthers : Cell.OnBoard others :=
        fun cell hCell => hCells cell (hPerm.subset hCell)
      exact (predicate.holdsOn_decides_pairs board
        hOthers).unique
          (predicate.holdsOn_decides_pairs board hCells)
          (says_perm hPerm)
    · intro shorter hSublist hTrue
      have hShorter : Cell.OnBoard shorter :=
        fun cell hCell => hCells cell (hSublist.subset hCell)
      rw [holdsOn_eq_true_iff hCells] at hTrue
      rw [holdsOn_eq_true_iff hShorter]
      exact hTrue.sublist hPredicate hSublist

/-
  A red and a yellow circle with two empty cells between them
  are different in color, also in another order and without
  the yellow one.  They are of one shape only without the
  empty cells, and a circle listed twice is not different
  from itself.
-/
theorem traits_of_two_circles :
    let board : Board :=
      .ofList [.filled .red .circle, .empty, .empty,
        .filled .yellow .circle]
    let cells : List Cell := [0, 1, 2, 3]
    Cell.OnBoard cells ∧
      GroupPredicate.distinctColors ≠ .contiguous ∧
      holdsOn board cells .distinctColors = .ok true ∧
      holdsOn board [3, 1, 0, 2] .distinctColors =
        .ok true ∧
      holdsOn board [0, 1, 2] .distinctColors = .ok true ∧
      holdsOn board [0, 0, 3, 3] .distinctColors =
        .ok false ∧
      ¬ ∀ here ∈ cells, ∀ there ∈ cells,
        Trait.shape.Agree (board.content here)
          (board.content there) := by
  intro board cells
  have hCells : Cell.OnBoard cells := by decide
  have hTest :
      GroupPredicate.distinctColors ≠ .contiguous := by
    decide
  have hTrue :
      holdsOn board cells .distinctColors = .ok true := by
    decide
  have hShape :
      holdsOn board cells .sameShape = .ok false := by
    decide
  have hTwice : Cell.OnBoard [0, 0, 3, 3] := by decide
  have hSymbols :
      3 < [0, 0, 3, 3].countP fun cell =>
        !(board.content cell).isEmpty := by
    decide
  rcases traits_compare_pairs board hCells with
    ⟨hTraits, _, hTests⟩
  rcases hTests .distinctColors hTest with
    ⟨_, hPerm, hSublist⟩
  rcases traits_compare_pairs board hTwice with
    ⟨hRepeated, _, _⟩
  rcases (hTraits .shape).1 with ⟨answer, hAnswer, hIff⟩
  refine ⟨hCells, hTest, hTrue, ?_, ?_,
    (hRepeated .color).2.2 hSymbols, ?_⟩
  · rw [hPerm [3, 1, 0, 2] (by decide), hTrue]
  · exact hSublist [0, 1, 2] (by decide) hTrue
  · rw [← hIff, ← Except.ok.inj (hShape.symm.trans hAnswer)]
    exact Bool.false_ne_true

end GroupPredicate

end HiddenRule
