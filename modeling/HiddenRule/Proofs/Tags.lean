import HiddenRule.Grammar.Tags

/-
  This file proves how sets of tags are joined and kept
  apart.

  Main declarations:
    * `TagSet.Disjoint` and `TagSet.disjoint_union_right`
    * `TagSet.union_assoc`
    * `TagSet.freshBudget` and `TagSet.isolated_eq`
    * `TagSet.disjoint_freshBudget_iff`
-/

------------------------------------------------------------
-- Joined Sets
------------------------------------------------------------

namespace HiddenRule

namespace TagSet

/- Joining sets does not depend on the grouping. -/
theorem union_assoc
    (first second third : TagSet) :
    (first.union second).union third =
      first.union (second.union third) := by
  simp only [union, UInt8.or_assoc]

/- Joining the empty set changes nothing. -/
@[simp] theorem union_empty
    (set : TagSet) :
    set.union empty = set := by
  simp [union, empty]

/- Joining to the empty set changes nothing. -/
@[simp] theorem empty_union
    (set : TagSet) :
    empty.union set = set := by
  simp [union, empty]

------------------------------------------------------------
-- Sets Apart
------------------------------------------------------------

/- Two sets are apart if no bit belongs to both. -/
def Disjoint
    (left right : TagSet) : Prop :=
  left.bits &&& right.bits = 0

instance
    (left right : TagSet) :
    Decidable (left.Disjoint right) :=
  inferInstanceAs (Decidable (_ = _))

/- Sets are apart exactly if they do not intersect. -/
theorem intersects_eq_false_iff
    {left right : TagSet} :
    left.intersects right = false ↔
      left.Disjoint right := by
  simp [intersects, Disjoint]

/- Being apart does not depend on the order. -/
theorem Disjoint.symm
    {left right : TagSet}
    (hApart : left.Disjoint right) :
    right.Disjoint left := by
  unfold Disjoint
  rw [UInt8.and_comm]
  exact hApart

/- Bits common with a union are common with a part of it. -/
private theorem and_or
    (a b c : UInt8) :
    a &&& (b ||| c) = a &&& b ||| a &&& c := by
  apply UInt8.toBitVec_inj.mp
  apply BitVec.eq_of_getLsbD_eq
  intro i _
  simp [Bool.and_or_distrib_left]

/- A set is apart from a union if it is from both parts. -/
theorem disjoint_union_right
    {set left right : TagSet} :
    set.Disjoint (left.union right) ↔
      set.Disjoint left ∧ set.Disjoint right := by
  unfold Disjoint union
  dsimp only
  rw [and_or, UInt8.or_eq_zero_iff]

/- A union is apart from a set if both parts are. -/
theorem disjoint_union_left
    {set left right : TagSet} :
    (left.union right).Disjoint set ↔
      left.Disjoint set ∧ right.Disjoint set := by
  constructor
  · intro hApart
    rcases disjoint_union_right.mp hApart.symm with
      ⟨hLeft, hRight⟩
    exact ⟨hLeft.symm, hRight.symm⟩
  · intro ⟨hLeft, hRight⟩
    exact (disjoint_union_right.mpr
      ⟨hLeft.symm, hRight.symm⟩).symm

/- Every set is apart from the empty one. -/
theorem disjoint_empty
    (set : TagSet) :
    set.Disjoint empty := by
  simp [Disjoint, empty]

/- Only the empty set is apart from itself. -/
theorem disjoint_self_iff
    {set : TagSet} :
    set.Disjoint set ↔ set = empty := by
  rcases set with ⟨bits⟩
  simp [Disjoint, empty]

/- A set without a tag is apart from the set of that tag. -/
theorem contains_eq_false_iff
    {set : TagSet}
    {tag : Tag} :
    set.contains tag = false ↔
      set.Disjoint (ofList [tag]) := by
  simp [contains, Disjoint, ofList, insert, empty]

/- A union has the tags of both sets. -/
theorem contains_union
    (left right : TagSet)
    (tag : Tag) :
    (left.union right).contains tag =
      (left.contains tag || right.contains tag) := by
  have hFree :
      (left.union right).contains tag = false ↔
        left.contains tag = false ∧
          right.contains tag = false := by
    simp only [contains_eq_false_iff]
    exact disjoint_union_left
  rw [← Bool.or_eq_false_iff] at hFree
  cases hUnion : (left.union right).contains tag with
  | false => exact (hFree.mp hUnion).symm
  | true =>
      symm
      rw [← Bool.not_eq_false]
      intro hNone
      rw [hFree.mpr hNone] at hUnion
      exact nomatch hUnion

/- A byte has the bit of a tag or none of it. -/
private theorem and_bit
    (bits : UInt8)
    (tag : Tag) :
    bits &&& tag.bit = 0 ∨ bits &&& tag.bit = tag.bit := by
  have hBit (place : Nat) :
      bits.toBitVec &&& BitVec.twoPow 8 place = 0#8 ∨
        bits.toBitVec &&& BitVec.twoPow 8 place =
          BitVec.twoPow 8 place := by
    rw [BitVec.and_twoPow]
    split
    · exact Or.inr rfl
    · exact Or.inl rfl
  simp only [← UInt8.toBitVec_inj]
  cases tag with
  | shape => exact hBit 0
  | color => exact hBit 1
  | position => exact hBit 2

/- Sets that are apart have no tag in common. -/
theorem Disjoint.contains_eq_false
    {left right : TagSet}
    (hApart : left.Disjoint right)
    {tag : Tag}
    (hContains : right.contains tag = true) :
    left.contains tag = false := by
  have hTag : right.bits &&& tag.bit = tag.bit := by
    rcases and_bit right.bits tag with hNone | hBit
    · simp [contains, hNone] at hContains
    · exact hBit
  have hNone : left.bits &&& tag.bit = 0 := by
    rw [← hTag, ← UInt8.and_assoc, hApart, UInt8.zero_and]
  simp [contains, hNone]

------------------------------------------------------------
-- Budgets Of Their Own
------------------------------------------------------------

/-
  The budget below a node that separates its children: the
  position alone, if it is claimed, and otherwise nothing.
-/
def freshBudget
    (claimed : TagSet) : TagSet :=
  if claimed.contains .position = true then
    ofList [.position]
  else
    empty

/- A separate child starts in a fresh budget. -/
theorem isolated_eq
    (claimed : TagSet) :
    claimed.isolated = claimed.freshBudget :=
  rfl

/-
  A part of what was claimed is apart from the fresh budget
  exactly if it does not hold the position.
-/
theorem disjoint_freshBudget_iff
    (set claimed : TagSet) :
    set.Disjoint (claimed.union set).freshBudget ↔
      set.contains .position = false := by
  unfold freshBudget
  split
  · exact contains_eq_false_iff.symm
  · rename_i hFree
    rw [Bool.not_eq_true, contains_eq_false_iff,
      disjoint_union_left] at hFree
    constructor
    · intro _
      exact contains_eq_false_iff.mpr hFree.2
    · intro _
      exact disjoint_empty set

end TagSet

end HiddenRule
