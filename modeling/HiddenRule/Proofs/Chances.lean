import Mathlib.MeasureTheory.Constructions.Pi
import Mathlib.MeasureTheory.Measure.Lebesgue.Basic
import HiddenRule.Proofs.Draw
import HiddenRule.Proofs.Streams

/-
  This file proves how often the choice by weight picks each
  candidate.

  The choice scans the candidates with one sample for each,
  in the arithmetic of 53 bits.  The same scan can be read in
  exact arithmetic, with real numbers for samples.  A pick is
  the last candidate that replaces the one before, so each
  sample has an interval of its own in which a candidate is
  picked.  The lengths of these intervals telescope to the
  weight of the candidate over the sum of the weights.

  Where the test of a candidate is rounded, it differs from
  the exact one for one sample at most, the next one beyond
  the threshold.

  Main declarations:
    * `Choice.exact` and `Choice.Arithmetic.pick`
    * `Stream.choose_eq_pick`
    * `Choice.Arithmetic.pick_eq_some_iff`
    * `Choice.pick_rounded_eq_pick_exact`
    * `Choice.gap` and `Choice.pick_moves_only_at_gaps`
    * `Choice.selected` and `Choice.mem_selected_iff`
    * `Choice.favoring` and `Choice.selected_eq_pi`
    * `Choice.prod_length`
    * `Choice.choose_by_weight`
-/

------------------------------------------------------------
-- Scans
------------------------------------------------------------

namespace HiddenRule

namespace Choice

namespace Arithmetic

variable {Sample Value : Type}
variable (arithmetic : Arithmetic Sample Value)

/- The weight of candidates. -/
def totalOf
    (weights : List UInt32) : Nat :=
  weights.foldl
    (fun total weight => arithmetic.after total weight.toNat)
    0

theorem totalOf_append_singleton
    (weights : List UInt32)
    (weight : UInt32) :
    arithmetic.totalOf (weights ++ [weight]) =
      arithmetic.after (arithmetic.totalOf weights)
        weight.toNat := by
  simp [totalOf]

variable [LT Value]
variable [DecidableLT Value]
variable (samples : Nat → Sample)

/-
  Look at candidates from an index onwards, each with the
  sample of its index.
-/
def scan :
    (index total : Nat) → Option Nat → List UInt32 →
      Option Nat
| _, _, pick, [] => pick
| index, total, pick, weight :: rest =>
    let pick :=
      if arithmetic.Replaces (samples index) total
          weight.toNat then
        some index
      else
        pick
    scan (index + 1) (arithmetic.after total weight.toNat)
      pick rest

/- The candidate that is picked, if there is one. -/
def pick
    (weights : List UInt32) : Option Nat :=
  arithmetic.scan samples 0 0 none weights

end Arithmetic

/- The arithmetic without rounding, for real samples. -/
noncomputable def exact : Arithmetic ℝ ℝ where
  after total weight := total + weight
  share sample total := sample * total
  whole total := total

/- The others start one index after the first candidate. -/
private theorem add_length_cons
    (index : Nat)
    (weight : UInt32)
    (rest : List UInt32) :
    index + (weight :: rest).length =
      index + 1 + rest.length := by
  rw [List.length_cons]
  omega

end Choice

namespace Stream

/- The stream after so many samples. -/
def afterUnits
    (stream : Stream)
    (count : Nat) : Stream :=
  (fun stream : Stream => stream.unit.2)^[count] stream

/- The samples drawn from a stream one after another. -/
def units
    (stream : Stream)
    (index : Nat) : UnitSample :=
  (stream.afterUnits index).unit.1

theorem afterUnits_succ
    (stream : Stream)
    (count : Nat) :
    stream.afterUnits (count + 1) =
      (stream.afterUnits count).unit.2 :=
  Function.iterate_succ_apply' _ _ _

/- A scan takes one sample for each candidate. -/
private theorem scan_eq
    (stream : Stream)
    (index total : Nat)
    (pick : Option Nat)
    (weights : List UInt32) :
    Choice.scan index total pick weights
        (stream.afterUnits index) =
      (Choice.rounded.scan stream.units index total pick
          weights,
        stream.afterUnits (index + weights.length)) := by
  induction weights generalizing index total pick with
  | nil => rfl
  | cons weight rest ih =>
      rw [Choice.scan, Choice.Arithmetic.scan,
        Choice.add_length_cons]
      dsimp only
      rw [← stream.afterUnits_succ, ih]
      congr 2
      exact if_congr decide_eq_true_iff rfl rfl

/- So does a choice, whatever the weights. -/
theorem choose_eq_pick
    (stream : Stream)
    (weights : List UInt32) :
    stream.choose weights =
      (Choice.rounded.pick stream.units weights,
        stream.afterUnits weights.length) := by
  have hScan := stream.scan_eq 0 0 none weights
  rw [Nat.zero_add] at hScan
  exact hScan

end Stream

end HiddenRule

------------------------------------------------------------
-- The Last To Replace
------------------------------------------------------------

namespace HiddenRule

namespace Choice

namespace Arithmetic

variable {Sample Value : Type}
variable [LT Value]
variable (arithmetic : Arithmetic Sample Value)
variable (samples : Nat → Sample)

/- A candidate replaces the pick among those before it. -/
def ReplacesAt
    (weights : List UInt32)
    (i : Nat) : Prop :=
  ∃ weight,
    weights[i]? = some weight ∧
      arithmetic.Replaces (samples i)
        (arithmetic.totalOf (weights.take i)) weight.toNat

variable {arithmetic : Arithmetic Sample Value}
variable {samples : Nat → Sample}
variable {weights : List UInt32}
variable {i : Nat}

theorem ReplacesAt.lt_length
    (hReplaces : arithmetic.ReplacesAt samples weights i) :
    i < weights.length := by
  rcases hReplaces with ⟨weight, hGet, _⟩
  exact (List.getElem?_eq_some_iff.mp hGet).1

/- The candidates after one do not change what it does. -/
theorem replacesAt_append_singleton_iff
    {weight : UInt32} :
    arithmetic.ReplacesAt samples (weights ++ [weight]) i ↔
      arithmetic.ReplacesAt samples weights i ∨
        (i = weights.length ∧
          arithmetic.Replaces (samples weights.length)
            (arithmetic.totalOf weights) weight.toNat) := by
  rcases Nat.lt_trichotomy i weights.length with
    hBefore | hLast | hBeyond
  · rw [ReplacesAt, ReplacesAt,
      List.getElem?_append_left hBefore,
      List.take_append_of_le_length (Nat.le_of_lt hBefore)]
    simp [Nat.ne_of_lt hBefore]
  · subst hLast
    simp [ReplacesAt]
  · have hNone :
        (weights ++ [weight])[i]? = none := by
      rw [List.getElem?_eq_none_iff, List.length_append,
        List.length_singleton]
      exact hBeyond
    have hNoneBefore : weights[i]? = none :=
      List.getElem?_eq_none_iff.mpr (Nat.le_of_lt hBeyond)
    simp [ReplacesAt, hNone, hNoneBefore,
      Nat.ne_of_gt hBeyond]

variable [DecidableLT Value]

section

variable (arithmetic)
variable (samples)

private theorem scan_append_singleton
    (index total : Nat)
    (pick : Option Nat)
    (weights : List UInt32)
    (weight : UInt32) :
    arithmetic.scan samples index total pick
        (weights ++ [weight]) =
      if arithmetic.Replaces
          (samples (index + weights.length))
          (weights.foldl
            (fun total weight =>
              arithmetic.after total weight.toNat) total)
          weight.toNat then
        some (index + weights.length)
      else
        arithmetic.scan samples index total pick weights := by
  induction weights generalizing index total pick with
  | nil => rfl
  | cons first rest ih =>
      rw [List.cons_append, scan, ih, add_length_cons,
        List.foldl_cons, scan]

/- One more candidate takes the place of the pick or not. -/
theorem pick_append_singleton
    (weights : List UInt32)
    (weight : UInt32) :
    arithmetic.pick samples (weights ++ [weight]) =
      if arithmetic.Replaces (samples weights.length)
          (arithmetic.totalOf weights) weight.toNat then
        some weights.length
      else
        arithmetic.pick samples weights := by
  have hScan :=
    arithmetic.scan_append_singleton samples 0 0 none weights
      weight
  rw [Nat.zero_add] at hScan
  exact hScan

end

/- The pick is the last candidate that replaces another. -/
theorem pick_eq_some_iff :
    arithmetic.pick samples weights = some i ↔
      arithmetic.ReplacesAt samples weights i ∧
        ∀ j, i < j →
          ¬ arithmetic.ReplacesAt samples weights j := by
  -- One more candidate replaces whatever was picked or leaves
  -- it, so the list grows at its end.
  induction weights using List.reverseRecOn with
  | nil => simp [pick, scan, ReplacesAt]
  | append_singleton weights weight ih =>
      rw [pick_append_singleton]
      simp only [replacesAt_append_singleton_iff]
      split
      · rename_i hLast
        rw [Option.some.injEq]
        constructor
        · intro hSame
          subst hSame
          refine ⟨.inr ⟨rfl, hLast⟩, fun j hLater => ?_⟩
          rintro (hReplaces | ⟨hSame, _⟩)
          · exact Nat.lt_asymm hLater hReplaces.lt_length
          · exact Nat.ne_of_gt hLater hSame
        · rintro ⟨hReplaces | ⟨hSame, _⟩, hNone⟩
          · exact absurd (.inr ⟨rfl, hLast⟩)
              (hNone _ hReplaces.lt_length)
          · exact hSame.symm
      · rename_i hNotLast
        simp only [hNotLast, and_false, or_false]
        exact ih

/- Scans pick the same if the same candidates replace. -/
theorem pick_eq_pick
    {OtherSample OtherValue : Type}
    [LT OtherValue]
    [DecidableLT OtherValue]
    {other : Arithmetic OtherSample OtherValue}
    {otherSamples : Nat → OtherSample}
    (hReplaces :
      ∀ i,
        arithmetic.ReplacesAt samples weights i ↔
          other.ReplacesAt otherSamples weights i) :
    arithmetic.pick samples weights =
      other.pick otherSamples weights := by
  apply Option.ext
  intro i
  rw [pick_eq_some_iff, pick_eq_some_iff]
  simp only [hReplaces]

/- Only the samples of the candidates count. -/
theorem pick_congr
    {others : Nat → Sample}
    (hSame : ∀ j < weights.length, samples j = others j) :
    arithmetic.pick samples weights =
      arithmetic.pick others weights := by
  apply pick_eq_pick
  intro j
  refine exists_congr fun weight => and_congr_right ?_
  intro hGet
  rw [hSame j (List.getElem?_eq_some_iff.mp hGet).1]

end Arithmetic

end Choice

end HiddenRule

------------------------------------------------------------
-- Without Rounding
------------------------------------------------------------

namespace HiddenRule

private theorem scale_pos :
    (0 : ℝ) < (twoPow 53 : ℕ) := by
  exact_mod_cast twoPow_pos 53

/- A sample as a real number. -/
noncomputable def UnitSample.value
    (sample : UnitSample) : ℝ :=
  sample.numerator / twoPow 53

theorem UnitSample.value_mem
    (sample : UnitSample) :
    sample.value ∈ Set.Ico (0 : ℝ) 1 := by
  constructor
  · exact div_nonneg (Nat.cast_nonneg _) scale_pos.le
  · rw [UnitSample.value, div_lt_one scale_pos]
    exact_mod_cast sample.numerator_lt

namespace Choice

/- The sum of the weights before an index. -/
def weightBefore
    (weights : List UInt32)
    (index : Nat) : Nat :=
  ((weights.take index).map UInt32.toNat).sum

/- The sum of all weights. -/
def weightSum
    (weights : List UInt32) : Nat :=
  (weights.map UInt32.toNat).sum

theorem weightBefore_length
    (weights : List UInt32) :
    weightBefore weights weights.length =
      weightSum weights := by
  rw [weightBefore, List.take_length]
  rfl

/- A candidate adds its weight. -/
theorem weightBefore_succ
    {weights : List UInt32}
    {i : Nat}
    {weight : UInt32}
    (hGet : weights[i]? = some weight) :
    weightBefore weights (i + 1) =
      weightBefore weights i + weight.toNat := by
  rw [weightBefore, List.take_add_one, hGet]
  simp [weightBefore]

theorem weightBefore_mono
    (weights : List UInt32) :
    Monotone (weightBefore weights) := by
  apply monotone_nat_of_le_succ
  intro i
  cases hGet : weights[i]? with
  | none =>
      rw [weightBefore, weightBefore, List.take_add_one, hGet]
      simp
  | some weight =>
      rw [weightBefore_succ hGet]
      exact Nat.le_add_right _ _

/- Exactly, the weight of candidates is the sum. -/
theorem totalOf_exact
    (weights : List UInt32)
    (i : Nat) :
    exact.totalOf (weights.take i) =
      weightBefore weights i := by
  rw [weightBefore]
  generalize weights.take i = first
  induction first using List.reverseRecOn with
  | nil => rfl
  | append_singleton first weight ih =>
      rw [Arithmetic.totalOf_append_singleton, ih]
      simp [exact]

/-
  Samples with which no step of a scan rounds: the sums of
  weights have 53 bits, and so do the shares of them.
-/
def Unrounded
    (weights : List UInt32)
    (samples : Nat → UnitSample) : Prop :=
  ∀ i < weights.length,
    Precision.Exact (weightBefore weights (i + 1)) ∧
      Precision.Exact
        ((samples i).numerator * weightBefore weights (i + 1))

instance
    (weights : List UInt32)
    (samples : Nat → UnitSample) :
    Decidable (Unrounded weights samples) :=
  inferInstanceAs (Decidable (∀ i < weights.length, _))

section

variable {sample : UnitSample}
variable {total weight : Nat}

/- If the sum has 53 bits, only the share is rounded. -/
private theorem rounded_replaces_iff
    (hTotal : total ≠ 0)
    (hSum : Precision.Exact (total + weight)) :
    rounded.Replaces sample total weight ↔
      total * twoPow 53 <
        Precision.round
          (sample.numerator * (total + weight)) := by
  rw [Arithmetic.replaces_iff_of_ne hTotal]
  simp only [rounded, totalAfter,
    Precision.round_of_exact hSum]

/- The exact test, in natural numbers. -/
private theorem exact_replaces_iff
    (hTotal : total ≠ 0) :
    exact.Replaces sample.value total weight ↔
      total * twoPow 53 <
        sample.numerator * (total + weight) := by
  rw [Arithmetic.replaces_iff_of_ne hTotal]
  simp only [exact]
  rw [UnitSample.value, div_mul_eq_mul_div,
    lt_div_iff₀ scale_pos]
  exact_mod_cast Iff.rfl

/- A test without rounding is the exact one. -/
private theorem replaces_iff_exact
    (hSum : Precision.Exact (total + weight))
    (hShare :
      Precision.Exact (sample.numerator * (total + weight))) :
    rounded.Replaces sample total weight ↔
      exact.Replaces sample.value total weight := by
  by_cases hTotal : total = 0
  · rw [hTotal, Arithmetic.replaces_zero_iff,
      Arithmetic.replaces_zero_iff]
  · rw [rounded_replaces_iff hTotal hSum,
      exact_replaces_iff hTotal,
      Precision.round_of_exact hShare]

end

/- While the sums have 53 bits, they are not rounded. -/
private theorem totalOf_rounded
    {weights : List UInt32}
    (hSums :
      ∀ i < weights.length,
        Precision.Exact (weightBefore weights (i + 1)))
    {i : Nat}
    (hLe : i ≤ weights.length) :
    rounded.totalOf (weights.take i) =
      weightBefore weights i := by
  induction i with
  | zero => rfl
  | succ i ih =>
      have hGet : weights[i]? = some weights[i] :=
        List.getElem?_eq_getElem hLe
      have hSum := hSums i hLe
      rw [weightBefore_succ hGet] at hSum ⊢
      rw [List.take_add_one, hGet, Option.toList_some,
        Arithmetic.totalOf_append_singleton,
        ih (Nat.le_of_lt hLe)]
      exact Precision.round_of_exact hSum

/-
  If the sums have 53 bits and every test is the exact one,
  the exact scan of the same samples picks the same.
-/
private theorem pick_eq_pick_exact
    {weights : List UInt32}
    {samples : Nat → UnitSample}
    (hSums :
      ∀ i < weights.length,
        Precision.Exact (weightBefore weights (i + 1)))
    (hTests :
      ∀ i weight,
        weights[i]? = some weight →
          (rounded.Replaces (samples i)
              (weightBefore weights i) weight.toNat ↔
            exact.Replaces (samples i).value
              (weightBefore weights i) weight.toNat)) :
    rounded.pick samples weights =
      exact.pick (fun i => (samples i).value) weights := by
  apply Arithmetic.pick_eq_pick
  intro i
  refine exists_congr fun weight => and_congr_right ?_
  intro hGet
  have hLt := (List.getElem?_eq_some_iff.mp hGet).1
  rw [totalOf_rounded hSums (Nat.le_of_lt hLt),
    totalOf_exact]
  exact hTests i weight hGet

/-
  If no step of a scan rounds, the exact scan of the same
  samples picks the same candidate.
-/
theorem pick_rounded_eq_pick_exact
    {weights : List UInt32}
    {samples : Nat → UnitSample}
    (hUnrounded : Unrounded weights samples) :
    rounded.pick samples weights =
      exact.pick (fun i => (samples i).value) weights := by
  apply pick_eq_pick_exact fun i hLt => (hUnrounded i hLt).1
  intro i weight hGet
  have hLt := (List.getElem?_eq_some_iff.mp hGet).1
  rcases hUnrounded i hLt with ⟨hSum, hShare⟩
  rw [weightBefore_succ hGet] at hSum hShare
  exact replaces_iff_exact hSum hShare

end Choice

end HiddenRule

------------------------------------------------------------
-- How Far Rounding Moves A Pick
------------------------------------------------------------

namespace HiddenRule

namespace Choice

/-
  The numbers next beyond the share of the weight before a
  candidate, where the candidate should replace the pick but
  rounding may keep it from it.
-/
def gap
    (weights : List UInt32)
    (i : Nat) : Set ℝ :=
  Set.Ioo
    ((weightBefore weights i : ℝ) /
      weightBefore weights (i + 1))
    ((weightBefore weights i : ℝ) /
      weightBefore weights (i + 1) + 1 / (twoPow 53 : ℕ))

/- No more than one of all samples lies in a gap. -/
theorem eq_of_mem_gap
    {weights : List UInt32}
    {i : Nat}
    {left right : UnitSample}
    (hLeft : left.value ∈ gap weights i)
    (hRight : right.value ∈ gap weights i) :
    left = right := by
  have hLe
      {first second : UnitSample}
      (hFirst : first.value ∈ gap weights i)
      (hSecond : second.value ∈ gap weights i) :
      first.numerator ≤ second.numerator := by
    have hNear :
        first.value < second.value + 1 / (twoPow 53 : ℕ) := by
      linarith only [hFirst.2, hSecond.1]
    rw [UnitSample.value, UnitSample.value, ← add_div,
      div_lt_div_iff_of_pos_right scale_pos] at hNear
    exact Nat.le_of_lt_succ (by exact_mod_cast hNear)
  have hSame :=
    Nat.le_antisymm (hLe hLeft hRight) (hLe hRight hLeft)
  cases left
  cases right
  simpa using hSame

/- A sample in a gap, in natural numbers. -/
private theorem mem_gap_iff
    {weights : List UInt32}
    {i : Nat}
    {sample : UnitSample}
    (hPos : 0 < weightBefore weights (i + 1)) :
    sample.value ∈ gap weights i ↔
      weightBefore weights i * twoPow 53 <
          sample.numerator * weightBefore weights (i + 1) ∧
        sample.numerator * weightBefore weights (i + 1) <
          weightBefore weights i * twoPow 53 +
            weightBefore weights (i + 1) := by
  have hSum : (0 : ℝ) < weightBefore weights (i + 1) := by
    exact_mod_cast hPos
  rw [gap, Set.mem_Ioo, UnitSample.value,
    div_lt_div_iff₀ hSum scale_pos, ← sub_lt_iff_lt_add,
    ← sub_div, div_lt_div_iff₀ scale_pos hSum, sub_mul,
    one_mul, sub_lt_iff_lt_add]
  exact_mod_cast Iff.rfl

/-
  The test of a candidate is the exact one for all samples
  but the one in the gap of the candidate.
-/
private theorem replaces_iff_of_not_mem_gap
    {weights : List UInt32}
    {sample : UnitSample}
    {i : Nat}
    {weight : UInt32}
    (hGet : weights[i]? = some weight)
    (hSmall : weightBefore weights (i + 1) < twoPow 53)
    (hGap : sample.value ∉ gap weights i) :
    rounded.Replaces sample (weightBefore weights i)
        weight.toNat ↔
      exact.Replaces sample.value (weightBefore weights i)
        weight.toNat := by
  by_cases hTotal : weightBefore weights i = 0
  · rw [hTotal, Arithmetic.replaces_zero_iff,
      Arithmetic.replaces_zero_iff]
  have hMono := weightBefore_mono weights (Nat.le_succ i)
  have hPos : 0 < weightBefore weights (i + 1) :=
    Nat.lt_of_lt_of_le (Nat.pos_of_ne_zero hTotal) hMono
  rw [mem_gap_iff hPos] at hGap
  have hTimes :
      Precision.Exact
        (weightBefore weights i * twoPow 53) :=
    Precision.Exact.mul_twoPow
      (Or.inl (Nat.lt_of_le_of_lt hMono hSmall)) 53
  have hShare :
      sample.numerator * weightBefore weights (i + 1) <
        twoPow 53 * weightBefore weights (i + 1) :=
    Nat.mul_lt_mul_of_pos_right sample.numerator_lt hPos
  have hNear := Precision.lt_round_add hShare
  rw [weightBefore_succ hGet] at hSmall hGap hNear
  rw [rounded_replaces_iff hTotal (Or.inl hSmall),
    exact_replaces_iff hTotal]
  constructor
  · intro hRounded
    apply Nat.lt_of_not_le
    intro hLe
    have hBelow := Precision.round_le_of_exact hLe hTimes
    exact Nat.not_lt.mpr hBelow hRounded
  · intro hBeyond
    apply Nat.lt_of_not_le
    intro hLe
    exact hGap ⟨hBeyond, by omega⟩

/-
  Rounding moves a pick only if the sample of a candidate
  lies in the gap of the candidate.  Of the 2^53 samples that
  a candidate can have, this is one at most.  The sum of the
  weights has to stay below 2^53, which takes more than two
  million candidates to reach.
-/
theorem pick_moves_only_at_gaps
    {weights : List UInt32}
    {samples : Nat → UnitSample}
    (hSum : weightSum weights < twoPow 53)
    (hMoved :
      rounded.pick samples weights ≠
        exact.pick (fun i => (samples i).value) weights) :
    ∃ i < weights.length,
      (samples i).value ∈ gap weights i := by
  have hSmall :
      ∀ i < weights.length,
        weightBefore weights (i + 1) < twoPow 53 := by
    intro i hLt
    have hMono := weightBefore_mono weights hLt
    rw [weightBefore_length] at hMono
    exact Nat.lt_of_le_of_lt hMono hSum
  apply Classical.byContradiction
  intro hNone
  apply hMoved
  apply pick_eq_pick_exact fun i hLt =>
    Or.inl (hSmall i hLt)
  intro i weight hGet
  have hLt := (List.getElem?_eq_some_iff.mp hGet).1
  apply replaces_iff_of_not_mem_gap hGet (hSmall i hLt)
  intro hGap
  exact hNone ⟨i, hLt, hGap⟩

end Choice

end HiddenRule

------------------------------------------------------------
-- Intervals
------------------------------------------------------------

namespace HiddenRule

namespace Choice

/-
  The samples of a candidate with which another one can be
  picked: its own sample has to lie beyond the share of the
  weight before it, and later ones must not.
-/
def favoring
    (weights : List UInt32)
    (i j : Nat) : Set ℝ :=
  {u ∈ Set.Ico (0 : ℝ) 1 |
    (j = i →
      weightBefore weights i = 0 ∨
        (weightBefore weights i : ℝ) /
          weightBefore weights (i + 1) < u) ∧
    (i < j →
      u ≤ (weightBefore weights j : ℝ) /
        weightBefore weights (j + 1))}

/- Where these samples begin. -/
noncomputable def lowEnd
    (weights : List UInt32)
    (i j : Nat) : ℝ :=
  if j = i then
    (weightBefore weights i : ℝ) /
      weightBefore weights (i + 1)
  else
    0

/- Where these samples end. -/
noncomputable def highEnd
    (weights : List UInt32)
    (i j : Nat) : ℝ :=
  if i < j then
    (weightBefore weights j : ℝ) /
      weightBefore weights (j + 1)
  else
    1

/-
  The samples of all candidates with which one is picked in
  exact arithmetic.
-/
def selected
    (weights : List UInt32)
    (i : Nat) : Set (Fin weights.length → ℝ) :=
  {samples |
    (∀ j, samples j ∈ Set.Ico (0 : ℝ) 1) ∧
      exact.pick (Function.extend Fin.val samples 0)
        weights = some i}

variable {weights : List UInt32}
variable {i : Nat}
variable {weight : UInt32}

private theorem extend_val
    {count : Nat}
    (samples : Fin count → ℝ)
    (j : Fin count) :
    Function.extend Fin.val samples 0 j = samples j :=
  Fin.val_injective.extend_apply samples 0 j

/- Endless samples select by their beginning. -/
theorem mem_selected_iff
    {samples : Nat → ℝ}
    (hUnit : ∀ j, samples j ∈ Set.Ico (0 : ℝ) 1) :
    (fun j : Fin weights.length => samples j) ∈
        selected weights i ↔
      exact.pick samples weights = some i := by
  have hSame :
      ∀ j < weights.length,
        Function.extend Fin.val
            (fun j : Fin weights.length => samples j) 0 j =
          samples j :=
    fun j hLt => extend_val _ ⟨j, hLt⟩
  rw [selected, Set.mem_ofPred_eq,
    Arithmetic.pick_congr hSame]
  exact and_iff_right fun j => hUnit j

/- Weight was seen once a candidate with a weight was. -/
private theorem weightBefore_pos
    (hGet : weights[i]? = some weight)
    (hPos : 0 < weight)
    {j : Nat}
    (hLater : i < j) :
    (0 : ℝ) < weightBefore weights j := by
  have hOne : 0 < weight.toNat :=
    UInt32.lt_iff_toNat_lt.mp hPos
  have hMono := weightBefore_mono weights hLater
  rw [weightBefore_succ hGet] at hMono
  exact_mod_cast (by omega : 0 < weightBefore weights j)

/- What replaces at an index, in exact arithmetic. -/
private theorem exact_replacesAt_iff
    (hGet : weights[i]? = some weight)
    (samples : Nat → ℝ) :
    exact.ReplacesAt samples weights i ↔
      if weightBefore weights i = 0 then
        0 < weight.toNat
      else
        (weightBefore weights i : ℝ) <
          samples i * weightBefore weights (i + 1) := by
  rw [weightBefore_succ hGet, Arithmetic.ReplacesAt,
    totalOf_exact]
  simp only [hGet, Option.some.injEq, exists_eq_left']
  split
  · rename_i hZero
    rw [hZero, Arithmetic.replaces_zero_iff]
  · rename_i hSome
    exact Arithmetic.replaces_iff_of_ne hSome

/- A candidate with a weight replaces beyond its low end. -/
private theorem exact_replacesAt_self_iff
    (hGet : weights[i]? = some weight)
    (hPos : 0 < weight)
    (samples : Nat → ℝ) :
    exact.ReplacesAt samples weights i ↔
      weightBefore weights i = 0 ∨
        (weightBefore weights i : ℝ) /
          weightBefore weights (i + 1) < samples i := by
  have hOne : 0 < weight.toNat :=
    UInt32.lt_iff_toNat_lt.mp hPos
  have hSum := weightBefore_pos hGet hPos (Nat.lt_succ_self i)
  rw [exact_replacesAt_iff hGet, div_lt_iff₀ hSum]
  split
  · rename_i hZero
    simp [hZero, hOne]
  · rename_i hSome
    simp [hSome]

/- A later candidate leaves the pick up to its high end. -/
private theorem not_exact_replacesAt_iff
    (hGet : weights[i]? = some weight)
    (hPos : 0 < weight)
    {j : Nat}
    (hLater : i < j)
    (hLt : j < weights.length)
    (samples : Nat → ℝ) :
    ¬ exact.ReplacesAt samples weights j ↔
      samples j ≤
        (weightBefore weights j : ℝ) /
          weightBefore weights (j + 1) := by
  have hBefore := weightBefore_pos hGet hPos hLater
  have hSum :=
    weightBefore_pos hGet hPos (Nat.lt_succ_of_lt hLater)
  have hNe : weightBefore weights j ≠ 0 := by
    intro hZero
    rw [hZero, Nat.cast_zero] at hBefore
    exact lt_irrefl _ hBefore
  rw [exact_replacesAt_iff (List.getElem?_eq_getElem hLt),
    if_neg hNe, not_lt, le_div_iff₀ hSum]

/- The samples that pick a candidate form a product. -/
theorem selected_eq_pi
    (hGet : weights[i]? = some weight)
    (hPos : 0 < weight) :
    selected weights i =
      Set.univ.pi fun j : Fin weights.length =>
        favoring weights i j := by
  have hLt := (List.getElem?_eq_some_iff.mp hGet).1
  ext samples
  have hSelf :=
    exact_replacesAt_self_iff hGet hPos
      (Function.extend Fin.val samples 0)
  rw [extend_val samples ⟨i, hLt⟩] at hSelf
  rw [selected, Set.mem_ofPred_eq,
    Arithmetic.pick_eq_some_iff, hSelf, Set.mem_univ_pi]
  constructor
  · rintro ⟨hUnit, hOwn, hNone⟩ j
    refine ⟨hUnit j, fun hSame => ?_, fun hLater => ?_⟩
    · have hIndex : j = ⟨i, hLt⟩ := Fin.ext hSame
      rw [hIndex]
      exact hOwn
    · have hKeeps := hNone j hLater
      rw [not_exact_replacesAt_iff hGet hPos hLater j.isLt,
        extend_val samples j] at hKeeps
      exact hKeeps
  · intro hFavoring
    refine ⟨fun j => (hFavoring j).1,
      (hFavoring ⟨i, hLt⟩).2.1 rfl, fun j hLater => ?_⟩
    by_cases hInside : j < weights.length
    · rw [not_exact_replacesAt_iff hGet hPos hLater hInside,
        extend_val samples ⟨j, hInside⟩]
      exact (hFavoring ⟨j, hInside⟩).2.2 hLater
    · exact fun hReplaces => hInside hReplaces.lt_length

/- The share before a candidate lies between 0 and 1. -/
private theorem share_mem
    (weights : List UInt32)
    (j : Nat) :
    (weightBefore weights j : ℝ) /
        weightBefore weights (j + 1) ∈ Set.Icc (0 : ℝ) 1 := by
  constructor
  · exact div_nonneg (Nat.cast_nonneg _) (Nat.cast_nonneg _)
  · apply div_le_one_of_le₀ _ (Nat.cast_nonneg _)
    exact_mod_cast
      weightBefore_mono weights (Nat.le_succ j)

private theorem lowEnd_nonneg
    (weights : List UInt32)
    (i j : Nat) :
    0 ≤ lowEnd weights i j := by
  unfold lowEnd
  split
  · exact (share_mem weights i).1
  · exact le_refl _

private theorem highEnd_mem
    (weights : List UInt32)
    (i j : Nat) :
    highEnd weights i j ∈ Set.Icc (0 : ℝ) 1 := by
  unfold highEnd
  split
  · exact share_mem weights j
  · exact ⟨zero_le_one, le_refl _⟩

/- What lies between the ends favors, and nothing beyond. -/
theorem favoring_interval
    (weights : List UInt32)
    (i j : Nat) :
    Set.Ioo (lowEnd weights i j) (highEnd weights i j) ⊆
        favoring weights i j ∧
      favoring weights i j ⊆
        Set.Icc (lowEnd weights i j)
          (highEnd weights i j) := by
  constructor
  · rintro u ⟨hLow, hHigh⟩
    refine ⟨⟨?_, ?_⟩, fun hSame => ?_, fun hLater => ?_⟩
    · exact (lowEnd_nonneg weights i j).trans hLow.le
    · exact hHigh.trans_le (highEnd_mem weights i j).2
    · rw [lowEnd, if_pos hSame] at hLow
      exact .inr hLow
    · rw [highEnd, if_pos hLater] at hHigh
      exact hHigh.le
  · rintro u ⟨hUnit, hOwn, hLater⟩
    constructor
    · unfold lowEnd
      split
      · rename_i hSame
        rcases hOwn hSame with hZero | hBeyond
        · rw [hZero, Nat.cast_zero, zero_div]
          exact hUnit.1
        · exact hBeyond.le
      · exact hUnit.1
    · unfold highEnd
      split
      · rename_i hAfter
        exact hLater hAfter
      · exact hUnit.2.le

/- So the measure of what favors is the length between. -/
theorem volume_favoring
    (weights : List UInt32)
    (i j : Nat) :
    MeasureTheory.volume (favoring weights i j) =
      ENNReal.ofReal
        (highEnd weights i j - lowEnd weights i j) := by
  rcases favoring_interval weights i j with
    ⟨hInner, hOuter⟩
  apply le_antisymm
  · rw [← Real.volume_Icc]
    exact MeasureTheory.measure_mono hOuter
  · rw [← Real.volume_Ioo]
    exact MeasureTheory.measure_mono hInner

------------------------------------------------------------
-- Lengths
------------------------------------------------------------

/- The ends are in order. -/
private theorem length_nonneg
    (weights : List UInt32)
    (i j : Nat) :
    0 ≤ highEnd weights i j - lowEnd weights i j := by
  rw [sub_nonneg]
  unfold lowEnd
  split
  · rename_i hSame
    rw [highEnd, if_neg (by omega)]
    exact (share_mem weights i).2
  · exact (highEnd_mem weights i j).1

/- The lengths up to an index telescope. -/
private theorem prod_range_length
    (hGet : weights[i]? = some weight)
    (hPos : 0 < weight)
    {count : Nat}
    (hCount : i < count) :
    ∏ j ∈ Finset.range count,
        (highEnd weights i j - lowEnd weights i j) =
      (weight.toNat : ℝ) / weightBefore weights count := by
  induction count, hCount using Nat.le_induction with
  | base =>
      have hSum :=
        weightBefore_pos hGet hPos (Nat.lt_succ_self i)
      have hEarlier :
          ∏ j ∈ Finset.range i,
            (highEnd weights i j - lowEnd weights i j) =
              1 := by
        apply Finset.prod_eq_one
        intro j hEarlier
        have hLt := Finset.mem_range.mp hEarlier
        rw [highEnd, if_neg (by omega), lowEnd,
          if_neg (by omega), sub_zero]
      have hAdd :
          (weightBefore weights (i + 1) : ℝ) =
            weightBefore weights i + weight.toNat := by
        exact_mod_cast weightBefore_succ hGet
      rw [Finset.prod_range_succ, hEarlier, one_mul, highEnd,
        if_neg (lt_irrefl i), lowEnd, if_pos rfl,
        one_sub_div hSum.ne', hAdd, add_sub_cancel_left]
  | succ count hCount ih =>
      have hLater : i < count := hCount
      have hBefore := weightBefore_pos hGet hPos hLater
      rw [Finset.prod_range_succ, ih, highEnd,
        if_pos hLater, lowEnd, if_neg (by omega), sub_zero,
        div_mul_div_cancel₀ hBefore.ne']

/- The lengths multiply to the share of the candidate. -/
theorem prod_length
    (hGet : weights[i]? = some weight)
    (hPos : 0 < weight) :
    ∏ j : Fin weights.length,
        (highEnd weights i j - lowEnd weights i j) =
      (weight.toNat : ℝ) / weightSum weights := by
  have hLt := (List.getElem?_eq_some_iff.mp hGet).1
  have hProd := prod_range_length hGet hPos hLt
  rw [weightBefore_length] at hProd
  rw [← hProd]
  exact Fin.prod_univ_eq_prod_range
    (fun j => highEnd weights i j - lowEnd weights i j)
    weights.length

/- So a candidate is picked as often as its weight says. -/
theorem volume_selected
    (hGet : weights[i]? = some weight)
    (hPos : 0 < weight) :
    MeasureTheory.volume (selected weights i) =
      ENNReal.ofReal
        ((weight.toNat : ℝ) / weightSum weights) := by
  have hNonneg :
      ∀ j ∈ (Finset.univ : Finset (Fin weights.length)),
        0 ≤ highEnd weights i j - lowEnd weights i j :=
    fun j _ => length_nonneg weights i j
  rw [selected_eq_pi hGet hPos, MeasureTheory.volume_pi_pi,
    ← prod_length hGet hPos,
    ENNReal.ofReal_prod_of_nonneg hNonneg]
  exact Finset.prod_congr rfl fun j _ =>
    volume_favoring weights i j

------------------------------------------------------------
-- Choices
------------------------------------------------------------

/-
  A choice by weight draws one sample for each candidate,
  whatever the weights.  It picks none exactly if no
  candidate has a weight, and otherwise one that has.  If no
  step of the scan rounds, it picks a candidate exactly with
  the samples that pick it in exact arithmetic.

  In exact arithmetic the samples that pick a candidate with
  a weight form a product of intervals.  The lengths of these
  multiply to the weight over the sum of all weights, which
  is the measure of the samples.
-/
theorem choose_by_weight
    (weights : List UInt32) :
    (∀ stream : Stream,
      stream.choose weights =
          (rounded.pick stream.units weights,
            stream.afterUnits weights.length) ∧
        ((stream.choose weights).1 = none ↔
          ∀ weight ∈ weights, weight = 0) ∧
        (∀ i,
          (stream.choose weights).1 = some i →
            ∃ weight,
              weights[i]? = some weight ∧ 0 < weight) ∧
        (Unrounded weights stream.units →
          ∀ i,
            (stream.choose weights).1 = some i ↔
              (fun j : Fin weights.length =>
                (stream.units j).value) ∈
                  selected weights i)) ∧
    ∀ (i : Nat) (weight : UInt32),
      weights[i]? = some weight →
        0 < weight →
          selected weights i =
              (Set.univ.pi fun j : Fin weights.length =>
                favoring weights i j) ∧
            (∀ j,
              Set.Ioo (lowEnd weights i j)
                  (highEnd weights i j) ⊆
                favoring weights i j ∧
              favoring weights i j ⊆
                Set.Icc (lowEnd weights i j)
                  (highEnd weights i j)) ∧
            ∏ j : Fin weights.length,
                (highEnd weights i j -
                  lowEnd weights i j) =
              (weight.toNat : ℝ) / weightSum weights ∧
            MeasureTheory.volume (selected weights i) =
              ENNReal.ofReal
                ((weight.toNat : ℝ) /
                  weightSum weights) := by
  constructor
  · intro stream
    refine ⟨stream.choose_eq_pick weights,
      stream.choose_eq_none_iff weights,
      fun i hChosen => Stream.choose_pos hChosen,
      fun hUnrounded i => ?_⟩
    rw [stream.choose_eq_pick,
      pick_rounded_eq_pick_exact hUnrounded]
    exact (mem_selected_iff
      fun j => (stream.units j).value_mem).symm
  · intro i weight hGet hPos
    exact ⟨selected_eq_pi hGet hPos,
      favoring_interval weights i, prod_length hGet hPos,
      volume_selected hGet hPos⟩

/-
  Weights whose sums are powers of two do not round.  The
  third of these candidates is picked by three samples of
  eight, and it is picked here.
-/
theorem third_of_four_chosen :
    let weights : List UInt32 := [1, 0, 3, 4]
    let stream : Stream := .ofSeed 9
    Unrounded weights stream.units ∧
      weights[2]? = some 3 ∧ (0 : UInt32) < 3 ∧
        (stream.choose weights).1 = some 2 ∧
        (stream.choose weights).2 = stream.afterUnits 4 ∧
        (fun j : Fin weights.length =>
          (stream.units j).value) ∈ selected weights 2 ∧
        ∏ j : Fin weights.length,
            (highEnd weights 2 j - lowEnd weights 2 j) =
          3 / 8 ∧
        MeasureTheory.volume (selected weights 2) =
          ENNReal.ofReal (3 / 8) := by
  intro weights stream
  have hUnrounded : Unrounded weights stream.units := by
    decide +kernel
  have hGet : weights[2]? = some 3 := rfl
  have hPos : (0 : UInt32) < 3 := by decide
  have hChosen : (stream.choose weights).1 = some 2 := by
    decide +kernel
  have hShare :
      ((3 : UInt32).toNat : ℝ) / weightSum weights =
        3 / 8 := by
    have hWeight : (3 : UInt32).toNat = 3 := rfl
    have hSum : weightSum weights = 8 := rfl
    rw [hWeight, hSum]
    norm_num
  rcases choose_by_weight weights with ⟨hDraws, hExact⟩
  rcases hDraws stream with ⟨hChoose, _, _, hSame⟩
  rcases hExact 2 3 hGet hPos with ⟨_, _, hProd, hVolume⟩
  rw [hShare] at hProd hVolume
  refine ⟨hUnrounded, hGet, hPos, hChosen, ?_, ?_, hProd,
    hVolume⟩
  · rw [hChoose]
    rfl
  · exact (hSame hUnrounded 2).mp hChosen

end Choice

end HiddenRule
