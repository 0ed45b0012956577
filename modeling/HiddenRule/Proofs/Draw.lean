import HiddenRule.Draw.Choice
import HiddenRule.Draw.Range

/-
  This file proves what a draw from a range and a choice by
  weight can return.

  The weight seen so far is kept in 53 bits, so it may differ
  from the sum of the weights.  Still, it stays a number of
  53 bits; therefore a candidate without weight leaves it as
  it is and never takes the place of the earlier pick.

  Main declarations:
    * `Precision.Exact` and `Precision.exact_round`
    * `Choice.replaces_pos`
    * `Stream.choose_eq_none_iff`
    * `Stream.choose_pos`
    * `Stream.range_of_lt`
-/

------------------------------------------------------------
-- Powers Of Two
------------------------------------------------------------

namespace HiddenRule

/- Exponents of a product are added. -/
theorem twoPow_add
    (a b : Nat) :
    twoPow (a + b) = twoPow a * twoPow b :=
  Nat.pow_add 2 a b

/- A smaller power of two divides a larger one. -/
theorem twoPow_dvd_of_le
    {a b : Nat}
    (hLe : a ≤ b) :
    twoPow a ∣ twoPow b :=
  Nat.pow_dvd_pow 2 hLe

/- A number reaches the power of two of its logarithm. -/
theorem twoPow_log2_le
    {n : Nat}
    (hNe : n ≠ 0) :
    twoPow n.log2 ≤ n :=
  Nat.log2_self_le hNe

/- A logarithm is small if the number is. -/
theorem log2_lt_of_lt_twoPow
    {n bits : Nat}
    (hNe : n ≠ 0)
    (hLt : n < twoPow bits) :
    n.log2 < bits :=
  (Nat.log2_lt hNe).mpr hLt

/- A number that is not small has a large logarithm. -/
theorem le_log2_of_twoPow_le
    {n bits : Nat}
    (hNe : n ≠ 0)
    (hLe : twoPow bits ≤ n) :
    bits ≤ n.log2 :=
  (Nat.le_log2 hNe).mpr hLe

end HiddenRule

------------------------------------------------------------
-- Rounding
------------------------------------------------------------

namespace HiddenRule

namespace Precision

/- Numbers that have no more than 53 significant bits. -/
def Exact
    (n : Nat) : Prop :=
  n < twoPow 53 ∨ twoPow (n.log2 - 52) ∣ n

instance
    (n : Nat) :
    Decidable (Exact n) :=
  inferInstanceAs (Decidable (_ ∨ _))

/- A quotient without a rest is its own nearest number. -/
theorem nearest_mul
    {den : Nat}
    (hDen : 0 < den)
    (factor : Nat) :
    nearest (factor * den) den = factor := by
  have hRest : factor * den % den = 0 :=
    Nat.mul_mod_left factor den
  have hWhole : factor * den / den = factor :=
    Nat.mul_div_cancel factor hDen
  have hNotUp :
      ¬ (den < 2 * 0 ∨ 2 * 0 = den ∧ factor % 2 = 1) := by
    omega
  simp only [nearest, hRest, hWhole, if_neg hNotUp]

/- The nearest quotient stays below a bound of the quotient. -/
theorem nearest_le
    {num den bound : Nat}
    (hDen : 0 < den)
    (hLe : num ≤ bound * den) :
    nearest num den ≤ bound := by
  rcases Nat.lt_or_eq_of_le hLe with hLt | hEq
  · have hWhole : num / den < bound :=
      (Nat.div_lt_iff_lt_mul hDen).mpr hLt
    unfold nearest
    dsimp only
    split
    · omega
    · omega
  · rw [hEq]
    exact Nat.le_of_eq (nearest_mul hDen bound)

/- The nearest quotient is at least the whole part. -/
theorem div_le_nearest
    (num den : Nat) :
    num / den ≤ nearest num den := by
  unfold nearest
  dsimp only
  split
  · omega
  · exact Nat.le_refl _

/- Nor is it further from the quotient than a half. -/
theorem le_nearest_add_half
    {den : Nat}
    (hDen : 0 < den)
    (num : Nat) :
    2 * num ≤ 2 * (nearest num den * den) + den := by
  have hParts := Nat.div_add_mod num den
  rw [Nat.mul_comm] at hParts
  have hRest := Nat.mod_lt num hDen
  unfold nearest
  dsimp only
  split
  · rw [Nat.add_mul, Nat.one_mul]
    omega
  · omega

/- The unit in which a large number is rounded. -/
private theorem unit_pos
    (n : Nat) :
    0 < twoPow (n.log2 - 52) :=
  twoPow_pos _

/- A number of 53 bits is its own rounding. -/
theorem round_of_exact
    {n : Nat}
    (hExact : Exact n) :
    round n = n := by
  unfold round
  split
  · rfl
  · rename_i hLarge
    rcases hExact with hSmall | ⟨factor, hFactor⟩
    · exact absurd hSmall hLarge
    · have hEq : n = factor * twoPow (n.log2 - 52) := by
        rw [Nat.mul_comm]
        exact hFactor
      have hNearest :
          nearest n (twoPow (n.log2 - 52)) = factor := by
        have hMul := nearest_mul (unit_pos n) factor
        rwa [← hEq] at hMul
      dsimp only
      rw [hNearest, ← hEq]

/-
  Rounding does not pass a bound that is a multiple of the
  unit in which the number is rounded.
-/
theorem round_le_of_dvd
    {n bound : Nat}
    (hLe : n ≤ bound)
    (hDvd : twoPow (n.log2 - 52) ∣ bound) :
    round n ≤ bound := by
  unfold round
  split
  · exact hLe
  · rcases hDvd with ⟨factor, hFactor⟩
    have hNearest :
        nearest n (twoPow (n.log2 - 52)) ≤ factor := by
      apply nearest_le (unit_pos n)
      rw [Nat.mul_comm, ← hFactor]
      exact hLe
    calc
      nearest n (twoPow (n.log2 - 52)) *
            twoPow (n.log2 - 52)
          ≤ factor * twoPow (n.log2 - 52) :=
        Nat.mul_le_mul_right _ hNearest
      _ = bound := by
        rw [hFactor, Nat.mul_comm]

/- Nor does it pass any bound of 53 bits. -/
theorem round_le_of_exact
    {n bound : Nat}
    (hLe : n ≤ bound)
    (hExact : Exact bound) :
    round n ≤ bound := by
  rcases hExact with hSmall | hDvd
  · rw [round_of_exact (Or.inl (by omega))]
    exact hLe
  · apply round_le_of_dvd hLe
    rcases Nat.eq_zero_or_pos n with hZero | hPos
    · rw [hZero]
      exact Nat.one_dvd _
    · have hTop : n < twoPow (bound.log2 + 1) :=
        Nat.lt_of_le_of_lt hLe Nat.lt_log2_self
      have hLog := log2_lt_of_lt_twoPow (by omega) hTop
      exact Nat.dvd_trans
        (twoPow_dvd_of_le (by omega)) hDvd

/- The bits of a number are those of a multiple by two. -/
theorem Exact.mul_twoPow
    {n : Nat}
    (hExact : Exact n)
    (shift : Nat) :
    Exact (n * twoPow shift) := by
  rcases Nat.eq_zero_or_pos n with hZero | hPos
  · rw [hZero, Nat.zero_mul]
    exact Or.inl (twoPow_pos 53)
  have hTop :
      n * twoPow shift < twoPow (n.log2 + 1 + shift) := by
    rw [twoPow_add]
    exact Nat.mul_lt_mul_of_pos_right
      Nat.lt_log2_self (twoPow_pos shift)
  have hNe : n * twoPow shift ≠ 0 :=
    Nat.ne_of_gt (Nat.mul_pos hPos (twoPow_pos shift))
  have hLog := log2_lt_of_lt_twoPow hNe hTop
  right
  rcases hExact with hSmall | hDvd
  · have hBits := log2_lt_of_lt_twoPow (by omega) hSmall
    exact Nat.dvd_trans
      (twoPow_dvd_of_le (by omega))
      (Nat.dvd_mul_left (twoPow shift) n)
  · have hProduct :
        twoPow (n.log2 - 52 + shift) ∣ n * twoPow shift := by
      rw [twoPow_add]
      exact Nat.mul_dvd_mul hDvd (Nat.dvd_refl _)
    exact Nat.dvd_trans
      (twoPow_dvd_of_le (by omega)) hProduct

/-
  A number is rounded down by less than one part of it in
  2^53.
-/
theorem lt_round_add
    {n part : Nat}
    (hLt : n < twoPow 53 * part) :
    n < round n + part := by
  have hPart : 0 < part := by
    apply Nat.pos_of_ne_zero
    intro hZero
    rw [hZero, Nat.mul_zero] at hLt
    exact Nat.not_lt_zero n hLt
  unfold round
  split
  · omega
  · rename_i hLarge
    have hNe : n ≠ 0 := by
      intro hZero
      rw [hZero] at hLarge
      exact hLarge (twoPow_pos 53)
    have hLog : 53 ≤ n.log2 :=
      le_log2_of_twoPow_le hNe (Nat.le_of_not_lt hLarge)
    have hHalf := le_nearest_add_half (unit_pos n) n
    have hUnit :
        twoPow 52 * twoPow (n.log2 - 52) ≤ n := by
      rw [← twoPow_add, Nat.add_sub_of_le (by omega)]
      exact twoPow_log2_le hNe
    have hTwice : twoPow 53 * part = twoPow 52 * (2 * part) :=
      Nat.mul_assoc (twoPow 52) 2 part
    rw [hTwice] at hLt
    have hBelow : twoPow (n.log2 - 52) < 2 * part :=
      Nat.lt_of_mul_lt_mul_left
        (Nat.lt_of_le_of_lt hUnit hLt)
    dsimp only
    omega

/- A large number is at least its unit. -/
private theorem unit_le
    {n : Nat}
    (hNe : n ≠ 0) :
    twoPow (n.log2 - 52) ≤ n :=
  Nat.le_trans
    (Nat.le_of_dvd (twoPow_pos _)
      (twoPow_dvd_of_le (Nat.sub_le _ _)))
    (twoPow_log2_le hNe)

/- Rounding keeps positive numbers positive. -/
theorem round_pos
    {n : Nat}
    (hPos : 0 < n) :
    0 < round n := by
  unfold round
  split
  · exact hPos
  · have hWhole : 0 < n / twoPow (n.log2 - 52) :=
      Nat.div_pos (unit_le (by omega)) (unit_pos n)
    exact Nat.mul_pos
      (Nat.lt_of_lt_of_le hWhole (div_le_nearest _ _))
      (unit_pos n)

/- What rounding gives has 53 bits. -/
theorem exact_round
    (n : Nat) :
    Exact (round n) := by
  unfold round
  split
  · rename_i hSmall
    exact Or.inl hSmall
  · rename_i hLarge
    have hLog : 53 ≤ n.log2 :=
      le_log2_of_twoPow_le
        (by have := twoPow_pos 53; omega) (by omega)
    dsimp only
    generalize hUnit : twoPow (n.log2 - 52) = unit
    have hTop : twoPow (n.log2 + 1) = twoPow 53 * unit := by
      rw [← hUnit, ← twoPow_add]
      congr 1
      omega
    have hNearest : nearest n unit ≤ twoPow 53 := by
      apply nearest_le (hUnit ▸ unit_pos n)
      rw [← hTop]
      exact Nat.le_of_lt Nat.lt_log2_self
    have hLe : nearest n unit * unit ≤ twoPow (n.log2 + 1) := by
      rw [hTop]
      exact Nat.mul_le_mul_right unit hNearest
    right
    rcases Nat.lt_or_eq_of_le hLe with hLt | hEq
    · rcases Nat.eq_zero_or_pos (nearest n unit * unit) with
        hZero | hPos
      · rw [hZero]
        exact Nat.dvd_zero _
      · have hBelow :=
          log2_lt_of_lt_twoPow (by omega) hLt
        have hUnitDvd :
            twoPow ((nearest n unit * unit).log2 - 52) ∣
              unit :=
          Nat.dvd_trans
            (twoPow_dvd_of_le (b := n.log2 - 52) (by omega))
            (hUnit ▸ Nat.dvd_refl _)
        exact Nat.dvd_trans hUnitDvd
          (Nat.dvd_mul_left unit _)
    · rw [hEq]
      exact twoPow_dvd_of_le
        (Nat.le_trans (Nat.sub_le _ _)
          (Nat.le_of_eq Nat.log2_two_pow))

end Precision

end HiddenRule

------------------------------------------------------------
-- One Candidate
------------------------------------------------------------

namespace HiddenRule

namespace Choice

open Precision

/- The weight seen so far is always a number of 53 bits. -/
theorem exact_totalAfter
    (total weight : Nat) :
    Exact (totalAfter total weight) :=
  exact_round _

/- No weight was seen before if none is seen after. -/
theorem totalAfter_eq_zero_iff
    {total weight : Nat} :
    totalAfter total weight = 0 ↔
      total = 0 ∧ weight = 0 := by
  constructor
  · intro hZero
    unfold totalAfter at hZero
    rcases Nat.eq_zero_or_pos (total + weight) with
      hNone | hSome
    · omega
    · have hPos := round_pos hSome
      omega
  · intro ⟨hTotal, hWeight⟩
    subst hTotal hWeight
    rfl

/-
  The share that a sample takes of an exact weight, once
  rounded, does not exceed the weight.
-/
private theorem round_share_le
    (sample : UnitSample)
    {total : Nat}
    (hExact : Exact total)
    (hPos : 0 < total) :
    round (sample.numerator * total) ≤
      total * twoPow 53 := by
  have hLt :
      sample.numerator * total < total * twoPow 53 := by
    rw [Nat.mul_comm]
    exact Nat.mul_lt_mul_of_pos_left
      sample.numerator_lt hPos
  exact round_le_of_exact (Nat.le_of_lt hLt)
    (hExact.mul_twoPow 53)

/- Only a candidate with a weight replaces a pick. -/
theorem replaces_pos
    {sample : UnitSample}
    {total weight : Nat}
    (hExact : Exact total)
    (hReplaces : replaces sample total weight = true) :
    0 < weight := by
  have hTest := of_decide_eq_true hReplaces
  by_cases hTotal : total = 0
  · rw [hTotal] at hTest
    exact Arithmetic.replaces_zero_iff.mp hTest
  · rcases Nat.eq_zero_or_pos weight with hZero | hPos
    · have hSame : totalAfter total 0 = total :=
        round_of_exact hExact
      have hLe := round_share_le sample hExact (by omega)
      have hLt :=
        (Arithmetic.replaces_iff_of_ne hTotal).mp hTest
      simp only [rounded, hZero, hSame] at hLt
      omega
    · exact hPos

/- The first candidate with a weight is always picked. -/
theorem replaces_zero
    (sample : UnitSample)
    (weight : Nat) :
    replaces sample 0 weight = decide (0 < weight) :=
  decide_eq_decide.mpr Arithmetic.replaces_zero_iff

------------------------------------------------------------
-- All Candidates
------------------------------------------------------------

/-
  A pick is the one before the scan, or a candidate of the
  scan that has a weight.
-/
theorem scan_pick
    {index total : Nat}
    {pick : Option Nat}
    {weights : List UInt32}
    {stream : Stream}
    {i : Nat}
    (hExact : Exact total)
    (hPick :
      (scan index total pick weights stream).1 = some i) :
    pick = some i ∨
      ∃ offset weight,
        i = index + offset ∧
          weights[offset]? = some weight ∧ 0 < weight := by
  induction weights generalizing
      index total pick stream with
  | nil => exact Or.inl hPick
  | cons weight rest ih =>
      rw [scan] at hPick
      dsimp only at hPick
      rcases ih (exact_totalAfter _ _) hPick with
        hNow | ⟨offset, later, hIndex, hGet, hPos⟩
      · split at hNow
        · rename_i hReplaces
          have hWeight := replaces_pos hExact hReplaces
          refine Or.inr ⟨0, weight, ?_, rfl, ?_⟩
          · exact (Option.some.inj hNow).symm
          · exact UInt32.lt_iff_toNat_lt.mpr hWeight
        · exact Or.inl hNow
      · refine Or.inr ⟨offset + 1, later, ?_, hGet, hPos⟩
        omega

/-
  Before any weight is seen, a candidate is picked exactly
  if it has a weight.
-/
private theorem replaces_first_iff
    {sample : UnitSample}
    {total : Nat}
    {weight : UInt32}
    (hTotal : total = 0) :
    replaces sample total weight.toNat = true ↔
      weight ≠ 0 := by
  rw [hTotal, replaces_zero, decide_eq_true_iff]
  constructor
  · intro hPos hZero
    subst hZero
    exact Nat.lt_irrefl 0 hPos
  · intro hNe
    apply Nat.pos_of_ne_zero
    intro hZero
    exact hNe (UInt32.toNat_inj.mp hZero)

/-
  One candidate leaves nothing picked exactly if nothing was
  picked before and the candidate has no weight.
-/
private theorem step_eq_none_iff
    {sample : UnitSample}
    {index total : Nat}
    {pick : Option Nat}
    {weight : UInt32}
    (hFresh : pick = none ↔ total = 0) :
    (if replaces sample total weight.toNat then
        some index
      else
        pick) = none ↔
      pick = none ∧ weight = 0 := by
  split
  · rename_i hReplaces
    constructor
    · intro hPick
      exact nomatch hPick
    · intro ⟨hPick, hZero⟩
      have hTotal := hFresh.mp hPick
      exact absurd hZero
        ((replaces_first_iff hTotal).mp hReplaces)
  · rename_i hKeeps
    constructor
    · intro hPick
      have hTotal := hFresh.mp hPick
      refine ⟨hPick, ?_⟩
      exact Decidable.byContradiction fun hNe =>
        hKeeps ((replaces_first_iff hTotal).mpr hNe)
    · intro ⟨hPick, _⟩
      exact hPick

/-
  Without a pick there was none before, and no candidate has
  a weight.
-/
theorem scan_eq_none_iff
    {index total : Nat}
    {pick : Option Nat}
    {weights : List UInt32}
    {stream : Stream}
    (hFresh : pick = none ↔ total = 0) :
    (scan index total pick weights stream).1 = none ↔
      pick = none ∧ ∀ weight ∈ weights, weight = 0 := by
  induction weights generalizing
      index total pick stream with
  | nil => simp [scan]
  | cons weight rest ih =>
      have hSum :
          totalAfter total weight.toNat = 0 ↔
            total = 0 ∧ weight = 0 := by
        rw [totalAfter_eq_zero_iff, ← UInt32.toNat_inj]
        rfl
      rw [scan]
      dsimp only
      rw [ih]
      · rw [step_eq_none_iff hFresh, List.forall_mem_cons,
          and_assoc]
      · rw [step_eq_none_iff hFresh, hSum, hFresh]

end Choice

end HiddenRule

------------------------------------------------------------
-- Choices
------------------------------------------------------------

namespace HiddenRule

namespace Stream

/- Nothing is chosen exactly if no candidate has a weight. -/
theorem choose_eq_none_iff
    (weights : List UInt32)
    (stream : Stream) :
    (stream.choose weights).1 = none ↔
      ∀ weight ∈ weights, weight = 0 := by
  unfold choose
  rw [Choice.scan_eq_none_iff (by simp)]
  simp

/- What is chosen is a candidate with a weight. -/
theorem choose_pos
    {weights : List UInt32}
    {stream : Stream}
    {i : Nat}
    (hChosen : (stream.choose weights).1 = some i) :
    ∃ weight, weights[i]? = some weight ∧ 0 < weight := by
  have hExact : Precision.Exact 0 := Or.inl (by decide)
  rcases Choice.scan_pick hExact hChosen with
    hNone | ⟨offset, weight, hIndex, hGet, hPos⟩
  · exact nomatch hNone
  · rw [Nat.zero_add] at hIndex
    subst hIndex
    exact ⟨weight, hGet, hPos⟩

------------------------------------------------------------
-- Ranges
------------------------------------------------------------

/- A range that is not empty gives one of its numbers. -/
theorem range_of_lt
    {low high : Nat}
    (hLt : low < high)
    (stream : Stream) :
    ∃ n next,
      stream.range low high = .ok (n, next) ∧
        low ≤ n ∧ n < high := by
  have hPos : 0 < high - low := Nat.sub_pos_of_lt hLt
  have hBelow :
      (below .double (high - low) stream).1 < high - low :=
    belowWithin_lt hPos
  cases hDrawn : below .double (high - low) stream with
  | mk n next =>
      rw [hDrawn] at hBelow
      refine ⟨low + n, next, ?_, Nat.le_add_right low n, ?_⟩
      · rw [range, if_pos hLt, hDrawn]
      · exact Nat.add_lt_of_lt_sub' hBelow

/- Nothing is drawn from an empty range. -/
theorem range_of_le
    {low high : Nat}
    (hLe : high ≤ low)
    (stream : Stream) :
    stream.range low high = .error .emptyRange :=
  if_neg (Nat.not_lt.mpr hLe)

end Stream

end HiddenRule
