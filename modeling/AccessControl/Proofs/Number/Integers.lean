import AccessControl.Number.Binary64
import Mathlib.Algebra.Order.Ring.Nat
import Mathlib.Data.Nat.Log

/-! # Integers as floating-point numbers

An integer becomes the nearest number. This keeps the order, but beyond `2 ^ 53` there are more
integers than numbers, and neighbours become one. Up to there every integer is a number.
-/

namespace AccessControl

theorem twoTo_eq (exponent : Nat) : twoTo exponent = 2 ^ exponent := rfl

namespace Binary64

/-! ## Quotients rounded to even -/

theorem divideToEven_bounds (num den : Nat) :
    num / den ≤ divideToEven num den ∧ divideToEven num den ≤ num / den + 1 := by
  unfold divideToEven
  simp only
  split
  · omega
  · split <;> omega

theorem divideToEven_one (num : Nat) : divideToEven num 1 = num := by
  simp [divideToEven, Nat.mod_one]

theorem divideToEven_mono {num num' : Nat} (den : Nat) (le : num ≤ num') :
    divideToEven num den ≤ divideToEven num' den := by
  have lower := (divideToEven_bounds num den).2
  have upper := (divideToEven_bounds num' den).1
  rcases (Nat.div_le_div_right le : num / den ≤ num' / den).lt_or_eq with less | same
  · omega
  · -- with one whole part, the larger dividend has the larger remainder
    have split := Nat.div_add_mod num den
    have split' := Nat.div_add_mod num' den
    rw [same] at split
    unfold divideToEven
    simp only [same]
    split <;> split <;> (try split) <;> (try split) <;> omega

/-! ## Magnitudes of integers -/

/-- The fraction of a positive integer, its leading bit included. -/
def integerFraction (n : Nat) : Nat :=
  divideToEven (n * twoTo (52 - n.log2)) (twoTo (n.log2 - 52))

/-- The magnitude of the number nearest to an integer, where it is not beyond the largest. -/
def integerMagnitude (n : Nat) : Nat :=
  if n = 0 then 0 else (n.log2 + 1023) * twoTo 52 + (integerFraction n - twoTo 52)

theorem integerFraction_bounds {n : Nat} (positive : n ≠ 0) :
    twoTo 52 ≤ integerFraction n ∧ integerFraction n ≤ twoTo 53 := by
  have low := Nat.log2_self_le positive
  have high : n < 2 ^ (n.log2 + 1) := Nat.lt_log2_self
  obtain ⟨lower, upper⟩ := divideToEven_bounds (n * twoTo (52 - n.log2)) (twoTo (n.log2 - 52))
  suffices whole : 2 ^ 52 ≤ n * 2 ^ (52 - n.log2) / 2 ^ (n.log2 - 52) ∧
      n * 2 ^ (52 - n.log2) / 2 ^ (n.log2 - 52) < 2 ^ 53 by
    unfold integerFraction
    simp only [twoTo_eq] at lower upper ⊢
    omega
  rcases Nat.le_total n.log2 52 with small | large
  · rw [Nat.sub_eq_zero_of_le small, Nat.pow_zero, Nat.div_one]
    have scale : 2 ^ 52 = 2 ^ n.log2 * 2 ^ (52 - n.log2) := by
      rw [← Nat.pow_add, Nat.add_sub_cancel' small]
    have scale' : 2 ^ 53 = 2 ^ (n.log2 + 1) * 2 ^ (52 - n.log2) := by
      rw [← Nat.pow_add]
      congr 1
      omega
    rw [scale, scale']
    exact ⟨Nat.mul_le_mul_right _ low,
      Nat.mul_lt_mul_of_pos_right high (Nat.pow_pos Nat.two_pos)⟩
  · rw [Nat.sub_eq_zero_of_le large, Nat.pow_zero, Nat.mul_one,
      Nat.le_div_iff_mul_le (Nat.pow_pos Nat.two_pos),
      Nat.div_lt_iff_lt_mul (Nat.pow_pos Nat.two_pos),
      ← Nat.pow_add, ← Nat.pow_add]
    have scale : 52 + (n.log2 - 52) = n.log2 := by omega
    have scale' : 53 + (n.log2 - 52) = n.log2 + 1 := by omega
    rw [scale, scale']
    exact ⟨low, high⟩

theorem integerFraction_of_log2_le {n : Nat} (small : n.log2 ≤ 52) :
    integerFraction n = n * twoTo (52 - n.log2) := by
  unfold integerFraction
  rw [Nat.sub_eq_zero_of_le small]
  exact divideToEven_one _

theorem log2_mono {n n' : Nat} (le : n ≤ n') : n.log2 ≤ n'.log2 := by
  rw [Nat.log2_eq_log_two, Nat.log2_eq_log_two]
  exact Nat.log_mono_right le

theorem integerMagnitude_mono : Monotone integerMagnitude := by
  intro n n' le
  unfold integerMagnitude
  split
  · exact Nat.zero_le _
  next positive =>
    have positive' : n' ≠ 0 := by omega
    rw [if_neg positive']
    obtain ⟨_, upper⟩ := integerFraction_bounds positive
    rcases (log2_mono le).lt_or_eq with less | same
    · -- the fraction reaches the next exponent at most
      have next : (n.log2 + 1023 + 1) * twoTo 52 ≤ (n'.log2 + 1023) * twoTo 52 :=
        Nat.mul_le_mul_right _ (by omega)
      have double : twoTo 53 = 2 * twoTo 52 := rfl
      rw [Nat.add_mul, Nat.one_mul] at next
      omega
    · have fractions : integerFraction n ≤ integerFraction n' := by
        unfold integerFraction
        rw [same]
        exact divideToEven_mono _ (Nat.mul_le_mul_right _ le)
      rw [same]
      omega

theorem integerMagnitude_pos {n : Nat} (positive : n ≠ 0) : 0 < integerMagnitude n := by
  have : 0 < (n.log2 + 1023) * twoTo 52 := Nat.mul_pos (by omega) (by decide)
  unfold integerMagnitude
  rw [if_neg positive]
  omega

theorem integerMagnitude_lt {n n' : Nat} (less : n < n') (small : n' ≤ 2 ^ 53) :
    integerMagnitude n < integerMagnitude n' := by
  have positive' : n' ≠ 0 := by omega
  have lower' := (integerFraction_bounds positive').1
  have below : n < 2 ^ 53 := by omega
  unfold integerMagnitude
  rw [if_neg positive']
  split
  · have := integerMagnitude_pos positive'
    rwa [integerMagnitude, if_neg positive'] at this
  next positive =>
    have few : n.log2 ≤ 52 := Nat.lt_succ_iff.mp ((Nat.log2_lt positive).mpr below)
    have lower := (integerFraction_bounds positive).1
    rcases (log2_mono less.le).lt_or_eq with less' | same
    · have next : (n.log2 + 1023 + 1) * twoTo 52 ≤ (n'.log2 + 1023) * twoTo 52 :=
        Nat.mul_le_mul_right _ (by omega)
      rw [Nat.add_mul, Nat.one_mul] at next
      have upper : integerFraction n < 2 * twoTo 52 := by
        rw [integerFraction_of_log2_le few, twoTo_eq, twoTo_eq]
        calc n * 2 ^ (52 - n.log2) < 2 ^ (n.log2 + 1) * 2 ^ (52 - n.log2) :=
              Nat.mul_lt_mul_of_pos_right Nat.lt_log2_self (Nat.pow_pos Nat.two_pos)
          _ = 2 * 2 ^ 52 := by
              rw [← Nat.pow_add, ← Nat.pow_succ']
              congr 1
              omega
      omega
    · have few' : n'.log2 ≤ 52 := same ▸ few
      have fractions : integerFraction n < integerFraction n' := by
        rw [integerFraction_of_log2_le few, integerFraction_of_log2_le few', same]
        exact Nat.mul_lt_mul_of_pos_right less (Nat.pow_pos Nat.two_pos)
      rw [same]
      omega

theorem integerMagnitude_lt_infinity {n : Nat} (within : n ≤ 2 ^ 63) :
    integerMagnitude n < infinityMagnitude :=
  (integerMagnitude_mono within).trans_lt (by decide +kernel)

/-! ## Numbers nearest to integers -/

theorem magnitude_ofMagnitude {m : Nat} (negative : Bool) (within : m < signWeight) :
    (ofMagnitude negative m).magnitude = m ∧ (ofMagnitude negative m).isNegative = negative := by
  unfold magnitude isNegative ofMagnitude
  rw [UInt64.toNat_ofNat']
  unfold signWeight at within ⊢
  cases negative
  · simp only [Bool.false_eq_true, if_false]
    rw [Nat.mod_eq_of_lt (a := m) (by omega), Nat.mod_eq_of_lt within]
    exact ⟨rfl, by simp; omega⟩
  · simp only [if_true]
    rw [Nat.mod_eq_of_lt (a := 0x8000000000000000 + m) (by omega)]
    exact ⟨by omega, by simp⟩

theorem nearest_one {n : Nat} (negative : Bool) (positive : n ≠ 0) (within : n ≤ 2 ^ 63) :
    nearest negative n 1 = ofMagnitude negative (integerMagnitude n) := by
  have wide : twoTo 53 * (1 * twoTo ((n.log2 : Int) - (Nat.log2 1 : Int) - 53).toNat) ≤
      n * twoTo (-((n.log2 : Int) - (Nat.log2 1 : Int) - 53)).toNat := by
    have one : Nat.log2 1 = 0 := by decide
    have up : ((n.log2 : Int) - (Nat.log2 1 : Int) - 53).toNat = n.log2 - 53 := by
      rw [one]
      omega
    have down : (-((n.log2 : Int) - (Nat.log2 1 : Int) - 53)).toNat = 53 - n.log2 := by
      rw [one]
      omega
    rw [up, down, Nat.one_mul, twoTo_eq, twoTo_eq, twoTo_eq, ← Nat.pow_add]
    calc 2 ^ (53 + (n.log2 - 53)) = 2 ^ n.log2 * 2 ^ (53 - n.log2) := by
          rw [← Nat.pow_add]
          congr 1
          omega
      _ ≤ n * 2 ^ (53 - n.log2) := Nat.mul_le_mul_right _ (Nat.log2_self_le positive)
  have scale : max ((n.log2 : Int) - (Nat.log2 1 : Int) - 53 + 1) (-1074) = (n.log2 : Int) - 52 := by
    have one : Nat.log2 1 = 0 := by decide
    rw [one]
    omega
  have down : (-((n.log2 : Int) - 52)).toNat = 52 - n.log2 := by omega
  have up : ((n.log2 : Int) - 52).toNat = n.log2 - 52 := by omega
  have exponent : ((n.log2 : Int) - 52 + 1075).toNat = n.log2 + 1023 := by omega
  have finite := integerMagnitude_lt_infinity within
  unfold integerMagnitude at finite ⊢
  rw [if_neg positive] at finite ⊢
  have fraction : divideToEven (n * twoTo (52 - n.log2)) (twoTo (n.log2 - 52)) =
      integerFraction n := rfl
  rw [nearest, if_neg positive]
  dsimp only
  rw [if_pos wide, scale, down, up, Nat.one_mul, fraction]
  unfold composeMagnitude
  rw [if_neg (Nat.not_lt.mpr (integerFraction_bounds positive).1), exponent, min_eq_right finite.le]

theorem ofInt_eq {i : Int} (within : i.natAbs ≤ 2 ^ 63) :
    ofInt i = ofMagnitude (i < 0) (integerMagnitude i.natAbs) := by
  unfold ofInt
  by_cases zero : i.natAbs = 0
  · rw [nearest, if_pos zero, zero]
    rfl
  · exact nearest_one _ zero within

theorem isNaN_ofInt {i : Int} (within : i.natAbs ≤ 2 ^ 63) : (ofInt i).isNaN = false := by
  have finite := integerMagnitude_lt_infinity within
  have fits : integerMagnitude i.natAbs < signWeight := finite.trans (by decide)
  unfold isNaN
  rw [ofInt_eq within, (magnitude_ofMagnitude _ fits).1]
  exact decide_eq_false (Nat.not_lt.mpr finite.le)

theorem rank_ofInt {i : Int} (within : i.natAbs ≤ 2 ^ 63) :
    (ofInt i).rank = if i < 0 then -(integerMagnitude i.natAbs : Int)
      else integerMagnitude i.natAbs := by
  have fits : integerMagnitude i.natAbs < signWeight :=
    (integerMagnitude_lt_infinity within).trans (by decide)
  obtain ⟨magnitude, negative⟩ := magnitude_ofMagnitude (decide (i < 0)) fits
  unfold rank
  rw [ofInt_eq within, magnitude, negative]
  simp

theorem ofInt_eq_of_rank {i j : Int} (within : i.natAbs ≤ 2 ^ 63) (within' : j.natAbs ≤ 2 ^ 63)
    (same : (ofInt i).rank = (ofInt j).rank) : ofInt i = ofInt j := by
  have positive {k : Int} (negative : k < 0) : 0 < integerMagnitude k.natAbs :=
    integerMagnitude_pos (by omega)
  rw [rank_ofInt within, rank_ofInt within'] at same
  have signs : i < 0 ↔ j < 0 := by
    constructor <;> intro negative <;> have := positive negative <;>
      simp only [negative, if_true] at same <;> split at same <;> omega
  have magnitudes : integerMagnitude i.natAbs = integerMagnitude j.natAbs := by
    split at same <;> split at same <;> omega
  rw [ofInt_eq within, ofInt_eq within', magnitudes, decide_eq_decide.mpr signs]

/-- Rounding keeps the order of integers. -/
theorem rank_ofInt_mono {i j : Int} (within : i.natAbs ≤ 2 ^ 63) (within' : j.natAbs ≤ 2 ^ 63)
    (le : i ≤ j) : (ofInt i).rank ≤ (ofInt j).rank := by
  rw [rank_ofInt within, rank_ofInt within']
  split <;> split
  · have := integerMagnitude_mono (show j.natAbs ≤ i.natAbs by omega)
    omega
  · omega
  · omega
  · have := integerMagnitude_mono (show i.natAbs ≤ j.natAbs by omega)
    omega

/-- Up to `2 ^ 53` it keeps all integers apart. -/
theorem rank_ofInt_lt {i j : Int} (small : i.natAbs ≤ 2 ^ 53) (small' : j.natAbs ≤ 2 ^ 53)
    (less : i < j) : (ofInt i).rank < (ofInt j).rank := by
  rw [rank_ofInt (small.trans (by decide)), rank_ofInt (small'.trans (by decide))]
  split <;> split
  · have := integerMagnitude_lt (show j.natAbs < i.natAbs by omega) small
    omega
  · have : integerMagnitude 0 < integerMagnitude i.natAbs :=
      integerMagnitude_lt (by omega) small
    omega
  · omega
  · have := integerMagnitude_lt (show i.natAbs < j.natAbs by omega) small'
    omega

end Binary64

end AccessControl
