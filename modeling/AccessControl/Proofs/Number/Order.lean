import AccessControl.Number.Binary64
import Mathlib.Algebra.Order.Field.Power
import Mathlib.Algebra.Order.Ring.Rat
import Mathlib.Order.Monotone.Basic
import Mathlib.Tactic.Linarith
import Mathlib.Tactic.NormNum
import Mathlib.Tactic.Positivity
import Mathlib.Tactic.Ring

/-! # Numbers in the order of their values

The order of bit patterns is that of the numbers that they stand for. It says more of zeros only, of
which the negative one comes first.
-/

namespace AccessControl.Binary64

/-- The number that a finite pattern stands for. -/
def value (x : Binary64) : ℚ :=
  (if x.isNegative then -1 else 1) * (x.decompose.1 * (2 : ℚ) ^ x.decompose.2)

/-- What a magnitude decomposes into. -/
def parts (magnitude : Nat) : Nat × Int :=
  if magnitude / twoTo 52 = 0 then (magnitude % twoTo 52, -1074)
  else (twoTo 52 + magnitude % twoTo 52, ((magnitude / twoTo 52 : Nat) : Int) - 1075)

/-- The absolute value of the numbers with a magnitude. -/
def absolute (magnitude : Nat) : ℚ := (parts magnitude).1 * (2 : ℚ) ^ (parts magnitude).2

theorem value_eq (x : Binary64) :
    x.value = (if x.isNegative then -1 else 1) * absolute x.magnitude := rfl

theorem parts_succ {m : Nat} (within : m % twoTo 52 + 1 < twoTo 52) :
    parts (m + 1) = ((parts m).1 + 1, (parts m).2) := by
  have positive : 0 < twoTo 52 := by decide
  have split : m + 1 = twoTo 52 * (m / twoTo 52) + (m % twoTo 52 + 1) := by
    rw [← Nat.add_assoc, Nat.div_add_mod]
  have exponent : (m + 1) / twoTo 52 = m / twoTo 52 := by
    conv_lhs => rw [split]
    rw [Nat.mul_add_div positive, Nat.div_eq_of_lt within, Nat.add_zero]
  have fraction : (m + 1) % twoTo 52 = m % twoTo 52 + 1 := by
    conv_lhs => rw [split]
    rw [Nat.mul_add_mod, Nat.mod_eq_of_lt within]
  unfold parts
  rw [exponent, fraction]
  split <;> rfl

theorem parts_succ_of_last {m : Nat} (last : m % twoTo 52 + 1 = twoTo 52) :
    parts (m + 1) = (twoTo 52, ((m / twoTo 52 : Nat) : Int) - 1074) := by
  have positive : 0 < twoTo 52 := by decide
  have whole : m + 1 = (m / twoTo 52 + 1) * twoTo 52 := by
    have := Nat.div_add_mod m (twoTo 52)
    rw [Nat.add_mul, Nat.one_mul, Nat.mul_comm]
    omega
  unfold parts
  rw [whole, Nat.mul_div_cancel _ positive, Nat.mul_mod_left, if_neg (Nat.succ_ne_zero _)]
  push_cast
  exact Prod.ext rfl (by ring)

/-- Numbers of one exponent grow with the fraction, and stay below those of the next exponent. -/
theorem absolute_strictMono : StrictMono absolute := by
  refine strictMono_nat_of_lt_succ fun m => ?_
  have fraction_lt := Nat.mod_lt m (by decide : 0 < twoTo 52)
  unfold absolute
  by_cases last : m % twoTo 52 + 1 = twoTo 52
  · rw [parts_succ_of_last last]
    have top : ((m % twoTo 52 : Nat) : ℚ) = twoTo 52 - 1 := by
      rw [eq_sub_iff_add_eq]
      exact_mod_cast last
    unfold parts
    split
    · rename_i none
      have unit : (0 : ℚ) < 2 ^ (((m / twoTo 52 : Nat) : ℤ) - 1074) := by positivity
      rw [none] at unit ⊢
      rw [top]
      exact mul_lt_mul_of_pos_right (sub_one_lt _) unit
    · have unit : (0 : ℚ) < 2 ^ (((m / twoTo 52 : Nat) : ℤ) - 1075) := by positivity
      have twice : (2 : ℚ) ^ (((m / twoTo 52 : Nat) : ℤ) - 1074) =
          2 * 2 ^ (((m / twoTo 52 : Nat) : ℤ) - 1075) := by
        rw [← zpow_one_add₀ two_ne_zero]
        congr 1
        ring
      simp only [Nat.cast_add, top, twice]
      linarith
  · rw [parts_succ (by omega)]
    have unit : (0 : ℚ) < 2 ^ (parts m).2 := by positivity
    push_cast
    linarith

theorem absolute_nonneg (magnitude : Nat) : 0 ≤ absolute magnitude := by
  unfold absolute
  positivity

/-- A smaller number comes first. -/
theorem totalCompare_of_value_lt {x y : Binary64} (less : x.value < y.value) :
    x.totalCompare y = .lt := by
  have ranked : x.totalRank < y.totalRank := by
    rw [value_eq, value_eq] at less
    have left := absolute_nonneg x.magnitude
    have right := absolute_nonneg y.magnitude
    unfold totalRank
    split <;> split <;> rename_i first second <;>
      simp only [first, second, Bool.false_eq_true, if_true, if_false, neg_mul, one_mul,
        neg_lt_neg_iff, absolute_strictMono.lt_iff_lt] at less
    · omega
    · omega
    · linarith
    · exact_mod_cast less
  unfold totalCompare
  exact Int.compare_eq_lt.mpr ranked

end AccessControl.Binary64
