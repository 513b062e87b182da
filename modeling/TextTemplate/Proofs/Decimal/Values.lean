import Mathlib.Algebra.Order.Field.Power
import Mathlib.Algebra.Order.Field.Rat
import Mathlib.Tactic.Positivity
import Mathlib.Tactic.Ring
import TextTemplate.Decimal.Basic

/-!
# The numbers that decimals stand for

A decimal stands for a rational number (`Decimal.value`).  Taking off trailing zeros keeps it
(`Decimal.value_reduced`), and its leading digit tells its order of magnitude: a positive decimal is
at least `10 ^ k` just when `k` is at most its `magnitude` (`Decimal.zpow_le_value_iff`).
-/

namespace TextTemplate

/-! ### Digits of natural numbers -/

theorem head?_toDigits_ne_zero {n : Nat} (h : n ≠ 0) : (Nat.toDigits 10 n).head? ≠ some '0' := by
  induction n using Nat.strongRecOn with
  | ind n ih =>
    rw [Nat.toDigits_eq_if (by decide)]
    split
    · simpa using h
    · have hfront := ih (n / 10) (by omega) (by omega)
      rwa [List.head?_append_of_ne_nil _ Nat.toDigits_ne_nil]

theorem getLast?_toDigits_ne_zero {n : Nat} (h : n % 10 ≠ 0) :
    (Nat.toDigits 10 n).getLast? ≠ some '0' := by
  rw [Nat.toDigits_eq_if (by decide)]
  split
  · next hlt =>
    rw [Nat.mod_eq_of_lt hlt] at h
    simpa using h
  · simpa using h

/-- A number has as many digits as its order of magnitude says. -/
theorem pow_le_of_length_toDigits {n : Nat} (h : n ≠ 0) :
    10 ^ ((Nat.toDigits 10 n).length - 1) ≤ n := by
  rcases Nat.eq_zero_or_pos ((Nat.toDigits 10 n).length - 1) with hone | hmore
  · rw [hone]
    exact Nat.one_le_iff_ne_zero.2 h
  · refine Nat.le_of_not_lt fun hlt => ?_
    have := (Nat.length_toDigits_le_iff (by decide) hmore).2 hlt
    omega

theorem lt_pow_length_toDigits (n : Nat) : n < 10 ^ (Nat.toDigits 10 n).length :=
  (Nat.length_toDigits_le_iff (by decide) Nat.length_toDigits_pos).1 (Nat.le_refl _)

namespace Decimal

variable {d : Decimal} {k : Int}

/-- The number `coefficient * 10 ^ exponent`. -/
def value (d : Decimal) : ℚ := d.coefficient * 10 ^ d.exponent

/-- A decimal without digits behind the point is a natural number. -/
theorem exists_value_eq_natCast (h : 0 ≤ d.exponent) : ∃ n : Nat, d.value = n := by
  obtain ⟨exponent, hexponent⟩ := Int.eq_ofNat_of_zero_le h
  refine ⟨d.coefficient * 10 ^ exponent, ?_⟩
  rw [value, hexponent, zpow_natCast]
  norm_cast

/-! ### Trailing zeros -/

@[simp] theorem value_reduced (d : Decimal) : d.reduced.value = d.value := by
  fun_induction reduced d with
  | case1 d h ih =>
    have hten : (10 : ℚ) * (d.coefficient / 10 : Nat) = d.coefficient := by
      exact_mod_cast Nat.mul_div_cancel' (Nat.dvd_of_mod_eq_zero h.2)
    calc (reduced ⟨d.coefficient / 10, d.exponent + 1⟩).value
      _ = (d.coefficient / 10 : Nat) * 10 ^ (d.exponent + 1) := ih
      _ = (10 * (d.coefficient / 10 : Nat)) * 10 ^ d.exponent := by
        rw [zpow_add_one₀ (by norm_num)]
        ring
      _ = d.value := by rw [hten, value]
  | case2 => rfl

theorem coefficient_reduced_mod_ten (h : d.coefficient ≠ 0) : d.reduced.coefficient % 10 ≠ 0 := by
  fun_induction reduced d with
  | case1 d hzero ih => exact ih (by dsimp only; omega)
  | case2 d hnone => exact fun hzero => hnone ⟨h, hzero⟩

theorem coefficient_reduced_ne_zero (h : d.coefficient ≠ 0) : d.reduced.coefficient ≠ 0 :=
  fun hzero => coefficient_reduced_mod_ten h (by rw [hzero])

/-! ### The order of magnitude -/

theorem magnitude_add_one (d : Decimal) : d.magnitude + 1 = d.digits.length + d.exponent := by
  unfold magnitude
  omega

theorem value_pos (h : d.coefficient ≠ 0) : 0 < d.value := by
  have := Nat.pos_of_ne_zero h
  unfold value
  positivity

/-- The leading digit is worth no more than the number. -/
theorem zpow_magnitude_le_value (h : d.coefficient ≠ 0) : 10 ^ d.magnitude ≤ d.value := by
  have hpos : 0 < d.digits.length := Nat.length_toDigits_pos
  have hle : (10 : ℚ) ^ (d.digits.length - 1) ≤ d.coefficient := by
    exact_mod_cast pow_le_of_length_toDigits h
  have hsplit : d.magnitude = (d.digits.length - 1 : Nat) + d.exponent := by
    have := d.magnitude_add_one
    omega
  rw [hsplit, zpow_add₀ (by norm_num), zpow_natCast, value]
  gcongr

/-- All digits together are worth less than the next power of ten. -/
theorem value_lt_zpow_magnitude (d : Decimal) : d.value < 10 ^ (d.magnitude + 1) := by
  have hlt : (d.coefficient : ℚ) < 10 ^ d.digits.length := by
    exact_mod_cast lt_pow_length_toDigits d.coefficient
  rw [d.magnitude_add_one, zpow_add₀ (by norm_num), zpow_natCast, value]
  gcongr

theorem zpow_le_value_iff (h : d.coefficient ≠ 0) : 10 ^ k ≤ d.value ↔ k ≤ d.magnitude := by
  constructor
  · intro hle
    have := (zpow_lt_zpow_iff_right₀ (by norm_num)).1 (hle.trans_lt d.value_lt_zpow_magnitude)
    omega
  · intro hle
    exact (zpow_le_zpow_right₀ (by norm_num) hle).trans (zpow_magnitude_le_value h)

theorem value_lt_zpow_iff (h : d.coefficient ≠ 0) : d.value < 10 ^ k ↔ d.magnitude < k := by
  rw [← not_le, zpow_le_value_iff h, not_le]

end Decimal

end TextTemplate
