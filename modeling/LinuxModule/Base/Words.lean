import Mathlib.Algebra.Order.Ring.Nat
import Mathlib.Algebra.Order.Group.Nat
import Mathlib.Tactic.Ring

set_option autoImplicit false

namespace LinuxModule

theorem wrapped_quotient_lt (m x d : Nat) (positive : 0 < d) (within : d ≤ m) (wraps : m ≤ x) : x % m / d < x / d := by
  have lost : x % m + d ≤ x := by
    have split := Nat.mod_add_div x m
    have once : m ≤ m * (x / m) := Nat.le_mul_of_pos_right m (Nat.div_pos wraps (by omega))
    omega
  calc x % m / d < x % m / d + 1 := Nat.lt_succ_self _
    _ = (x % m + d) / d := (Nat.add_div_right _ positive).symm
    _ ≤ x / d := Nat.div_le_div_right lost

theorem wrapped_quotient_iff (m x d : Nat) (positive : 0 < d) (within : d ≤ m) : x % m / d = x / d ↔ x < m := by
  constructor
  · intro same
    by_contra wraps
    exact absurd same (Nat.ne_of_lt (wrapped_quotient_lt m x d positive within (Nat.le_of_not_lt wraps)))
  · intro fits
    rw [Nat.mod_eq_of_lt fits]

theorem wrapped_difference_iff (a b : UInt64) : (a - b).toNat ≤ a.toNat ↔ b ≤ a := by
  rw [UInt64.le_iff_toNat_le]
  have small := a.toNat_lt
  have small' := b.toNat_lt
  rw [UInt64.toNat_sub]
  omega

-- The share of a whole that is not idle, in whole per cent, when the whole is counted
-- with and without some extra time: it moves when a whole percentage is crossed.
theorem busy_percent_bounds (whole idle : Nat) (positive : 0 < whole) (within : idle ≤ whole) (percent : Nat) :
    percent ≤ 100 * (whole - idle) / whole ↔ percent ≤ 100 ∧ 100 * idle ≤ (100 - percent) * whole := by
  obtain ⟨busy, rfl⟩ := Nat.exists_eq_add_of_le within
  rw [Nat.add_sub_cancel_left, Nat.le_div_iff_mul_le positive]
  constructor
  · intro below
    have few : percent ≤ 100 := by
      by_contra many
      have larger : 101 * (idle + busy) ≤ percent * (idle + busy) := Nat.mul_le_mul_right _ (by omega)
      omega
    obtain ⟨left, hundred⟩ := Nat.exists_eq_add_of_le few
    have split : percent * (idle + busy) + left * (idle + busy) = 100 * (idle + busy) := by
      rw [← Nat.add_mul, ← hundred]
    have rest : 100 - percent = left := by omega
    exact ⟨few, by rw [rest]; omega⟩
  · rintro ⟨few, below⟩
    obtain ⟨left, hundred⟩ := Nat.exists_eq_add_of_le few
    have split : percent * (idle + busy) + left * (idle + busy) = 100 * (idle + busy) := by
      rw [← Nat.add_mul, ← hundred]
    have rest : 100 - percent = left := by omega
    rw [rest] at below
    omega

theorem busy_percent_same_iff (whole extra idle : Nat) (positive : 0 < whole) (within : idle ≤ whole) :
    100 * (whole + extra - idle) / (whole + extra) = 100 * (whole - idle) / whole ↔
      ∀ percent, ¬ (percent * whole < 100 * idle ∧ 100 * idle ≤ percent * (whole + extra)) := by
  have narrow := busy_percent_bounds whole idle positive within
  have wide := busy_percent_bounds (whole + extra) idle (by omega) (by omega)
  constructor
  · rintro same percent ⟨above, below⟩
    have part : percent ≤ 100 := by
      by_contra more
      have larger : 101 * whole ≤ percent * whole := Nat.mul_le_mul_right _ (by omega)
      omega
    have rest : 100 - (100 - percent) = percent := by omega
    have reached := (wide (100 - percent)).mpr ⟨by omega, rest.symm ▸ below⟩
    rw [same] at reached
    have here := ((narrow (100 - percent)).mp reached).2
    rw [rest] at here
    omega
  · intro none_between
    apply Nat.le_antisymm
    · obtain ⟨few, below⟩ := (wide _).mp (Nat.le_refl _)
      refine (narrow _).mpr ⟨few, ?_⟩
      by_contra above
      exact none_between _ ⟨by omega, below⟩
    · obtain ⟨few, below⟩ := (narrow _).mp (Nat.le_refl _)
      exact (wide _).mpr ⟨few, Nat.le_trans below (Nat.mul_le_mul_left _ (Nat.le_add_right _ _))⟩

end LinuxModule
