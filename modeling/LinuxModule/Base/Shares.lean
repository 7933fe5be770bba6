import Mathlib.Algebra.BigOperators.Group.List.Basic
import Mathlib.Algebra.Order.Field.Rat
import Mathlib.Data.Nat.Cast.Order.Field
import Mathlib.Tactic.Ring

set_option autoImplicit false

namespace LinuxModule

-- The parts of a whole, each rounded down to a multiple of 1 / scale of it: what all
-- the roundings together lose is less than one unit a part.
theorem floors_below (scale whole : Nat) (parts : List Nat) :
    whole * (parts.map fun part => scale * part / whole).sum ≤ scale * parts.sum := by
  induction parts with
  | nil => simp
  | cons part rest ih =>
      have here := Nat.mul_div_le (scale * part) whole
      simp only [List.map_cons, List.sum_cons, Nat.mul_add]
      omega

theorem floors_near (scale whole : Nat) (positive : 0 < whole) (parts : List Nat) (some_part : parts ≠ []) :
    scale * parts.sum < whole * ((parts.map fun part => scale * part / whole).sum + parts.length) := by
  induction parts with
  | nil => exact absurd rfl some_part
  | cons part rest ih =>
      have here := Nat.lt_mul_div_succ (scale * part) positive
      simp only [List.map_cons, List.sum_cons, List.length_cons, Nat.mul_add] at here ⊢
      cases rest with
      | nil => simpa using here
      | cons other more =>
          have later := ih (by simp)
          simp only [List.map_cons, List.sum_cons, List.length_cons, Nat.mul_add] at later ⊢
          omega

-- What is left for one part when the others are rounded down lies above its true
-- share, by less than one unit for each of the others.
theorem remainder_near_share (scale whole own : Nat) (positive : 0 < whole) (others : List Nat) (some_part : others ≠ [])
    (all : own + others.sum = whole) :
    (others.map fun part => scale * part / whole).sum ≤ scale ∧
      (scale * own / whole : ℚ) ≤ (scale - (others.map fun part => scale * part / whole).sum : Nat) ∧
      ((scale - (others.map fun part => scale * part / whole).sum : Nat) : ℚ) < scale * own / whole + others.length := by
  obtain ⟨rounded, sum⟩ : ∃ rounded, rounded = (others.map fun part => scale * part / whole).sum := ⟨_, rfl⟩
  have below := floors_below scale whole others
  have near := floors_near scale whole positive others some_part
  have total : scale * own + scale * others.sum = whole * scale := by
    rw [← Nat.mul_add, all, Nat.mul_comm]
  rw [← sum] at below near ⊢
  have fits : rounded ≤ scale := Nat.le_of_mul_le_mul_left (show whole * rounded ≤ whole * scale by omega) positive
  obtain ⟨left, rfl⟩ := Nat.exists_eq_add_of_le fits
  have denominator : (0 : ℚ) < whole := by exact_mod_cast positive
  have low : (rounded + left) * own ≤ left * whole := by
    have := Nat.mul_add whole rounded left
    have := Nat.mul_comm left whole
    omega
  have high : left * whole < (rounded + left) * own + others.length * whole := by
    have := Nat.mul_add whole rounded left
    have := Nat.mul_add whole rounded others.length
    have := Nat.mul_comm left whole
    have := Nat.mul_comm others.length whole
    omega
  rw [Nat.add_sub_cancel_left]
  refine ⟨fits, ?_, ?_⟩
  · rw [div_le_iff₀ denominator]
    exact_mod_cast low
  · rw [← sub_lt_iff_lt_add, lt_div_iff₀ denominator, sub_mul, sub_lt_iff_lt_add]
    exact_mod_cast high

theorem uint64_fold_add (xs : List UInt64) (start : UInt64) :
    (xs.foldl (· + ·) start).toNat = (start.toNat + (xs.map UInt64.toNat).sum) % 2 ^ 64 := by
  induction xs generalizing start with
  | nil => simp [Nat.mod_eq_of_lt start.toNat_lt]
  | cons x rest ih =>
      rw [List.foldl_cons, ih, UInt64.toNat_add, Nat.mod_add_mod, List.map_cons, List.sum_cons, Nat.add_assoc]

end LinuxModule
