import LinuxModule.Base.Scanf
import Mathlib.Data.List.TakeWhile

set_option autoImplicit false

namespace LinuxModule.Decimal

open Scanf

-- A number as %u or %lu prints it.
def decimal (n : Nat) : List UInt8 := (Nat.toDigits 10 n).map fun c => UInt8.ofNat c.toNat

def minus : UInt8 := 45
def plus : UInt8 := 43

-- A number as %d or %ld prints it.
def signed : Int → List UInt8
  | .ofNat n => decimal n
  | .negSucc n => minus :: decimal (n + 1)

def digitsValue (start : Nat) (bytes : List UInt8) : Nat := bytes.foldl (fun value b => 10 * value + (b.toNat - 48)) start

theorem digit_char_byte (c : Char) (digit : c.isDigit) :
    isdigit (UInt8.ofNat c.toNat) = true ∧ (UInt8.ofNat c.toNat).toNat = c.toNat := by
  obtain ⟨low, high⟩ : 48 ≤ c.toNat ∧ c.toNat ≤ 57 := Char.isDigit_iff_toNat.mp digit
  have small : (UInt8.ofNat c.toNat).toNat = c.toNat := by
    rw [UInt8.toNat_ofNat']
    omega
  refine ⟨?_, small⟩
  simp only [isdigit, Bool.and_eq_true, decide_eq_true_eq, UInt8.le_iff_toNat_le, small]
  exact ⟨low, high⟩

theorem decimal_digits (n : Nat) : Digits (decimal n) := by
  intro b member
  obtain ⟨c, inside, rfl⟩ := List.mem_map.mp member
  exact (digit_char_byte c (Nat.isDigit_of_mem_toDigits (by decide) (by decide) inside)).1

theorem decimal_some (n : Nat) : decimal n ≠ [] := by
  simp [decimal, Nat.toDigits_ne_nil]

theorem decimal_value (n : Nat) : digitsValue 0 (decimal n) = n := by
  have general : ∀ (chars : List Char) (start : Nat), (∀ c ∈ chars, c.isDigit) →
      digitsValue start (chars.map fun c => UInt8.ofNat c.toNat) = Nat.ofDigitChars 10 chars start := by
    intro chars
    induction chars with
    | nil => exact fun _ _ => rfl
    | cons c rest ih =>
        intro start digits
        obtain ⟨here, later⟩ := List.forall_mem_cons.mp digits
        rw [Nat.ofDigitChars_cons, ← ih _ later, List.map_cons, digitsValue, List.foldl_cons, (digit_char_byte c here).2]
        rfl
  rw [decimal, general _ 0 fun c member => Nat.isDigit_of_mem_toDigits (by decide) (by decide) member]
  exact Nat.ofDigitChars_ten_toDigits

-- A run of digits ends at the first byte that is none.
theorem digits_split (digits rest : List UInt8) (run : Digits digits) (stop : ∀ b, rest.head? = some b → isdigit b = false) :
    (digits ++ rest).takeWhile isdigit = digits ∧ (digits ++ rest).dropWhile isdigit = rest := by
  have ended : rest.takeWhile isdigit = [] ∧ rest.dropWhile isdigit = rest := by
    cases rest with
    | nil => exact ⟨rfl, rfl⟩
    | cons b more =>
        have other : ¬ isdigit b = true := by simp [stop b rfl]
        exact ⟨List.takeWhile_cons_of_neg other, List.dropWhile_cons_of_neg other⟩
  rw [List.takeWhile_append_of_pos run, List.dropWhile_append_of_pos run, ended.1, ended.2, List.append_nil]
  exact ⟨rfl, rfl⟩

end LinuxModule.Decimal
