import LinuxModule.Base.Decimal
import LinuxModule.Base.UserCopy
import Mathlib.Algebra.Group.Int.Defs

set_option autoImplicit false

namespace LinuxModule.Kstrto

open Decimal
open Scanf (isdigit Digits newline)

def einval : Int := 22
def erange : Int := 34

-- The kernel's conversions of a whole string in base 10. A number of more than 64 bits is
-- out of range whatever follows it.
def parseInteger (str : List UInt8) : Except Int Nat :=
  let digits := str.takeWhile isdigit
  let rest := str.dropWhile isdigit
  if 2 ^ 64 ≤ digitsValue 0 digits then .error (-erange)
  else if digits = [] then .error (-einval)
  else if rest = [] ∨ rest = [newline] then .ok (digitsValue 0 digits)
  else .error (-einval)

def kstrtoll : List UInt8 → Except Int Int
  | [] => .error (-einval)
  | b :: rest =>
      if b = minus then do
        let magnitude ← parseInteger rest
        if 2 ^ 63 < magnitude then .error (-erange) else .ok (-magnitude)
      else do
        let magnitude ← parseInteger (if b = plus then rest else b :: rest)
        if 2 ^ 63 ≤ magnitude then .error (-erange) else .ok magnitude

-- str is read up to its NUL.
def kstrtoint (str : List UInt8) : Except Int Int32 := do
  let value ← kstrtoll (UserCopy.cstr str)
  if (Int32.ofInt value).toInt = value then .ok (.ofInt value) else .error (-erange)

-- Digits alone, or with the newline that echo puts after them.
def Unsigned (str : List UInt8) (n : Nat) : Prop :=
  ∃ digits rest, Digits digits ∧ digits ≠ [] ∧ digitsValue 0 digits = n ∧ (rest = [] ∨ rest = [newline]) ∧ str = digits ++ rest

inductive Spells : List UInt8 → Int → Prop where
  | plain (str : List UInt8) (n : Nat) (number : Unsigned str n) : Spells str n
  | positive (str : List UInt8) (n : Nat) (number : Unsigned str n) : Spells (plus :: str) n
  | negative (str : List UInt8) (n : Nat) (number : Unsigned str n) : Spells (minus :: str) (-n)

theorem parse_integer_ok_iff (str : List UInt8) (n : Nat) : parseInteger str = .ok n ↔ Unsigned str n ∧ n < 2 ^ 64 := by
  constructor
  · intro parsed
    unfold parseInteger at parsed
    by_cases large : 2 ^ 64 ≤ digitsValue 0 (str.takeWhile isdigit)
    · simp only [if_pos large, reduceCtorEq] at parsed
    · simp only [if_neg large] at parsed
      by_cases none_there : str.takeWhile isdigit = []
      · simp only [if_pos none_there, reduceCtorEq] at parsed
      · by_cases ends : str.dropWhile isdigit = [] ∨ str.dropWhile isdigit = [newline]
        · simp only [if_neg none_there, if_pos ends, Except.ok.injEq] at parsed
          exact ⟨⟨_, _, fun b member => List.mem_takeWhile_imp member, none_there, parsed, ends,
            List.takeWhile_append_dropWhile.symm⟩, parsed ▸ Nat.lt_of_not_le large⟩
        · simp only [if_neg none_there, if_neg ends, reduceCtorEq] at parsed
  · rintro ⟨⟨digits, rest, run, some_digit, rfl, ends, rfl⟩, small⟩
    have stop : ∀ b, rest.head? = some b → isdigit b = false := by
      intro b first
      rcases ends with rfl | rfl
      · cases first
      · obtain rfl := Option.some.inj first
        rfl
    obtain ⟨taken, left⟩ := digits_split digits rest run stop
    simp only [parseInteger, taken, left, if_neg (Nat.not_le.mpr small), if_neg some_digit, if_pos ends]

theorem unsigned_begins (str : List UInt8) (n : Nat) (number : Unsigned str n) :
    ∃ b rest, str = b :: rest ∧ b ≠ minus ∧ b ≠ plus := by
  obtain ⟨digits, ending, run, some_digit, -, -, rfl⟩ := number
  obtain ⟨b, rest, rfl⟩ := List.exists_cons_of_ne_nil some_digit
  have digit : isdigit b = true := run b List.mem_cons_self
  exact ⟨b, rest ++ ending, rfl, by grind [isdigit, minus], by grind [isdigit, plus]⟩

theorem spells_minus_iff (rest : List UInt8) (z : Int) : Spells (minus :: rest) z ↔ ∃ n : Nat, Unsigned rest n ∧ z = -n := by
  constructor
  · intro spelt
    cases spelt with
    | plain _ n number =>
        obtain ⟨_, _, same, other, -⟩ := unsigned_begins _ n number
        exact absurd (List.cons.inj same).1.symm other
    | negative _ n number => exact ⟨n, number, rfl⟩
  · rintro ⟨n, number, rfl⟩
    exact .negative rest n number

theorem spells_other_iff (b : UInt8) (rest : List UInt8) (other : b ≠ minus) (z : Int) :
    Spells (b :: rest) z ↔ ∃ n : Nat, Unsigned (if b = plus then rest else b :: rest) n ∧ z = n := by
  constructor
  · intro spelt
    cases spelt with
    | plain _ n number =>
        obtain ⟨_, _, same, -, unsigned⟩ := unsigned_begins _ n number
        obtain ⟨rfl, rfl⟩ := List.cons.inj same
        exact ⟨n, by rwa [if_neg unsigned], rfl⟩
    | positive _ n number => exact ⟨n, by rwa [if_pos rfl], rfl⟩
    | negative _ n number => exact absurd rfl other
  · rintro ⟨n, number, rfl⟩
    by_cases sign : b = plus
    · rw [if_pos sign] at number
      exact sign ▸ .positive rest n number
    · rw [if_neg sign] at number
      exact .plain _ n number

theorem kstrtoll_ok_iff (str : List UInt8) (z : Int) : kstrtoll str = .ok z ↔ Spells str z ∧ -2 ^ 63 ≤ z ∧ z < 2 ^ 63 := by
  cases str with
  | nil =>
      constructor
      · intro parsed
        cases parsed
      · rintro ⟨spelt, -⟩
        cases spelt with
        | plain _ n number =>
            obtain ⟨_, _, same, -⟩ := unsigned_begins _ n number
            cases same
  | cons b rest =>
      by_cases below : b = minus
      · subst below
        rw [kstrtoll, if_pos rfl, except_bind_ok, spells_minus_iff]
        constructor
        · rintro ⟨n, read, fits⟩
          by_cases large : 2 ^ 63 < n
          · simp only [if_pos large, reduceCtorEq] at fits
          · simp only [if_neg large, Except.ok.injEq] at fits
            exact ⟨⟨n, ((parse_integer_ok_iff rest n).mp read).1, fits.symm⟩, by omega, by omega⟩
        · rintro ⟨⟨n, number, rfl⟩, low, -⟩
          exact ⟨n, (parse_integer_ok_iff rest n).mpr ⟨number, by omega⟩, if_neg (by omega)⟩
      · rw [kstrtoll, if_neg below, except_bind_ok, spells_other_iff b rest below]
        constructor
        · rintro ⟨n, read, fits⟩
          by_cases large : 2 ^ 63 ≤ n
          · simp only [if_pos large, reduceCtorEq] at fits
          · simp only [if_neg large, Except.ok.injEq] at fits
            exact ⟨⟨n, ((parse_integer_ok_iff _ n).mp read).1, fits.symm⟩, by omega, by omega⟩
        · rintro ⟨⟨n, number, rfl⟩, -, high⟩
          exact ⟨n, (parse_integer_ok_iff _ n).mpr ⟨number, by omega⟩, if_neg (by omega)⟩

-- What is accepted is exactly the spelling of a number that an int can hold.
theorem kstrtoint_ok_iff (str : List UInt8) (v : Int32) : kstrtoint str = .ok v ↔ Spells (UserCopy.cstr str) v.toInt := by
  rw [kstrtoint, except_bind_ok]
  constructor
  · rintro ⟨z, read, fits⟩
    by_cases same : (Int32.ofInt z).toInt = z
    · simp only [if_pos same, Except.ok.injEq] at fits
      rw [← fits, same]
      exact ((kstrtoll_ok_iff _ z).mp read).1
    · simp only [if_neg same, reduceCtorEq] at fits
  · intro spelt
    have low := v.le_toInt
    have high := v.toInt_lt
    refine ⟨v.toInt, (kstrtoll_ok_iff _ _).mpr ⟨spelt, by omega, by omega⟩, ?_⟩
    rw [Int32.ofInt_toInt, if_pos rfl]

theorem parse_integer_codes (str : List UInt8) (code : Int) (refused : parseInteger str = .error code) :
    code = -einval ∨ code = -erange := by
  simp only [parseInteger] at refused
  split at refused
  · exact .inr (Except.error.inj refused).symm
  · split at refused
    · exact .inl (Except.error.inj refused).symm
    · split at refused
      · cases refused
      · exact .inl (Except.error.inj refused).symm

theorem kstrtoll_codes (str : List UInt8) (code : Int) (refused : kstrtoll str = .error code) :
    code = -einval ∨ code = -erange := by
  have converted : ∀ (rest : List UInt8) (large : Nat → Prop) [DecidablePred large] (value : Nat → Int),
      (do let magnitude ← parseInteger rest
          if large magnitude then .error (-erange) else .ok (value magnitude)) = (.error code : Except Int Int) →
      code = -einval ∨ code = -erange := by
    intro rest large _ value refused
    rcases (except_bind_error _ _ _).mp refused with unread | ⟨magnitude, -, outside⟩
    · exact parse_integer_codes rest code unread
    · split at outside
      · exact .inr (Except.error.inj outside).symm
      · cases outside
  cases str with
  | nil => exact .inl (Except.error.inj refused).symm
  | cons b rest =>
      by_cases below : b = minus
      · rw [kstrtoll, if_pos below] at refused
        exact converted rest _ _ refused
      · rw [kstrtoll, if_neg below] at refused
        exact converted _ _ _ refused

theorem kstrtoint_codes (str : List UInt8) (code : Int) (refused : kstrtoint str = .error code) :
    code = -einval ∨ code = -erange := by
  rcases (except_bind_error _ _ _).mp refused with unread | ⟨value, -, outside⟩
  · exact kstrtoll_codes _ code unread
  · split at outside
    · cases outside
    · exact .inr (Except.error.inj outside).symm

theorem unsigned_decimal (n : Nat) : Unsigned (decimal n ++ [newline]) n :=
  ⟨decimal n, [newline], decimal_digits n, decimal_some n, decimal_value n, .inr rfl, rfl⟩

-- A number as %d prints it on a line of its own is read back.
theorem signed_line_spells (z : Int) : Spells (signed z ++ [newline]) z := by
  cases z with
  | ofNat n => exact .plain _ n (unsigned_decimal n)
  | negSucc n => exact .negative _ (n + 1) (unsigned_decimal (n + 1))

end LinuxModule.Kstrto
