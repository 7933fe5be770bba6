import LinuxModule.Base.CInt
import LinuxModule.Base.Decimal
import LinuxModule.Base.UserCopy

set_option autoImplicit false

namespace LinuxModule.Stdio

open Decimal
open Scanf (isdigit Digits newline)

-- isspace in the C locale. A C string is the bytes before its NUL.
def isspace (b : UInt8) : Bool := b = 32 || (9 ≤ b && b ≤ 13)

def sign : List UInt8 → Bool × List UInt8
  | [] => (false, [])
  | b :: rest => if b = minus then (true, rest) else if b = plus then (false, rest) else (false, b :: rest)

-- White space, a sign and digits: whether it is negative, its magnitude, and what follows.
def integer (str : List UInt8) : Option (Bool × Nat × List UInt8) :=
  let (negative, str) := sign (str.dropWhile isspace)
  match str.takeWhile isdigit with
  | [] => none
  | digits => some (negative, digitsValue 0 digits, str.dropWhile isdigit)

def strtoul (negative : Bool) (magnitude : Nat) : UInt64 :=
  if magnitude < 2 ^ 64 then (if negative then -.ofNat magnitude else .ofNat magnitude) else .ofNat (2 ^ 64 - 1)

def strtol (negative : Bool) (magnitude : Nat) : Int :=
  if negative then max (-2 ^ 63) (-(magnitude : Int)) else min (2 ^ 63 - 1) (magnitude : Int)

def atoi (str : List UInt8) : Int :=
  match integer str with
  | none => 0
  | some (negative, magnitude, _) => cInt (strtol negative magnitude)

-- A directive of a format, with what it does to the variables the caller points it at.
inductive Directive (σ : Type) where
  | space
  | literal (b : UInt8)
  | char (store : UInt8 → σ → σ)
  | skipInt
  | unsigned (store : UInt64 → σ → σ)
  | long (store : Int → σ → σ)

-- sscanf: the assignments before the first mismatch or the end of the string stand.
def sscanf {σ : Type} : List (Directive σ) → List UInt8 → σ → σ
  | [], _, s => s
  | .space :: format, str, s => sscanf format (str.dropWhile isspace) s
  | .literal _ :: _, [], s => s
  | .literal c :: format, b :: rest, s => if b = c then sscanf format rest s else s
  | .char _ :: _, [], s => s
  | .char store :: format, b :: rest, s => sscanf format rest (store b s)
  | .skipInt :: format, str, s =>
      match integer str with
      | none => s
      | some (_, _, rest) => sscanf format rest s
  | .unsigned store :: format, str, s =>
      match integer str with
      | none => s
      | some (negative, magnitude, rest) => sscanf format rest (store (strtoul negative magnitude) s)
  | .long store :: format, str, s =>
      match integer str with
      | none => s
      | some (negative, magnitude, rest) => sscanf format rest (store (strtol negative magnitude) s)

-- What fgets puts into a buffer of `size` bytes, call by call until it returns NULL: up to
-- a newline, or as much as fits. `line` is what the call under way has read.
def fgetsAll (size : Nat) (line : List UInt8) : List UInt8 → List (List UInt8)
  | [] => if line = [] then [] else [line]
  | b :: rest =>
      if b = newline ∨ line.length + 2 = size then (line ++ [b]) :: fgetsAll size [] rest
      else fgetsAll size (line ++ [b]) rest

def fgets (size : Nat) (text : List UInt8) : Option (List UInt8) := (fgetsAll size [] text).head?

def strchr (str : List UInt8) (c : UInt8) : Option Nat := str.findIdx? fun b => b == c

def strrchr (str : List UInt8) (c : UInt8) : Option Nat :=
  (str.reverse.findIdx? fun b => b == c).map fun k => str.length - 1 - k

def Stops (rest : List UInt8) : Prop := ∀ b, rest.head? = some b → isdigit b = false

theorem decimal_begins (n : Nat) : ∃ b rest, decimal n = b :: rest ∧ isdigit b = true := by
  cases text : decimal n with
  | nil => exact absurd text (decimal_some n)
  | cons b rest =>
      have digits := decimal_digits n
      rw [text] at digits
      exact ⟨b, rest, rfl, digits b List.mem_cons_self⟩

theorem digit_is_no_space (b : UInt8) (digit : isdigit b = true) : isspace b = false ∧ b ≠ minus ∧ b ≠ plus := by
  grind [isdigit, isspace, minus, plus]

theorem integer_digits (n : Nat) (rest : List UInt8) (stops : Stops rest) (negative : Bool) :
    (match (decimal n ++ rest).takeWhile isdigit with
      | [] => none
      | digits => some (negative, digitsValue 0 digits, (decimal n ++ rest).dropWhile isdigit)) =
      some (negative, n, rest) := by
  obtain ⟨whole, after⟩ := digits_split (decimal n) rest (decimal_digits n) stops
  rw [whole, after]
  cases text : decimal n with
  | nil => exact absurd text (decimal_some n)
  | cons b more => simp only [← text, decimal_value]

theorem integer_decimal (n : Nat) (rest : List UInt8) (stops : Stops rest) :
    integer (decimal n ++ rest) = some (false, n, rest) := by
  obtain ⟨b, more, text, digit⟩ := decimal_begins n
  obtain ⟨dark, unsigned, positive⟩ := digit_is_no_space b digit
  have kept : (decimal n ++ rest).dropWhile isspace = decimal n ++ rest := by
    rw [text, List.cons_append, List.dropWhile_cons_of_neg (by simp [dark])]
  have plain : sign (decimal n ++ rest) = (false, decimal n ++ rest) := by
    rw [text, List.cons_append, sign, if_neg unsigned, if_neg positive]
  rw [integer, kept, plain]
  exact integer_digits n rest stops false

theorem integer_signed (z : Int) (rest : List UInt8) (stops : Stops rest) :
    integer (signed z ++ rest) = some (decide (z < 0), z.natAbs, rest) := by
  cases z with
  | ofNat n =>
      have positive : ¬ Int.ofNat n < 0 := Int.not_lt.mpr (Int.natCast_nonneg n)
      rw [signed, integer_decimal n rest stops, decide_eq_false positive]
      rfl
  | negSucc n =>
      have plain : sign ((minus :: (decimal (n + 1) ++ rest)).dropWhile isspace) = (true, decimal (n + 1) ++ rest) := rfl
      rw [signed, List.cons_append, integer, plain, decide_eq_true (Int.negSucc_lt_zero n)]
      exact integer_digits (n + 1) rest stops true

theorem signed_begins (z : Int) : ∃ b rest, signed z = b :: rest ∧ isspace b = false := by
  cases z with
  | ofNat n =>
      obtain ⟨b, rest, text, digit⟩ := decimal_begins n
      exact ⟨b, rest, text, (digit_is_no_space b digit).1⟩
  | negSucc n => exact ⟨minus, decimal (n + 1), rfl, rfl⟩

section Scanning

variable {σ : Type} (format : List (Directive σ)) (s : σ)

theorem sscanf_nil (str : List UInt8) : sscanf [] str s = s := rfl

theorem sscanf_space (str : List UInt8) : sscanf (.space :: format) str s = sscanf format (str.dropWhile isspace) s := rfl

theorem sscanf_char (store : UInt8 → σ → σ) (b : UInt8) (rest : List UInt8) :
    sscanf (.char store :: format) (b :: rest) s = sscanf format rest (store b s) := rfl

theorem sscanf_skip (str : List UInt8) :
    sscanf (.skipInt :: format) str s =
      match integer str with
      | none => s
      | some (_, _, rest) => sscanf format rest s := rfl

theorem sscanf_unsigned (store : UInt64 → σ → σ) (str : List UInt8) :
    sscanf (.unsigned store :: format) str s =
      match integer str with
      | none => s
      | some (negative, magnitude, rest) => sscanf format rest (store (strtoul negative magnitude) s) := rfl

theorem sscanf_long (store : Int → σ → σ) (str : List UInt8) :
    sscanf (.long store :: format) str s =
      match integer str with
      | none => s
      | some (negative, magnitude, rest) => sscanf format rest (store (strtol negative magnitude) s) := rfl

theorem scan_space (b : UInt8) (rest : List UInt8) (dark : isspace b = false) :
    sscanf (.space :: format) (32 :: b :: rest) s = sscanf format (b :: rest) s := by
  have skipped : (32 :: b :: rest).dropWhile isspace = b :: rest := by
    rw [List.dropWhile_cons_of_pos (by decide), List.dropWhile_cons_of_neg (by simp [dark])]
  rw [sscanf_space, skipped]

theorem scan_before_number (z : Int) (rest : List UInt8) :
    sscanf (.space :: format) (32 :: (signed z ++ rest)) s = sscanf format (signed z ++ rest) s := by
  obtain ⟨b, more, text, dark⟩ := signed_begins z
  rw [text]
  exact scan_space format s b (more ++ rest) dark

theorem scan_skip (z : Int) (rest : List UInt8) (stops : Stops rest) :
    sscanf (.space :: .skipInt :: format) (32 :: (signed z ++ rest)) s = sscanf format rest s := by
  rw [scan_before_number, sscanf_skip, integer_signed z rest stops]

theorem scan_unsigned (store : UInt64 → σ → σ) (value : UInt64) (rest : List UInt8) (stops : Stops rest) :
    sscanf (.space :: .unsigned store :: format) (32 :: (decimal value.toNat ++ rest)) s =
      sscanf format rest (store value s) := by
  have number := integer_decimal value.toNat rest stops
  have fits : strtoul false value.toNat = value := by
    rw [strtoul, if_pos value.toNat_lt]
    simp
  have before := scan_before_number (.unsigned store :: format) s (.ofNat value.toNat) rest
  rw [signed] at before
  rw [before, sscanf_unsigned, number]
  simp only [fits]

theorem scan_long (store : Int → σ → σ) (z : Int) (low : -2 ^ 63 ≤ z) (high : z < 2 ^ 63) (rest : List UInt8)
    (stops : Stops rest) :
    sscanf (.space :: .long store :: format) (32 :: (signed z ++ rest)) s = sscanf format rest (store z s) := by
  have fits : strtol (decide (z < 0)) z.natAbs = z := by
    unfold strtol
    by_cases negative : z < 0
    · simp only [negative, decide_true, if_true]
      omega
    · simp only [negative, decide_false, Bool.false_eq_true, if_false]
      omega
  rw [scan_before_number, sscanf_long, integer_signed z rest stops]
  simp only [fits]

def skips (count : Nat) : List (Directive σ) := (List.replicate count [.space, .skipInt]).flatten

def spaced (numbers : List Int) : List UInt8 := numbers.flatMap fun z => 32 :: signed z

theorem stops_spaced (numbers : List Int) (rest : List UInt8) (stops : Stops rest) : Stops (spaced numbers ++ rest) := by
  cases numbers with
  | nil => exact stops
  | cons z more =>
      intro b first
      obtain rfl : 32 = b := by simpa [spaced] using first
      rfl

theorem scan_skips (numbers : List Int) (rest : List UInt8) (stops : Stops rest) :
    sscanf (skips numbers.length ++ format) (spaced numbers ++ rest) s = sscanf format rest s := by
  induction numbers with
  | nil => rfl
  | cons z more ih =>
      have text : spaced (z :: more) ++ rest = 32 :: (signed z ++ (spaced more ++ rest)) := by simp [spaced]
      have directives : skips (z :: more).length ++ format = .space :: .skipInt :: (skips more.length ++ format) := by
        simp [skips, List.replicate_succ]
      rw [text, directives, scan_skip _ s z _ (stops_spaced more rest stops), ih]

end Scanning

theorem fgets_all_begun (size : Nat) (line rest : List UInt8) (begun : line ≠ []) :
    ∃ more, (fgetsAll size line rest).head? = some (line ++ more) ∧ more <+: rest := by
  induction rest generalizing line with
  | nil => exact ⟨[], by simp [fgetsAll, begun], List.nil_prefix⟩
  | cons b rest ih =>
      by_cases ends : b = newline ∨ line.length + 2 = size
      · exact ⟨[b], by simp [fgetsAll, ends], by simp⟩
      · obtain ⟨more, first, before⟩ := ih (line ++ [b]) (by simp)
        refine ⟨b :: more, ?_, List.cons_prefix_cons.mpr ⟨rfl, before⟩⟩
        rw [fgetsAll, if_neg ends, first, List.append_assoc, List.singleton_append]

-- The bytes in front of any newline are in the buffer as far as it reaches.
theorem fgets_prefix (size : Nat) (text rest : List UInt8) (free : newline ∉ text) (some_text : text ≠ [])
    (fits : text.length < size) : ∃ more, fgets size (text ++ rest) = some (text ++ more) ∧ more <+: rest := by
  have general : ∀ (text line : List UInt8), newline ∉ text → line ++ text ≠ [] → line.length + text.length < size →
      ∃ more, (fgetsAll size line (text ++ rest)).head? = some (line ++ text ++ more) ∧ more <+: rest := by
    intro text
    induction text with
    | nil =>
        intro line _ begun _
        obtain ⟨more, first, before⟩ := fgets_all_begun size line rest (by simpa using begun)
        exact ⟨more, by simpa using first, before⟩
    | cons b more ih =>
        intro line free _ fits
        obtain ⟨other, later⟩ := not_or.mp (mt List.mem_cons.mpr free)
        simp only [List.length_cons] at fits
        by_cases full : line.length + 2 = size
        · obtain rfl : more = [] := List.length_eq_zero_iff.mp (by omega)
          exact ⟨[], by simp [fgetsAll, full], List.nil_prefix⟩
        · have goes_on : ¬ (b = newline ∨ line.length + 2 = size) := not_or.mpr ⟨Ne.symm other, full⟩
          obtain ⟨after, first, before⟩ := ih (line ++ [b]) later (by simp) (by simp; omega)
          refine ⟨after, ?_, before⟩
          rw [List.cons_append, fgetsAll, if_neg goes_on, first, List.append_assoc line, List.singleton_append]
  exact general text [] free some_text (by simpa using fits)

theorem strchr_first (before rest : List UInt8) (c : UInt8) (free : c ∉ before) :
    strchr (before ++ c :: rest) c = some before.length := by
  have none_before : before.findIdx? (fun b => b == c) = none := by
    rw [List.findIdx?_eq_none_iff]
    intro b inside
    simpa using fun same : b = c => free (same ▸ inside)
  rw [strchr, List.findIdx?_append, none_before, List.findIdx?_cons]
  simp

theorem strrchr_last (before rest : List UInt8) (c : UInt8) (free : c ∉ rest) :
    strrchr (before ++ c :: rest) c = some before.length := by
  have reversed : (before ++ c :: rest).reverse = rest.reverse ++ c :: before.reverse := by simp
  have first := strchr_first rest.reverse before.reverse c (by simpa using free)
  rw [strchr] at first
  rw [strrchr, reversed, first]
  simp

end LinuxModule.Stdio
