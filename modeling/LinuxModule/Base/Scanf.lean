import LinuxModule.Base.Walk
import Mathlib.Data.List.Basic

set_option autoImplicit false

namespace LinuxModule.Scanf

-- A cursor is the rest of the bytes that may be read; reading on past them is a fault.
inductive Fault where
  | beyond
deriving DecidableEq, Repr

def newline : UInt8 := 10
def nul : UInt8 := 0

def isspace (b : UInt8) : Bool := b = 32 || (9 ≤ b && b ≤ 13) || b = 160

def isdigit (b : UInt8) : Bool := 48 ≤ b && b ≤ 57

def skipWhile (p : UInt8 → Bool) : List UInt8 → Except Fault (List UInt8)
  | [] => .error .beyond
  | b :: rest => if p b then skipWhile p rest else .ok (b :: rest)

def withDigit (value : UInt64) (b : UInt8) : UInt64 := value * 10 + (b - 48).toUInt64

-- simple_strtoull in base 10.
def number (value : UInt64) : List UInt8 → Except Fault (UInt64 × List UInt8)
  | [] => .error .beyond
  | b :: rest => if isdigit b then number (withDigit value b) rest else .ok (value, b :: rest)

-- What a format is made of: a character, white space, a suppressed conversion (%*d,
-- which skips to the next white space), and %lu.
inductive Directive where
  | literal (b : UInt8)
  | space
  | suppressed
  | unsigned
deriving DecidableEq, Repr

-- The kernel's sscanf: the numbers it converts before the first mismatch.
def sscanf : List Directive → List UInt8 → Except Fault (List UInt64)
  | [], _ => .ok []
  | .literal c :: format, str =>
      match str with
      | [] => .error .beyond
      | b :: rest => if c = b then sscanf format rest else .ok []
  | .space :: format, str => do
      let str ← skipWhile isspace str
      sscanf format str
  | .suppressed :: format, str =>
      match str with
      | [] => .error .beyond
      | b :: _ =>
          if b = nul then .ok []
          else do
            let str ← skipWhile (fun b => !isspace b && b ≠ nul) str
            sscanf format str
  | .unsigned :: format, str =>
      match str with
      | [] => .error .beyond
      | b :: _ =>
          if b = nul then .ok []
          else do
            let str ← skipWhile isspace str
            match str with
            | [] => .error .beyond
            | b :: _ =>
                if isdigit b then do
                  let (value, str) ← number 0 str
                  let values ← sscanf format str
                  .ok (value :: values)
                else .ok []

section Equations

variable (format : List Directive) (b : UInt8) (rest : List UInt8)

theorem sscanf_literal (c : UInt8) :
    sscanf (.literal c :: format) (b :: rest) = if c = b then sscanf format rest else .ok [] := rfl

theorem sscanf_space (str : List UInt8) :
    sscanf (.space :: format) str = skipWhile isspace str >>= sscanf format := rfl

theorem sscanf_suppressed :
    sscanf (.suppressed :: format) (b :: rest) =
      if b = nul then .ok []
      else skipWhile (fun b => !isspace b && b ≠ nul) (b :: rest) >>= sscanf format := rfl

theorem sscanf_unsigned :
    sscanf (.unsigned :: format) (b :: rest) =
      if b = nul then .ok []
      else (do
        let str ← skipWhile isspace (b :: rest)
        match str with
        | [] => .error .beyond
        | b :: _ =>
            if isdigit b then do
              let (value, str) ← number 0 str
              let values ← sscanf format str
              .ok (value :: values)
            else .ok []) := rfl

end Equations

section Skipping

variable (p : UInt8 → Bool)

theorem skip_while_all (bytes : List UInt8) (all : ∀ b ∈ bytes, p b = true) : skipWhile p bytes = .error .beyond := by
  induction bytes with
  | nil => rfl
  | cons b rest ih =>
      obtain ⟨here, later⟩ := List.forall_mem_cons.mp all
      rw [skipWhile, if_pos here, ih later]

theorem skip_while_stops (skipped : List UInt8) (b : UInt8) (rest : List UInt8) (all : ∀ b ∈ skipped, p b = true)
    (stop : p b = false) : skipWhile p (skipped ++ b :: rest) = .ok (b :: rest) := by
  induction skipped with
  | nil => simp [skipWhile, stop]
  | cons first more ih =>
      obtain ⟨here, later⟩ := List.forall_mem_cons.mp all
      rw [List.cons_append, skipWhile, if_pos here, ih later]

theorem skip_while_splits (bytes : List UInt8) : (∀ b ∈ bytes, p b = true) ∨
    ∃ skipped b rest, bytes = skipped ++ b :: rest ∧ (∀ b ∈ skipped, p b = true) ∧ p b = false := by
  induction bytes with
  | nil => exact .inl (by simp)
  | cons b rest ih =>
      by_cases here : p b = true
      · rcases ih with all | ⟨skipped, stop, after, rfl, all, stops⟩
        · exact .inl (List.forall_mem_cons.mpr ⟨here, all⟩)
        · exact .inr ⟨b :: skipped, stop, after, rfl, List.forall_mem_cons.mpr ⟨here, all⟩, stops⟩
      · exact .inr ⟨[], b, rest, rfl, by simp, by simpa using here⟩

theorem skip_while_unique (skipped other : List UInt8) (b c : UInt8) (rest after : List UInt8)
    (same : skipped ++ b :: rest = other ++ c :: after) (all : ∀ b ∈ skipped, p b = true) (stop : p b = false)
    (allOther : ∀ b ∈ other, p b = true) (stopOther : p c = false) : skipped = other ∧ b = c ∧ rest = after := by
  have here := skip_while_stops p skipped b rest all stop
  rw [same, skip_while_stops p other c after allOther stopOther] at here
  obtain ⟨rfl, rfl⟩ := List.cons.inj (Except.ok.inj here)
  exact ⟨List.append_cancel_right same, rfl, rfl⟩

end Skipping

def Blank (bytes : List UInt8) : Prop := ∀ b ∈ bytes, isspace b = true

def Word (bytes : List UInt8) : Prop := ∀ b ∈ bytes, (!isspace b && b ≠ nul) = true

def Digits (bytes : List UInt8) : Prop := ∀ b ∈ bytes, isdigit b = true

instance (bytes : List UInt8) : Decidable (Blank bytes) := inferInstanceAs (Decidable (∀ b ∈ bytes, _))

theorem digit_is_dark (b : UInt8) (digit : isdigit b = true) : isspace b = false ∧ b ≠ nul := by
  grind [isdigit, isspace, nul]

theorem blank_is_not_nul (b : UInt8) (blank : isspace b = true) : b ≠ nul ∧ isdigit b = false := by
  grind [isdigit, isspace, nul]

theorem number_all (bytes : List UInt8) (value : UInt64) (digits : Digits bytes) : number value bytes = .error .beyond := by
  induction bytes generalizing value with
  | nil => rfl
  | cons b rest ih =>
      obtain ⟨here, later⟩ := List.forall_mem_cons.mp digits
      rw [number, if_pos here, ih _ later]

theorem number_stops (bytes : List UInt8) (value : UInt64) (b : UInt8) (rest : List UInt8) (digits : Digits bytes)
    (stop : isdigit b = false) : number value (bytes ++ b :: rest) = .ok (bytes.foldl withDigit value, b :: rest) := by
  induction bytes generalizing value with
  | nil => simp [number, stop]
  | cons first more ih =>
      obtain ⟨here, later⟩ := List.forall_mem_cons.mp digits
      rw [List.cons_append, number, if_pos here, ih _ later, List.foldl_cons]

theorem scan_literals (word : List UInt8) (format : List Directive) (rest : List UInt8) :
    sscanf (word.map .literal ++ format) (word ++ rest) = sscanf format rest := by
  induction word with
  | nil => rfl
  | cons b more ih => simp only [List.map_cons, List.cons_append, sscanf_literal, if_true, ih]

theorem scan_literals_cut (word str : List UInt8) (format : List Directive) (start : str <+: word) (short : str ≠ word) :
    sscanf (word.map .literal ++ format) str = .error .beyond := by
  induction word generalizing str with
  | nil => exact absurd (List.prefix_nil.mp start) short
  | cons b more ih =>
      cases str with
      | nil => rfl
      | cons first rest =>
          obtain ⟨same, later⟩ := List.cons_prefix_cons.mp start
          subst same
          simp only [List.map_cons, List.cons_append, sscanf_literal, if_true]
          exact ih rest later fun whole => short (by rw [whole])

theorem literals_cases (word str : List UInt8) (format : List Directive) : (∃ rest, str = word ++ rest) ∨
    str <+: word ∨ sscanf (word.map .literal ++ format) str = .ok [] := by
  induction word generalizing str with
  | nil => exact .inl ⟨str, rfl⟩
  | cons b more ih =>
      cases str with
      | nil => exact .inr (.inl List.nil_prefix)
      | cons first rest =>
          by_cases same : b = first
          · subst same
            rcases ih rest with ⟨after, rfl⟩ | start | mismatch
            · exact .inl ⟨after, rfl⟩
            · exact .inr (.inl (List.cons_prefix_cons.mpr ⟨rfl, start⟩))
            · refine .inr (.inr ?_)
              simp only [List.map_cons, List.cons_append, sscanf_literal, if_true, mismatch]
          · refine .inr (.inr ?_)
            simp only [List.map_cons, List.cons_append, sscanf_literal, if_neg same]

theorem skip_while_more (p : UInt8 → Bool) (str rest more : List UInt8) (done : skipWhile p str = .ok rest) :
    skipWhile p (str ++ more) = .ok (rest ++ more) := by
  rcases skip_while_splits p str with all | ⟨skipped, b, after, rfl, all, stop⟩
  · rw [skip_while_all p str all] at done
    cases done
  · rw [skip_while_stops p skipped b after all stop] at done
    cases done
    rw [List.append_assoc, List.cons_append, skip_while_stops p skipped b (after ++ more) all stop]

theorem number_more (start value : UInt64) (str rest more : List UInt8) (done : number start str = .ok (value, rest)) :
    number start (str ++ more) = .ok (value, rest ++ more) := by
  rcases skip_while_splits isdigit str with all | ⟨digits, b, after, rfl, run, stop⟩
  · rw [number_all str start all] at done
    cases done
  · rw [number_stops digits start b after run stop] at done
    cases done
    rw [List.append_assoc, List.cons_append, number_stops digits start b (after ++ more) run stop]

-- A scan that ends among some bytes is not changed by those that come after them.
theorem sscanf_more (format : List Directive) (str more : List UInt8) (values : List UInt64)
    (done : sscanf format str = .ok values) : sscanf format (str ++ more) = .ok values := by
  induction format generalizing str values with
  | nil => exact done
  | cons directive format ih =>
      cases directive with
      | literal c =>
          cases str with
          | nil => cases done
          | cons b rest =>
              rw [List.cons_append]
              by_cases same : c = b
              · simp only [sscanf_literal, if_pos same] at done ⊢
                exact ih rest values done
              · simpa only [sscanf_literal, if_neg same] using done
      | space =>
          obtain ⟨rest, skipped, done⟩ := (except_bind_ok _ _ _).mp done
          rw [sscanf_space, skip_while_more isspace str rest more skipped]
          exact ih rest values done
      | suppressed =>
          cases str with
          | nil => cases done
          | cons b rest =>
              by_cases ended : b = nul
              · simpa only [List.cons_append, sscanf_suppressed, if_pos ended] using done
              · simp only [sscanf_suppressed, if_neg ended] at done
                obtain ⟨after, skipped, done⟩ := (except_bind_ok _ _ _).mp done
                have again := skip_while_more _ _ after more skipped
                rw [List.cons_append] at again ⊢
                simp only [sscanf_suppressed, if_neg ended, again]
                exact ih after values done
      | unsigned =>
          cases str with
          | nil => cases done
          | cons b rest =>
              by_cases ended : b = nul
              · simpa only [List.cons_append, sscanf_unsigned, if_pos ended] using done
              · simp only [sscanf_unsigned, if_neg ended] at done
                obtain ⟨after, skipped, done⟩ := (except_bind_ok _ _ _).mp done
                have again := skip_while_more isspace _ after more skipped
                rw [List.cons_append] at again ⊢
                simp only [sscanf_unsigned, if_neg ended, again, except_ok_bind]
                cases after with
                | nil => cases done
                | cons first others =>
                    by_cases digit : isdigit first = true
                    · simp only [if_pos digit] at done
                      obtain ⟨⟨value, last⟩, converted, done⟩ := (except_bind_ok _ _ _).mp done
                      obtain ⟨later, scanned, same⟩ := (except_bind_ok _ _ _).mp done
                      have value_again := number_more 0 value _ last more converted
                      rw [List.cons_append] at value_again ⊢
                      simp only [if_pos digit, value_again, except_ok_bind, ih last later scanned]
                      exact same
                    · simpa only [List.cons_append, if_neg digit] using done

def numbers : Nat → List Directive
  | 0 => []
  | count + 1 => .space :: .unsigned :: numbers count

theorem scan_blank (format : List Directive) (str : List UInt8) (blank : Blank str) :
    sscanf (.space :: format) str = .error .beyond := by
  rw [sscanf_space, skip_while_all isspace str blank]
  rfl

theorem scan_gap (format : List Directive) (gap : List UInt8) (b : UInt8) (rest : List UInt8) (blank : Blank gap)
    (dark : isspace b = false) :
    sscanf (.space :: .unsigned :: format) (gap ++ b :: rest) = sscanf (.unsigned :: format) (b :: rest) := by
  rw [sscanf_space, skip_while_stops isspace gap b rest blank dark]
  rfl

theorem scan_other (format : List Directive) (b : UInt8) (rest : List UInt8) (dark : isspace b = false)
    (other : isdigit b = false) : sscanf (.unsigned :: format) (b :: rest) = .ok [] := by
  by_cases ended : b = nul
  · simp only [sscanf_unsigned, if_pos ended]
  · have stops := skip_while_stops isspace [] b rest (by simp) dark
    rw [List.nil_append] at stops
    simp only [sscanf_unsigned, if_neg ended, stops, except_ok_bind, other, Bool.false_eq_true, if_false]

theorem scan_digit (format : List Directive) (b : UInt8) (rest : List UInt8) (digit : isdigit b = true) :
    sscanf (.unsigned :: format) (b :: rest) = (do
      let (value, str) ← number 0 (b :: rest)
      let values ← sscanf format str
      .ok (value :: values)) := by
  obtain ⟨dark, present⟩ := digit_is_dark b digit
  have stops := skip_while_stops isspace [] b rest (by simp) dark
  rw [List.nil_append] at stops
  simp only [sscanf_unsigned, if_neg present, stops, except_ok_bind, digit, if_true]

theorem scan_number (format : List Directive) (gap digits : List UInt8) (b : UInt8) (rest : List UInt8)
    (blank : Blank gap) (run : Digits digits) (some_digit : digits ≠ []) (stop : isdigit b = false) :
    sscanf (.space :: .unsigned :: format) (gap ++ (digits ++ b :: rest)) =
      (sscanf format (b :: rest)).map fun values => digits.foldl withDigit 0 :: values := by
  have value := number_stops digits 0 b rest run stop
  cases digits with
  | nil => exact absurd rfl some_digit
  | cons first more =>
      have digit := (List.forall_mem_cons.mp run).1
      rw [List.cons_append, scan_gap format gap first _ blank (digit_is_dark first digit).1, scan_digit format first _ digit,
        ← List.cons_append, value, except_ok_bind]
      cases scanned : sscanf format (b :: rest) with
      | error fault =>
          simp only [scanned]
          rfl
      | ok values =>
          simp only [scanned]
          rfl

theorem scan_number_cut (format : List Directive) (gap digits : List UInt8) (blank : Blank gap) (run : Digits digits)
    (some_digit : digits ≠ []) : sscanf (.space :: .unsigned :: format) (gap ++ digits) = .error .beyond := by
  have value := number_all digits 0 run
  cases digits with
  | nil => exact absurd rfl some_digit
  | cons first more =>
      have digit := (List.forall_mem_cons.mp run).1
      rw [scan_gap format gap first more blank (digit_is_dark first digit).1, scan_digit format first more digit, value]
      rfl

-- The texts on which a scan for numbers runs out of bytes, and those on which it reads them all.
inductive NumbersCut : Nat → List UInt8 → Prop where
  | blank (count : Nat) (gap : List UInt8) (blank : Blank gap) : NumbersCut (count + 1) gap
  | digits (count : Nat) (gap digits : List UInt8) (blank : Blank gap) (run : Digits digits) (some_digit : digits ≠ []) :
      NumbersCut (count + 1) (gap ++ digits)
  | more (count : Nat) (gap digits : List UInt8) (b : UInt8) (rest : List UInt8) (blank : Blank gap) (run : Digits digits)
      (some_digit : digits ≠ []) (stop : isdigit b = false) (later : NumbersCut count (b :: rest)) :
      NumbersCut (count + 1) (gap ++ (digits ++ b :: rest))

inductive NumbersRead : Nat → List UInt8 → List UInt64 → Prop where
  | done (b : UInt8) (rest : List UInt8) : NumbersRead 0 (b :: rest) []
  | more (count : Nat) (gap digits : List UInt8) (b : UInt8) (rest : List UInt8) (values : List UInt64) (blank : Blank gap)
      (run : Digits digits) (some_digit : digits ≠ []) (stop : isdigit b = false) (later : NumbersRead count (b :: rest) values) :
      NumbersRead (count + 1) (gap ++ (digits ++ b :: rest)) (digits.foldl withDigit 0 :: values)

theorem numbers_read_blank (count : Nat) (str : List UInt8) (values : List UInt64) (b : UInt8) (blank : isspace b = true)
    (read : NumbersRead (count + 1) str values) : NumbersRead (count + 1) (b :: str) values := by
  cases read with
  | more count gap digits stop rest values blanks run some_digit stops later =>
      exact .more count (b :: gap) digits stop rest values (List.forall_mem_cons.mpr ⟨blank, blanks⟩) run some_digit stops later

theorem numbers_cut_scan (count : Nat) (str : List UInt8) (cut : NumbersCut count str) :
    sscanf (numbers count) str = .error .beyond := by
  induction cut with
  | blank count gap blank => exact scan_blank _ gap blank
  | digits count gap digits blank run some_digit => exact scan_number_cut _ gap digits blank run some_digit
  | more count gap digits b rest blank run some_digit stop _ ih =>
      rw [numbers, scan_number _ gap digits b rest blank run some_digit stop, ih]
      rfl

theorem numbers_read_scan (count : Nat) (str : List UInt8) (values : List UInt64) (read : NumbersRead count str values) :
    sscanf (numbers count) str = .ok values ∧ values.length = count := by
  induction read with
  | done => exact ⟨rfl, rfl⟩
  | more count gap digits b rest values blank run some_digit stop _ ih =>
      rw [numbers, scan_number _ gap digits b rest blank run some_digit stop, ih.1]
      exact ⟨rfl, by rw [List.length_cons, ih.2]⟩

theorem numbers_cases (count : Nat) (b : UInt8) (rest : List UInt8) : NumbersCut count (b :: rest) ∨
    (∃ values, NumbersRead count (b :: rest) values) ∨
      ∃ values, sscanf (numbers count) (b :: rest) = .ok values ∧ values.length < count := by
  induction count generalizing b rest with
  | zero => exact .inr (.inl ⟨[], .done b rest⟩)
  | succ count ih =>
      rcases skip_while_splits isspace (b :: rest) with blank | ⟨gap, first, more, split, blank, dark⟩
      · exact .inl (.blank count _ blank)
      · rw [split]
        by_cases digit : isdigit first = true
        · rcases skip_while_splits isdigit (first :: more) with run | ⟨digits, stop, after, runs, run, stops⟩
          · exact .inl (.digits count gap _ blank run (by simp))
          · have some_digit : digits ≠ [] := by
              rintro rfl
              obtain ⟨rfl, rfl⟩ := List.cons.inj runs
              exact absurd digit (by simp [stops])
            rw [runs]
            rcases ih stop after with cut | ⟨values, read⟩ | ⟨values, scanned, few⟩
            · exact .inl (.more count gap digits stop after blank run some_digit stops cut)
            · exact .inr (.inl ⟨_, .more count gap digits stop after values blank run some_digit stops read⟩)
            · refine .inr (.inr ⟨digits.foldl withDigit 0 :: values, ?_, Nat.succ_lt_succ few⟩)
              rw [numbers, scan_number _ gap digits stop after blank run some_digit stops, scanned]
              rfl
        · refine .inr (.inr ⟨[], ?_, Nat.succ_pos count⟩)
          rw [numbers, scan_gap _ gap first more blank dark, scan_other _ first more dark (by simpa using digit)]

-- Some byte keeps such a text unfinished however often it follows.
theorem numbers_cut_fill (count : Nat) (str : List UInt8) (cut : NumbersCut count str) :
    ∃ filler : UInt8, ∀ times, NumbersCut count (str ++ List.replicate times filler) := by
  induction cut with
  | blank count gap blank =>
      refine ⟨32, fun times => .blank count _ fun b member => ?_⟩
      rcases List.mem_append.mp member with inside | filled
      · exact blank b inside
      · rw [List.eq_of_mem_replicate filled]
        decide +kernel
  | digits count gap digits blank run some_digit =>
      refine ⟨48, fun times => ?_⟩
      rw [List.append_assoc]
      refine .digits count gap _ blank (fun b member => ?_) (by simp [some_digit])
      rcases List.mem_append.mp member with inside | filled
      · exact run b inside
      · rw [List.eq_of_mem_replicate filled]
        decide +kernel
  | more count gap digits b rest blank run some_digit stop _ ih =>
      obtain ⟨filler, later⟩ := ih
      refine ⟨filler, fun times => ?_⟩
      rw [List.append_assoc, List.append_assoc, List.cons_append]
      exact .more count gap digits b _ blank run some_digit stop (later times)

-- A number as it is printed, and its value.
structure Numeral where
  digits : List (Fin 10)
  some_digit : digits ≠ []
deriving DecidableEq

namespace Numeral

def digitByte (d : Fin 10) : UInt8 := UInt8.ofNat (48 + d)

def bytes (n : Numeral) : List UInt8 := n.digits.map digitByte

def value (n : Numeral) : Nat := n.digits.foldl (fun (value : Nat) (d : Fin 10) => value * 10 + d.val) 0

theorem digit_byte (d : Fin 10) : isdigit (digitByte d) = true ∧ (digitByte d - 48).toUInt64 = .ofNat d.val := by
  revert d
  decide

theorem bytes_run (n : Numeral) : Digits n.bytes ∧ n.bytes ≠ [] := by
  constructor
  · intro b member
    obtain ⟨d, _, rfl⟩ := List.mem_map.mp member
    exact (digit_byte d).1
  · intro empty
    exact n.some_digit (List.map_eq_nil_iff.mp empty)

theorem bytes_value (n : Numeral) : n.bytes.foldl withDigit 0 = .ofNat n.value := by
  have general : ∀ (digits : List (Fin 10)) (start : Nat), (digits.map digitByte).foldl withDigit (.ofNat start) =
      .ofNat (digits.foldl (fun (value : Nat) (d : Fin 10) => value * 10 + d.val) start) := by
    intro digits
    induction digits with
    | nil => exact fun _ => rfl
    | cons d rest ih =>
        intro start
        rw [List.map_cons, List.foldl_cons, List.foldl_cons, ← ih, withDigit, (digit_byte d).2, UInt64.ofNat_add,
          UInt64.ofNat_mul]
        rfl
  exact general n.digits 0

end Numeral

def listed (numerals : List Numeral) : List UInt8 := numerals.flatMap fun n => 32 :: n.bytes

theorem listed_read (numerals : List Numeral) (b : UInt8) (rest : List UInt8) (stop : isdigit b = false) :
    NumbersRead numerals.length (listed numerals ++ b :: rest) (numerals.map fun n => .ofNat n.value) := by
  have blank : Blank [32] := by decide +kernel
  induction numerals with
  | nil => exact .done b rest
  | cons n more ih =>
      obtain ⟨run, some_digit⟩ := n.bytes_run
      have text : listed (n :: more) ++ b :: rest = [32] ++ (n.bytes ++ (listed more ++ b :: rest)) := by simp [listed]
      rw [text, List.map_cons, ← n.bytes_value]
      cases more with
      | nil => exact .more 0 [32] n.bytes b rest [] blank run some_digit stop ih
      | cons next others =>
          have begins : ∃ tail, listed (next :: others) ++ b :: rest = 32 :: tail := ⟨_, rfl⟩
          obtain ⟨tail, begins⟩ := begins
          rw [begins] at ih ⊢
          exact .more _ [32] n.bytes 32 tail _ blank run some_digit (by decide) ih

theorem listed_cut (numerals : List Numeral) (some_numeral : numerals ≠ []) (count : Nat)
    (within : count ≤ (listed numerals).length) : NumbersCut numerals.length ((listed numerals).take count) := by
  have blank : Blank [32] := by decide +kernel
  induction numerals generalizing count with
  | nil => exact absurd rfl some_numeral
  | cons n more ih =>
      obtain ⟨run, some_digit⟩ := n.bytes_run
      have text : listed (n :: more) = 32 :: (n.bytes ++ listed more) := by simp [listed]
      rw [text] at within ⊢
      cases count with
      | zero => exact .blank _ [] (by decide +kernel)
      | succ count =>
          rw [List.take_succ_cons]
          by_cases inside : count ≤ n.bytes.length
          · rw [List.take_append_of_le_length inside]
            cases count with
            | zero => exact .blank _ [32] blank
            | succ count =>
                have digits : Digits (n.bytes.take (count + 1)) := fun b member => run b (List.mem_of_mem_take member)
                refine .digits _ [32] _ blank digits ?_
                simp [some_digit]
          · obtain ⟨after, rfl⟩ := Nat.exists_eq_add_of_lt (Nat.lt_of_not_le inside)
            have split : (n.bytes ++ listed more).take (n.bytes.length + after + 1) =
                n.bytes ++ (listed more).take (after + 1) := by
              rw [Nat.add_assoc, List.take_length_add_append]
            rw [split]
            cases more with
            | nil =>
                simp only [listed, List.flatMap_nil, List.append_nil, List.length_cons] at within
                omega
            | cons next others =>
                have later := ih (by simp) (after + 1) (by simp at within; omega)
                have begins : ∃ tail, (listed (next :: others)).take (after + 1) = 32 :: tail := ⟨_, rfl⟩
                obtain ⟨tail, begins⟩ := begins
                rw [begins] at later ⊢
                exact .more _ [32] n.bytes 32 tail blank run some_digit (by decide) later

end LinuxModule.Scanf
