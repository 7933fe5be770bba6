import LinuxModule.Base.Walk
import Mathlib.Algebra.GroupWithZero.Nat
import Mathlib.Data.List.TakeWhile

set_option autoImplicit false

namespace LinuxModule.UserCopy

-- A byte is read that lies past the array.
inductive Fault where
  | beyond
deriving DecidableEq, Repr

def cstr (bytes : List UInt8) : List UInt8 := bytes.takeWhile (· ≠ 0)

-- What strlen and %s do: every byte up to the first NUL is read, and the NUL with them.
def scan : List UInt8 → Except Fault (List UInt8)
  | [] => .error .beyond
  | b :: rest => if b = 0 then .ok [] else (scan rest).map (b :: ·)

def strlen (bytes : List UInt8) : Except Fault Nat := (scan bytes).map List.length

theorem scan_terminated (text rest : List UInt8) : scan (text ++ 0 :: rest) = .ok (cstr text) := by
  induction text with
  | nil => rfl
  | cons b text ih =>
      by_cases ended : b = 0
      · simp [scan, cstr, ended]
      · rw [List.cons_append, scan, if_neg ended, ih, except_ok_map, cstr, cstr,
          List.takeWhile_cons_of_pos (by simpa using ended)]

theorem scan_open (bytes : List UInt8) (unended : 0 ∉ bytes) : scan bytes = .error .beyond := by
  induction bytes with
  | nil => rfl
  | cons b rest ih =>
      obtain ⟨here, later⟩ := not_or.mp (mt List.mem_cons.mpr unended)
      rw [scan, if_neg (Ne.symm here), ih later]
      rfl

theorem cstr_whole (text : List UInt8) (free : 0 ∉ text) : cstr text = text := by
  rw [cstr, List.takeWhile_eq_self_iff]
  intro b inside
  simpa using fun nul : b = 0 => free (nul ▸ inside)

theorem cstr_splits (bytes : List UInt8) (terminated : 0 ∈ bytes) : ∃ rest, bytes = cstr bytes ++ 0 :: rest := by
  induction bytes with
  | nil => cases terminated
  | cons b more ih =>
      by_cases ended : b = 0
      · exact ⟨more, by simp [cstr, ended]⟩
      · have later : 0 ∈ more := (List.mem_cons.mp terminated).resolve_left (Ne.symm ended)
        obtain ⟨rest, split⟩ := ih later
        refine ⟨rest, ?_⟩
        rw [cstr, List.takeWhile_cons_of_pos (by simpa using ended), List.cons_append]
        exact congrArg (b :: ·) split

theorem cstr_free (bytes : List UInt8) : 0 ∉ cstr bytes := by
  intro inside
  simpa using List.mem_takeWhile_imp inside

theorem scan_append (first rest : List UInt8) (terminated : 0 ∈ first) : scan (first ++ rest) = .ok (cstr first) := by
  obtain ⟨more, split⟩ := cstr_splits first terminated
  have whole : first ++ rest = cstr first ++ 0 :: (more ++ rest) := by
    rw [← List.cons_append, ← List.append_assoc, ← split]
  rw [whole, scan_terminated, cstr_whole (cstr first) (cstr_free first)]

theorem scan_ok (bytes text : List UInt8) (scanned : scan bytes = .ok text) :
    0 ∈ bytes ∧ text = cstr bytes ∧ ∃ rest, bytes = text ++ 0 :: rest := by
  by_cases terminated : 0 ∈ bytes
  · have same := scan_append bytes [] terminated
    rw [List.append_nil, scanned] at same
    obtain rfl : text = cstr bytes := Except.ok.inj same
    exact ⟨terminated, rfl, cstr_splits bytes terminated⟩
  · rw [scan_open bytes terminated] at scanned
    cases scanned

structure CharArray (n : Nat) where
  bytes : List UInt8
  size : bytes.length = n
deriving DecidableEq

namespace CharArray

variable {n : Nat}

def zeroed (n : Nat) : CharArray n := ⟨List.replicate n 0, List.length_replicate⟩

def set (a : CharArray n) (k : Nat) (b : UInt8) (_inside : k < n) : CharArray n :=
  ⟨a.bytes.set k b, (List.length_set ..).trans a.size⟩

-- copy_from_user that gets as far as `reach`: the rest of what was asked for is zeroed.
-- It returns the number of bytes it did not copy.
def copyFromUser (target : CharArray n) (user : List UInt8) (reach : Nat) (fits : user.length ≤ n) : Nat × CharArray n :=
  (user.length - reach,
    ⟨user.take reach ++ List.replicate (user.length - reach) 0 ++ target.bytes.drop user.length, by simp [target.size]; omega⟩)

theorem copy_bytes (target : CharArray n) (user : List UInt8) (reach : Nat) (fits : user.length ≤ n) :
    (target.copyFromUser user reach fits).2.bytes =
      user.take reach ++ (List.replicate (user.length - reach) 0 ++ target.bytes.drop user.length) :=
  List.append_assoc ..

theorem copy_stopped (target : CharArray n) (user : List UInt8) (reach : Nat) (fits : user.length ≤ n)
    (stopped : reach < user.length) : scan (target.copyFromUser user reach fits).2.bytes = .ok (cstr (user.take reach)) := by
  obtain ⟨left, more⟩ : ∃ left, user.length - reach = left + 1 := ⟨user.length - reach - 1, by omega⟩
  rw [copy_bytes, more, List.replicate_succ, List.cons_append, scan_terminated]

theorem copy_finished (target : CharArray n) (user : List UInt8) (reach : Nat) (inside : user.length < n)
    (reached : user.length ≤ reach) :
    scan ((target.copyFromUser user reach inside.le).2.set user.length 0 inside).bytes = .ok (cstr user) := by
  have more : user.length < target.bytes.length := by rw [target.size]; exact inside
  have written : (target.copyFromUser user reach inside.le).2.bytes.set user.length 0 =
      user ++ 0 :: target.bytes.drop (user.length + 1) := by
    rw [copy_bytes, Nat.sub_eq_zero_of_le reached, List.take_of_length_le reached, List.replicate_zero,
      List.nil_append, List.drop_eq_getElem_cons more, List.set_append_right _ _ le_rfl, Nat.sub_self, List.set_cons_zero]
  exact (congrArg scan written).trans (scan_terminated user _)

end CharArray

-- The bytes a write is handed, and how many of them can be copied before a fault.
structure UserData where
  bytes : List UInt8
  reach : Nat
deriving DecidableEq

def UserData.Whole (user : UserData) : Prop := user.bytes.length ≤ user.reach

instance (user : UserData) : Decidable user.Whole := inferInstanceAs (Decidable (_ ≤ _))

def copyToUser (bytes : List UInt8) (reach : Nat) : Nat × List UInt8 := (bytes.length - reach, bytes.take reach)

-- The bytes it delivers, and the position after them.
def simpleReadFromBuffer (count pos : Nat) (buffer : List UInt8) (available : Nat) : List UInt8 × Nat :=
  let out := (buffer.drop pos).take (min count (available - pos))
  (out, pos + out.length)

section Chunks

variable {α : Type}

def chunks (s : List α) : List Nat → List (List α)
  | [] => []
  | count :: counts => s.take count :: chunks (s.drop count) counts

theorem chunks_flatten (s : List α) (counts : List Nat) : (chunks s counts).flatten = s.take counts.sum := by
  induction counts generalizing s with
  | nil => rfl
  | cons count counts ih => rw [chunks, List.flatten_cons, ih, List.sum_cons, List.take_add]

-- An empty chunk is the end, where nothing is asked for in vain.
theorem chunks_empty_iff (s : List α) (counts : List Nat) (positive : ∀ count ∈ counts, 0 < count)
    (first : List (List α)) (chunk : List α) (rest : List (List α)) (split : chunks s counts = first ++ chunk :: rest) :
    chunk = [] ↔ first.flatten = s := by
  induction counts generalizing s first with
  | nil => simp [chunks] at split
  | cons count counts ih =>
      obtain ⟨asked, others⟩ := List.forall_mem_cons.mp positive
      cases first with
      | nil =>
          obtain ⟨rfl, -⟩ : s.take count = chunk ∧ chunks (s.drop count) counts = rest := by
            simpa [chunks] using split
          rw [List.take_eq_nil_iff, List.flatten_nil, eq_comm (a := [])]
          exact or_iff_right (Nat.ne_of_gt asked)
      | cons head first =>
          obtain ⟨rfl, later⟩ : s.take count = head ∧ chunks (s.drop count) counts = first ++ chunk :: rest := by
            simpa [chunks] using split
          rw [ih (s.drop count) others first later, List.flatten_cons]
          constructor
          · intro same
            rw [same, List.take_append_drop]
          · intro same
            exact List.append_cancel_left (same.trans (List.take_append_drop count s).symm)

end Chunks

theorem simple_read_text (text rest : List UInt8) (count pos : Nat) :
    simpleReadFromBuffer count pos (text ++ rest) text.length =
      ((text.drop pos).take count, pos + ((text.drop pos).take count).length) := by
  have same : ((text ++ rest).drop pos).take (min count (text.length - pos)) = (text.drop pos).take count := by
    have inside : min count (text.length - pos) ≤ (text.drop pos).length := by
      rw [List.length_drop]
      exact Nat.min_le_right ..
    rw [List.drop_append, List.take_append_of_le_length inside, List.take_eq_take_iff, List.length_drop]
    omega
  rw [simpleReadFromBuffer, same]

theorem drop_taken (text : List UInt8) (count pos : Nat) :
    text.drop (pos + ((text.drop pos).take count).length) = (text.drop pos).drop count := by
  rw [List.length_take, List.length_drop, List.drop_drop, List.drop_eq_drop_iff]
  omega

end LinuxModule.UserCopy
