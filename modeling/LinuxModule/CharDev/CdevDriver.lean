import LinuxModule.Base.CInt
import LinuxModule.Base.UserCopy

set_option autoImplicit false

namespace LinuxModule.CdevDriver

open UserCopy

def kmaxLen : Nat := 32
def efault : Int := 14

abbrev Kbuf := CharArray kmaxLen

-- The characters of "read test\n", padded as the initialiser pads them.
def readTest : Kbuf := ⟨[114, 101, 97, 100, 32, 116, 101, 115, 116, 10] ++ List.replicate 22 0, rfl⟩

def clamped (size : Nat) : Nat := if size > kmaxLen then kmaxLen else size

theorem clamped_min (size : Nat) : clamped size = min size kmaxLen := by
  unfold clamped
  split <;> omega

-- What is returned, and what the user is given.
def myRead (size reach : Nat) : Int × List UInt8 :=
  let size := clamped size
  let (left, out) := copyToUser (readTest.bytes.take size) reach
  let rc := cInt left
  if rc < 0 then (-efault, out) else (size, out)

theorem clamped_fits (bytes : List UInt8) : (bytes.take (clamped bytes.length)).length ≤ kmaxLen := by
  rw [List.length_take, clamped_min]
  omega

-- What is returned, and what printk is given. The buffer is on the stack and starts with
-- what was there before.
def myWrite (stack : Kbuf) (user : UserData) : Except Fault (Int × Option (List UInt8)) :=
  let size := clamped user.bytes.length
  let (left, kbuf) := stack.copyFromUser (user.bytes.take size) user.reach (clamped_fits _)
  let rc := cInt left
  if rc < 0 then .ok (-efault, none)
  else do
    let text ← scan kbuf.bytes
    .ok (size, some text)

-- A count of the bytes that were transferred, or -EFAULT when some of those asked for were not.
def HonestCount (value : Int) (transferred requested : Nat) : Prop :=
  (value = transferred ∧ transferred ≤ kmaxLen) ∨ (value = -efault ∧ transferred < requested)

def HonestRead (size reach : Nat) : Prop :=
  HonestCount (myRead size reach).1 (myRead size reach).2.length (clamped size)

def transferred (user : UserData) : List UInt8 := (user.bytes.take (clamped user.bytes.length)).take user.reach

-- The scan reads one byte more than it logs, the NUL.
def HonestLog (user : UserData) (text : List UInt8) : Prop :=
  text = cstr (transferred user) ∧ text.length + 1 ≤ (transferred user).length

def HonestWrite (stack : Kbuf) (user : UserData) : Prop :=
  ∃ value log, myWrite stack user = .ok (value, log) ∧
    HonestCount value (transferred user).length (clamped user.bytes.length) ∧
    ∀ text, log = some text → HonestLog user text

theorem clamped_le (size : Nat) : clamped size ≤ kmaxLen := by
  rw [clamped_min]
  exact Nat.min_le_right ..

theorem clamped_length (bytes : List UInt8) : (bytes.take (clamped bytes.length)).length = clamped bytes.length := by
  rw [List.length_take, clamped_min]
  omega

-- Neither copy ever leaves a count that reads as negative.
theorem left_not_negative (left : Nat) (inside : left ≤ kmaxLen) : ¬ cInt left < 0 := by
  unfold kmaxLen at inside
  rw [c_int_fits] <;> omega

theorem my_read_returns (size reach : Nat) :
    myRead size reach = ((clamped size : Int), (readTest.bytes.take (clamped size)).take reach) := by
  have inside : (readTest.bytes.take (clamped size)).length - reach ≤ kmaxLen :=
    (Nat.sub_le ..).trans ((List.length_take_le ..).trans (clamped_le size))
  have unsigned : ¬ cInt (copyToUser (readTest.bytes.take (clamped size)) reach).1 < 0 := left_not_negative _ inside
  simp only [myRead, if_neg unsigned]
  rfl

theorem my_write_returns (stack : Kbuf) (user : UserData) :
    myWrite stack user =
      (scan (stack.copyFromUser (user.bytes.take (clamped user.bytes.length)) user.reach (clamped_fits _)).2.bytes).map
        fun text => ((clamped user.bytes.length : Int), some text) := by
  have inside : (stack.copyFromUser (user.bytes.take (clamped user.bytes.length)) user.reach (clamped_fits _)).1 ≤ kmaxLen :=
    (Nat.sub_le ..).trans (clamped_fits _)
  simp only [myWrite, if_neg (left_not_negative _ inside)]
  rfl

theorem honest_count_iff (transferred requested : Nat) (part : transferred ≤ requested) (inside : requested ≤ kmaxLen) :
    HonestCount requested transferred requested ↔ transferred = requested := by
  constructor
  · rintro (⟨same, -⟩ | ⟨error, -⟩)
    · exact (Int.ofNat.inj same).symm
    · have negative : -efault < 0 := by decide
      omega
  · rintro rfl
    exact .inl ⟨rfl, inside⟩

theorem honest_read_iff (size reach : Nat) : HonestRead size reach ↔ clamped size ≤ reach := by
  have whole : (readTest.bytes.take (clamped size)).length = clamped size := by
    rw [List.length_take, readTest.size]
    exact Nat.min_eq_left (clamped_le size)
  have given : (myRead size reach).2.length = min reach (clamped size) := by
    rw [my_read_returns, List.length_take, whole]
  rw [HonestRead, given, my_read_returns, honest_count_iff _ _ (Nat.min_le_right ..) (clamped_le size)]
  omega

theorem transferred_length (user : UserData) : (transferred user).length = min user.reach (clamped user.bytes.length) := by
  rw [transferred, List.length_take, clamped_length]

theorem transferred_whole (user : UserData) (whole : clamped user.bytes.length ≤ user.reach) :
    transferred user = user.bytes.take kmaxLen := by
  rw [transferred, List.take_of_length_le ((clamped_length _).trans_le whole), List.take_eq_take_iff, clamped_min]
  omega

theorem honest_log_terminated (user : UserData) (text : List UInt8) (honest : HonestLog user text) : 0 ∈ transferred user := by
  by_contra unended
  have shorter := honest.2
  rw [honest.1, cstr_whole (transferred user) unended] at shorter
  omega

theorem honest_write_iff (stack : Kbuf) (user : UserData) :
    HonestWrite stack user ↔ clamped user.bytes.length ≤ user.reach ∧ 0 ∈ user.bytes.take kmaxLen := by
  have part : (transferred user).length ≤ clamped user.bytes.length := by
    rw [transferred_length]
    exact Nat.min_le_right ..
  constructor
  · rintro ⟨value, log, wrote, count, logged⟩
    rw [my_write_returns] at wrote
    obtain ⟨text, _, same⟩ := (except_map_ok _ _ _).mp wrote
    obtain ⟨rfl, rfl⟩ := Prod.mk.inj same
    have all := (honest_count_iff _ _ part (clamped_le _)).mp count
    rw [transferred_length] at all
    have whole : clamped user.bytes.length ≤ user.reach := by omega
    refine ⟨whole, ?_⟩
    rw [← transferred_whole user whole]
    exact honest_log_terminated user text (logged text rfl)
  · rintro ⟨whole, terminated⟩
    have data : user.bytes.take (clamped user.bytes.length) = transferred user := by
      rw [transferred, List.take_of_length_le ((clamped_length _).trans_le whole)]
    rw [← transferred_whole user whole] at terminated
    have scanned : scan (stack.copyFromUser (user.bytes.take (clamped user.bytes.length)) user.reach
        (clamped_fits _)).2.bytes = .ok (cstr (transferred user)) := by
      rw [CharArray.copy_bytes]
      exact scan_append (transferred user) _ terminated
    refine ⟨clamped user.bytes.length, some (cstr (transferred user)), ?_, ?_, ?_⟩
    · rw [my_write_returns, scanned, except_ok_map]
    · rw [honest_count_iff _ _ part (clamped_le _), ← data, clamped_length]
    · rintro text same
      obtain rfl := Option.some.inj same
      obtain ⟨rest, split⟩ := cstr_splits (transferred user) terminated
      have lengths := congrArg List.length split
      rw [List.length_append, List.length_cons] at lengths
      exact ⟨rfl, by omega⟩

theorem transfers_honest_iff (stack : Kbuf) (size reach : Nat) (user : UserData) :
    (HonestRead size reach ↔ clamped size ≤ reach) ∧
    (HonestWrite stack user ↔ clamped user.bytes.length ≤ user.reach ∧ 0 ∈ user.bytes.take kmaxLen) :=
  ⟨honest_read_iff size reach, honest_write_iff stack user⟩

-- A read of ten bytes that faults after four returns ten, and the scan of a two-byte write
-- goes on into what the stack held before.
theorem transfers_dishonest :
    (¬ ∀ size reach, HonestRead size reach) ∧ (¬ ∀ (stack : Kbuf) (user : UserData), user.Whole → HonestWrite stack user) ∧
    myRead 10 4 = (10, [114, 101, 97, 100]) ∧
    myWrite ⟨List.replicate 32 65, rfl⟩ ⟨[79, 75], 2⟩ = .error .beyond := by
  refine ⟨?_, ?_, by decide, by decide⟩
  · intro claimed
    exact absurd ((honest_read_iff 10 4).mp (claimed 10 4)) (by decide)
  · intro claimed
    have terminated := ((honest_write_iff readTest ⟨[79, 75], 2⟩).mp (claimed _ _ (by decide))).2
    exact absurd terminated (by decide)

end LinuxModule.CdevDriver
