import LinuxModule.Base.Walk
import LinuxModule.SeqFile.TaskRing

set_option autoImplicit false

namespace LinuxModule.SeqFile

-- What one seq_printf puts out: the two title lines, or "%-24s%-5d\t%lld\n" of these.
inductive Line where
  | header
  | record (comm : List UInt8) (pid : Int) (offset : Nat)
deriving DecidableEq

inductive Fault where
  | bugOn
deriving DecidableEq, Repr

variable {τ : Type}

def walk (ring : TaskRing τ) (index i : Nat) (task : τ) : Nat × τ :=
  if i < index then walk ring index (i + 1) (ring.nextTask task) else (i, task)
termination_by index - i

theorem walk_spec (ring : TaskRing τ) (index i : Nat) (inside : i ≤ index) :
    walk ring index i (ring.task i) = (index, ring.task index) := by
  by_cases more : i < index
  · rw [walk, if_pos more, next_of_task]
    exact walk_spec ring index (i + 1) more
  · have done : i = index := by omega
    rw [walk, if_neg more, done]
termination_by index - i

variable [DecidableEq τ]

def lStart (ring : TaskRing τ) (pos : Nat) : Except Fault (List Line × Option τ) :=
  if pos = 0 then .ok ([.header], some ring.initTask)
  else
    let (i, task) := walk ring pos 0 ring.initTask
    if i ≠ pos then .error .bugOn
    else if task = ring.initTask then .ok ([], none)
    else .ok ([], some task)

def lNext (ring : TaskRing τ) (p : τ) (pos offset : Nat) : Option τ × Nat × Nat :=
  let task := ring.nextTask p
  if pos ≠ 0 ∧ task = ring.initTask then (none, pos, offset)
  else (some task, pos + 1, pos + 1)

def lShow (ring : TaskRing τ) (task : τ) (offset : Nat) : Line := .record (ring.comm task) (ring.pid task) offset

structure Reader where
  index : Nat
  offset : Nat
deriving DecidableEq

-- seq_file moves the index itself when next did not.
def advance (ring : TaskRing τ) (p : τ) (r : Reader) : Option τ × Reader :=
  let (task, index, offset) := lNext ring p r.index r.offset
  (task, ⟨if index = r.index then index + 1 else index, offset⟩)

-- The loop of one read after its first record; `room` more records fit. A record
-- that does not fit leaves the index at itself, whether or not it was shown.
def fill (ring : TaskRing τ) : Nat → τ → Reader → List Line × Reader
  | 0, p, r => ([], (advance ring p r).2)
  | room + 1, p, r =>
      match advance ring p r with
      | (none, next) => ([], next)
      | (some task, next) =>
          let (rest, last) := fill ring room task next
          (lShow ring task next.offset :: rest, last)

def seqRead (ring : TaskRing τ) (room : Nat) (r : Reader) : Except Fault (List Line × Reader) := do
  let (header, p) ← lStart ring r.index
  match p with
  | none => .ok ([], r)
  | some task =>
      let (rest, last) := fill ring room task r
      .ok (header ++ lShow ring task r.offset :: rest, last)

def session (ring : TaskRing τ) : List Nat → Reader → Except Fault (List (List Line) × Reader)
  | [], r => .ok ([], r)
  | room :: rooms, r => do
      let (out, next) ← seqRead ring room r
      let (outs, last) ← session ring rooms next
      .ok (out :: outs, last)

theorem l_start_later (ring : TaskRing τ) (pos : Nat) (later : pos ≠ 0) :
    lStart ring pos = .ok ([], if ring.task pos = ring.initTask then none else some (ring.task pos)) := by
  have walked := walk_spec ring pos 0 (Nat.zero_le pos)
  rw [task_zero] at walked
  by_cases back : ring.task pos = ring.initTask
  · simp [lStart, later, walked, back]
  · simp [lStart, later, walked, back]

theorem l_start_end (ring : TaskRing τ) : lStart ring ring.size = .ok ([], none) := by
  rw [l_start_later ring ring.size (Nat.ne_of_gt ring.nonempty), if_pos (task_size ring)]

theorem advance_inside (ring : TaskRing τ) (r : Reader) (more : r.index + 1 < ring.size) :
    advance ring (ring.task r.index) r = (some (ring.task (r.index + 1)), ⟨r.index + 1, r.index + 1⟩) := by
  have apart := task_apart ring (r.index + 1) (Nat.succ_pos _) more
  simp [advance, lNext, apart]

-- With a single task the index is still 0 here and l_next goes round once more.
theorem advance_end (ring : TaskRing τ) (two : 2 ≤ ring.size) (r : Reader) (last : r.index + 1 = ring.size) :
    advance ring (ring.task r.index) r = (none, ⟨ring.size, r.offset⟩) := by
  have back : ring.task ring.size = ring.initTask := task_size ring
  have moved : r.index ≠ 0 := by omega
  simp [advance, lNext, back, moved, last]

end LinuxModule.SeqFile
