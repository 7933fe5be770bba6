import LinuxModule.SeqFile.Readers

set_option autoImplicit false

namespace LinuxModule

namespace LinuxSeq

variable {τ : Type} [DecidableEq τ]

-- linux_seq.c has the same l_start, word for word.
def lStart (ring : SeqFile.TaskRing τ) (pos : Nat) : Except SeqFile.Fault (List SeqFile.Line × Option τ) :=
  SeqFile.lStart ring pos

end LinuxSeq

namespace SeqFile

variable {τ : Type}

theorem task_init_iff (ring : TaskRing τ) (k : Nat) : ring.task k = ring.initTask ↔ ring.size ∣ k := by
  rw [Nat.dvd_iff_mod_eq_zero, ← task_mod ring k]
  constructor
  · intro back
    by_contra inside
    exact task_apart ring (k % ring.size) (Nat.pos_of_ne_zero inside) (Nat.mod_lt k ring.nonempty) back
  · intro whole
    rw [whole, task_zero]

def startTask (ring : TaskRing τ) (pos : Nat) : Option τ := if pos < ring.size then some (ring.task pos) else none

def StartsAt (ring : TaskRing τ) (pos : Nat) (result : Except Fault (List Line × Option τ)) : Prop :=
  result.map Prod.snd = .ok (startTask ring pos)

variable [DecidableEq τ]

instance (ring : TaskRing τ) (pos : Nat) (result : Except Fault (List Line × Option τ)) :
    Decidable (StartsAt ring pos result) := inferInstanceAs (Decidable (_ = _))

-- A position the ring no longer has: no later read of the session puts out anything.
def EndsBeyond (ring : TaskRing τ) (pos : Nat) : Prop :=
  ring.size ≤ pos → ∀ rooms offset,
    session ring rooms ⟨pos, offset⟩ = .ok (List.replicate rooms.length [], ⟨pos, offset⟩)

-- The walk does not see how often it has come past init_task: only where it stops counts.
theorem l_start_wraps (ring : TaskRing τ) (pos : Nat) (later : pos ≠ 0) :
    lStart ring pos = .ok ([], if ring.size ∣ pos then none else some (ring.task (pos % ring.size))) := by
  rw [l_start_later ring pos later, task_mod]
  simp only [task_init_iff]

theorem l_start_inside (ring : TaskRing τ) (pos : Nat) (inside : pos < ring.size) :
    StartsAt ring pos (lStart ring pos) := by
  rw [StartsAt, startTask, if_pos inside]
  by_cases first : pos = 0
  · rw [lStart, if_pos first, first, task_zero]
    rfl
  · have apart := task_apart ring pos (Nat.pos_of_ne_zero first) inside
    rw [l_start_later ring pos first, if_neg apart]
    rfl

theorem l_start_beyond_iff (ring : TaskRing τ) (pos : Nat) (beyond : ring.size ≤ pos) :
    StartsAt ring pos (lStart ring pos) ↔ ring.size ∣ pos := by
  have later : pos ≠ 0 := Nat.ne_of_gt (ring.nonempty.trans_le beyond)
  rw [StartsAt, startTask, if_neg (Nat.not_lt.mpr beyond), l_start_wraps ring pos later]
  by_cases whole : ring.size ∣ pos
  · simp [whole, Except.map]
  · simp [whole, Except.map]

theorem session_ended (ring : TaskRing τ) (pos : Nat) (later : pos ≠ 0) (whole : ring.size ∣ pos) (rooms : List Nat)
    (offset : Nat) :
    session ring rooms ⟨pos, offset⟩ = .ok (List.replicate rooms.length [], ⟨pos, offset⟩) := by
  induction rooms with
  | nil => rfl
  | cons room rooms ih =>
      have read : seqRead ring room ⟨pos, offset⟩ = .ok ([], ⟨pos, offset⟩) := by
        simp only [seqRead, l_start_wraps ring pos later, if_pos whole, except_ok_bind]
      simp only [session, read, ih, except_ok_bind]
      rfl

-- A position inside a later round is read as the task it falls on.
theorem seq_read_lists_again (ring : TaskRing τ) (pos : Nat) (beyond : ring.size ≤ pos) (apart : ¬ ring.size ∣ pos)
    (room offset : Nat) :
    ∃ rest last, seqRead ring room ⟨pos, offset⟩ =
      .ok (lShow ring (ring.task (pos % ring.size)) offset :: rest, last) := by
  have later : pos ≠ 0 := Nat.ne_of_gt (ring.nonempty.trans_le beyond)
  cases filled : fill ring room (ring.task (pos % ring.size)) ⟨pos, offset⟩ with
  | mk rest last =>
      refine ⟨rest, last, ?_⟩
      simp only [seqRead, l_start_wraps ring pos later, if_neg apart, except_ok_bind, filled]
      rfl

theorem ends_beyond_iff (ring : TaskRing τ) (pos : Nat) (beyond : ring.size ≤ pos) :
    EndsBeyond ring pos ↔ ring.size ∣ pos := by
  constructor
  · intro ends
    by_contra apart
    obtain ⟨rest, last, read⟩ := seq_read_lists_again ring pos beyond apart 0 0
    have ended := ends beyond [0] 0
    simp [session, read, except_ok_bind] at ended
  · intro whole _ rooms offset
    exact session_ended ring pos (Nat.ne_of_gt (ring.nonempty.trans_le beyond)) whole rooms offset

theorem l_start_ends_iff (ring : TaskRing τ) (pos : Nat) :
    (StartsAt ring pos (lStart ring pos) ∧ StartsAt ring pos (LinuxSeq.lStart ring pos) ∧ EndsBeyond ring pos) ↔
      pos < ring.size ∨ ring.size ∣ pos := by
  change (StartsAt ring pos (lStart ring pos) ∧ StartsAt ring pos (lStart ring pos) ∧ EndsBeyond ring pos) ↔ _
  by_cases inside : pos < ring.size
  · have starts := l_start_inside ring pos inside
    have ends : EndsBeyond ring pos := fun beyond => absurd inside (Nat.not_lt.mpr beyond)
    exact iff_of_true ⟨starts, starts, ends⟩ (.inl inside)
  · have beyond : ring.size ≤ pos := Nat.le_of_not_lt inside
    rw [l_start_beyond_iff ring pos beyond, ends_beyond_iff ring pos beyond]
    simp [inside]

-- All three tasks have been read and one exits: the next read lists the second task again.
theorem exited_task_lists_again :
    (∃ outs last, session threeTasks [2] ⟨0, 1⟩ = .ok (outs, last) ∧ last.index = 3) ∧
    ¬ (StartsAt twoTasks 3 (lStart twoTasks 3) ∧ StartsAt twoTasks 3 (LinuxSeq.lStart twoTasks 3) ∧
      EndsBeyond twoTasks 3) := by
  refine ⟨⟨_, _, rfl, rfl⟩, ?_⟩
  rintro ⟨-, -, ends⟩
  have whole : 2 ∣ 3 := (ends_beyond_iff twoTasks 3 (by decide)).mp ends
  exact absurd whole (by decide)

end SeqFile

end LinuxModule
