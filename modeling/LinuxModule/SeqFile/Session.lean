import LinuxModule.SeqFile.SeqFileTest
import Mathlib.Data.Nat.Prime.Basic

set_option autoImplicit false

namespace LinuxModule.SeqFile

variable {τ : Type}

-- The column l_show takes from `offset`: the first record shows what the variable
-- held before the session, record k shows k.
def recordAt (ring : TaskRing τ) (offset k : Nat) : Line :=
  lShow ring (ring.task k) (if k = 0 then offset else k)

def upTo (ring : TaskRing τ) (offset k : Nat) : List Line :=
  if k = 0 then [] else .header :: (List.range k).map (recordAt ring offset)

def listing (ring : TaskRing τ) (offset : Nat) : List Line := upTo ring offset ring.size

theorem up_to_length (ring : TaskRing τ) (offset k : Nat) :
    (upTo ring offset k).length = if k = 0 then 0 else k + 1 := by
  by_cases first : k = 0
  · simp [upTo, first]
  · simp [upTo, first]

theorem up_to_prefix (ring : TaskRing τ) (offset k : Nat) (inside : k ≤ ring.size) :
    upTo ring offset k <+: listing ring offset := by
  by_cases first : k = 0
  · simp [upTo, first]
  · have last : ring.size ≠ 0 := by omega
    have split : List.range ring.size = List.range k ++ (List.range (ring.size - k)).map (k + ·) := by
      rw [← List.range_add, Nat.add_sub_cancel' inside]
    simp only [listing, upTo, if_neg first, if_neg last, split, List.map_append]
    exact ⟨_, List.cons_append⟩

theorem up_to_complete (ring : TaskRing τ) (offset k : Nat) :
    upTo ring offset k = listing ring offset ↔ k = ring.size := by
  constructor
  · intro same
    have lengths := congrArg List.length same
    simp only [listing, up_to_length] at lengths
    have := ring.nonempty
    split at lengths <;> split at lengths <;> omega
  · rintro rfl
    rfl

-- Between two reads: the index is a task still to come or the end, and `offset`
-- is already what that task's record will show.
structure Ready (ring : TaskRing τ) (offset : Nat) (r : Reader) : Prop where
  inside : r.index ≤ ring.size
  column : r.index < ring.size → r.offset = if r.index = 0 then offset else r.index

variable [DecidableEq τ]

theorem fill_spec (ring : TaskRing τ) (two : 2 ≤ ring.size) (offset room : Nat) (r : Reader)
    (inside : r.index < ring.size) :
    ∃ out last, fill ring room (ring.task r.index) r = (out, last) ∧ r.index < last.index ∧
      Ready ring offset last ∧
      (List.range (r.index + 1)).map (recordAt ring offset) ++ out =
        (List.range last.index).map (recordAt ring offset) := by
  induction room generalizing r with
  | zero =>
      by_cases more : r.index + 1 < ring.size
      · refine ⟨[], ⟨r.index + 1, r.index + 1⟩, ?_, Nat.lt_succ_self _, ⟨more.le, fun _ => rfl⟩, by simp⟩
        rw [fill, advance_inside ring r more]
      · have ending : r.index + 1 = ring.size := by omega
        refine ⟨[], ⟨ring.size, r.offset⟩, ?_, inside, ⟨le_rfl, fun below => absurd below (lt_irrefl _)⟩, ?_⟩
        · rw [fill, advance_end ring two r ending]
        · simp [ending]
  | succ room ih =>
      by_cases more : r.index + 1 < ring.size
      · obtain ⟨out, last, ran, moved, ready, printed⟩ := ih ⟨r.index + 1, r.index + 1⟩ more
        refine ⟨recordAt ring offset (r.index + 1) :: out, last, ?_, by simp at moved; omega, ready, ?_⟩
        · simp only [fill, advance_inside ring r more, ran]
          simp [recordAt]
        · rw [← printed, List.range_succ (n := r.index + 1)]
          simp
      · have ending : r.index + 1 = ring.size := by omega
        refine ⟨[], ⟨ring.size, r.offset⟩, ?_, inside, ⟨le_rfl, fun below => absurd below (lt_irrefl _)⟩, ?_⟩
        · simp only [fill, advance_end ring two r ending]
        · simp [ending]

theorem seq_read_spec (ring : TaskRing τ) (two : 2 ≤ ring.size) (offset room : Nat) (r : Reader)
    (ready : Ready ring offset r) :
    ∃ out last, seqRead ring room r = .ok (out, last) ∧ Ready ring offset last ∧
      upTo ring offset r.index ++ out = upTo ring offset last.index ∧
      (out = [] ↔ r.index = ring.size) ∧ min (r.index + 1) ring.size ≤ last.index := by
  by_cases ended : r.index = ring.size
  · refine ⟨[], r, ?_, ready, by simp, by simp [ended], by omega⟩
    simp only [seqRead, ended, l_start_end, except_ok_bind]
  · have inside : r.index < ring.size := by have := ready.inside; omega
    obtain ⟨out, last, ran, moved, readyLast, printed⟩ := fill_spec ring two offset room r inside
    have shown : lShow ring (ring.task r.index) r.offset = recordAt ring offset r.index := by
      rw [recordAt, ready.column inside]
    have notFirst : last.index ≠ 0 := by omega
    rw [List.range_succ, List.map_append] at printed
    by_cases first : r.index = 0
    · refine ⟨[.header] ++ recordAt ring offset r.index :: out, last, ?_, readyLast, ?_, by simp [ended], by omega⟩
      · rw [first, task_zero] at ran shown
        simp only [seqRead, lStart, first, if_pos, except_ok_bind, ran, shown]
      · simp only [upTo, if_pos first, if_neg notFirst, ← printed]
        simp [first]
    · refine ⟨recordAt ring offset r.index :: out, last, ?_, readyLast, ?_, by simp [ended], by omega⟩
      · have apart := task_apart ring r.index (Nat.pos_of_ne_zero first) inside
        simp only [seqRead, l_start_later ring r.index first, if_neg apart, except_ok_bind, ran, shown]
        simp
      · simp only [upTo, if_neg first, if_neg notFirst, ← printed]
        simp

theorem session_spec (ring : TaskRing τ) (two : 2 ≤ ring.size) (offset : Nat) (rooms : List Nat) (r : Reader)
    (ready : Ready ring offset r) :
    ∃ outs last, session ring rooms r = .ok (outs, last) ∧ outs.length = rooms.length ∧ Ready ring offset last ∧
      upTo ring offset r.index ++ outs.flatten = upTo ring offset last.index ∧
      min (r.index + rooms.length) ring.size ≤ last.index ∧
      ∀ before out after, outs = before ++ out :: after →
        (out = [] ↔ upTo ring offset r.index ++ before.flatten = listing ring offset) := by
  induction rooms generalizing r with
  | nil => exact ⟨[], r, rfl, rfl, ready, by simp, by simp, by simp⟩
  | cons room rooms ih =>
      obtain ⟨out, middle, ranRead, readyMiddle, printedRead, emptyRead, movedRead⟩ :=
        seq_read_spec ring two offset room r ready
      obtain ⟨outs, last, ran, count, readyLast, printed, moved, empties⟩ := ih middle readyMiddle
      refine ⟨out :: outs, last, ?_, by simp [count], readyLast, ?_, ?_, ?_⟩
      · simp only [session, ranRead, ran, except_ok_bind]
      · rw [List.flatten_cons, ← List.append_assoc, printedRead, printed]
      · simp only [List.length_cons]
        omega
      · intro before here after split
        cases before with
        | nil =>
            obtain ⟨rfl, -⟩ : out = here ∧ outs = after := by simpa using split
            rw [List.flatten_nil, List.append_nil, up_to_complete, emptyRead]
        | cons first before =>
            obtain ⟨rfl, rest⟩ : out = first ∧ outs = before ++ here :: after := by simpa using split
            rw [List.flatten_cons, ← List.append_assoc, printedRead]
            exact empties before here after rest

-- From a fresh open on, whatever fits into each read: the reads put out the listing
-- piece by piece, no read before its end is empty, and every read after it is.
theorem session_lists_tasks (ring : TaskRing τ) (two : 2 ≤ ring.size) (offset : Nat) (rooms : List Nat) :
    (ring.tasks.Nodup ∧ ∀ t, t ∈ ring.tasks ↔ ∃ k, ring.nextTask^[k] ring.initTask = t) ∧
    listing ring offset = .header :: (List.range ring.size).map (recordAt ring offset) ∧
    ∃ outs last, session ring rooms ⟨0, offset⟩ = .ok (outs, last) ∧ outs.length = rooms.length ∧
      outs.flatten <+: listing ring offset ∧
      (ring.size ≤ rooms.length → outs.flatten = listing ring offset) ∧
      ∀ before out after, outs = before ++ out :: after → (out = [] ↔ before.flatten = listing ring offset) := by
  obtain ⟨outs, last, ran, count, readyLast, printed, moved, empties⟩ :=
    session_spec ring two offset rooms ⟨0, offset⟩ ⟨Nat.zero_le _, fun _ => rfl⟩
  have start : upTo ring offset 0 = [] := by simp [upTo]
  rw [start, List.nil_append] at printed
  refine ⟨⟨tasks_distinct ring, tasks_complete ring⟩, ?_, outs, last, ran, count, ?_, ?_, ?_⟩
  · simp [listing, upTo, Nat.ne_of_gt ring.nonempty]
  · rw [printed]
    exact up_to_prefix ring offset last.index readyLast.inside
  · intro enough
    rw [printed, up_to_complete]
    have := readyLast.inside
    simp only [Nat.zero_add] at moved
    omega
  · intro before out after split
    simpa [start] using empties before out after split

theorem two_minimal_period : Function.minimalPeriod not false = 2 := by
  have divides : Function.minimalPeriod not false ∣ 2 := Function.IsPeriodicPt.minimalPeriod_dvd rfl
  have moves : Function.minimalPeriod not false ≠ 1 := by
    rw [Ne, Function.minimalPeriod_eq_one_iff_isFixedPt]
    exact Bool.noConfusion
  rcases (Nat.dvd_prime Nat.prime_two).mp divides with one | two
  · exact absurd one moves
  · exact two

def twoTasks : TaskRing Bool where
  initTask := false
  nextTask := not
  comm := fun other => if other then [105, 110, 105, 116] else [115, 119, 97, 112, 112, 101, 114]
  pid := fun other => if other then 1 else 0
  size := 2
  nonempty := by decide
  closed := two_minimal_period

theorem two_tasks_listed :
    ∃ outs last, session twoTasks [0, 3, 0] ⟨0, 1⟩ = .ok (outs, last) ∧
      outs.flatten = [.header, .record [115, 119, 97, 112, 112, 101, 114] 0 1, .record [105, 110, 105, 116] 1 1] := by
  obtain ⟨_, _, outs, last, ran, _, _, complete, _⟩ := session_lists_tasks twoTasks (by decide) 1 [0, 3, 0]
  exact ⟨outs, last, ran, complete (by decide)⟩

end LinuxModule.SeqFile
