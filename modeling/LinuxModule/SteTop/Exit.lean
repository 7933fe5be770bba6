import LinuxModule.SteTop.FrameLoop

set_option autoImplicit false

namespace LinuxModule.SteTop

theorem get_slot_same (t next : Slots) (i : Nat) (sameInfo : next.processInfo = t.processInfo)
    (sameArrays : next.arrays = t.arrays) : getSlot next i = getSlot t i := by
  simp only [getSlot, slotArray, sameInfo, sameArrays]

theorem free_rows_spec (t : Slots) (rows : List Nat) (owned : RowsOwned t rows) :
    ∃ next, freeRows t = .ok next ∧ next.processInfo = t.processInfo ∧ next.arrays = t.arrays ∧
      next.rows.cells = t.rows.cells ∧ ∀ row, row ∈ next.rows.freed ↔ row ∈ rows := by
  suffices loop : ∀ k, k ≤ t.cells.length → ∃ next,
      (List.range k).foldlM freeSlot t = .ok next ∧
      next.processInfo = t.processInfo ∧ next.arrays = t.arrays ∧ next.rows.cells = t.rows.cells ∧
        ∀ row, row ∈ next.rows.freed ↔ row ∈ rows.take k by
    have fit := rows_fit t rows owned
    have slots : t.nAlloc.toNat = t.cells.length := by
      rw [owned.capacity]
      rfl
    obtain ⟨next, ran, sameInfo, sameArrays, sameCells, freed⟩ := loop t.cells.length (Nat.le_refl _)
    refine ⟨next, ?_, sameInfo, sameArrays, sameCells, fun row => ?_⟩
    · rw [freeRows, slots]
      exact ran
    · rw [freed, List.take_of_length_le fit]
  intro k
  induction k with
  | zero => exact fun _ => ⟨t, rfl, rfl, rfl, rfl, by simp [owned.kept]⟩
  | succ k ih =>
      intro bound
      obtain ⟨middle, ran, sameInfo, sameArrays, sameCells, freed⟩ := ih (by omega)
      have slot := get_slot_spec t rows owned k bound
      rw [← get_slot_same t middle k sameInfo sameArrays] at slot
      rw [List.range_succ, List.foldlM_append, ran]
      simp only [except_ok_bind, List.foldlM_cons, List.foldlM_nil, freeSlot, slot]
      by_cases inside : k < rows.length
      · have live : middle.rows.Live rows[k] := by
          have before := (rows_live t rows owned rows[k]).mp (List.getElem_mem inside)
          refine ⟨by simpa only [Heap.size, sameCells] using before.1, fun gone => ?_⟩
          obtain ⟨j, early, same⟩ := List.mem_take_iff_getElem.mp ((freed rows[k]).mp gone)
          have index := (rows_distinct t rows owned).getElem_inj_iff.mp same
          omega
        simp only [List.getElem?_eq_getElem inside, Heap.free_live _ _ live]
        refine ⟨_, rfl, sameInfo, sameArrays, sameCells, fun row => ?_⟩
        rw [Heap.freed_release, List.mem_cons, freed, List.take_succ_eq_append_getElem inside, List.mem_append,
          List.mem_singleton, or_comm]
      · have past : rows[k]? = none := List.getElem?_eq_none (by omega)
        simp only [past]
        refine ⟨middle, rfl, sameInfo, sameArrays, sameCells, fun row => ?_⟩
        rw [freed, List.take_of_length_le (by omega), List.take_of_length_le (by omega)]

theorem kfree_array_spec (t : Slots) (rows : List Nat) (owned : RowsOwned t rows) :
    ∃ arrays, kfreeArray t.processInfo t.arrays = .ok arrays ∧ arrays.FreedOnce := by
  cases at_null : t.processInfo with
  | none =>
      refine ⟨t.arrays, rfl, (Heap.freed_once_iff _).mpr fun a live => ?_⟩
      simp [owned.arrays, at_null] at live
  | some address =>
      have live := (owned.arrays address).mpr at_null
      have freed : kfreeArray (some address) t.arrays = .ok (t.arrays.release address live) := by
        simp only [kfreeArray, Heap.free_live _ _ live]
      refine ⟨_, freed, (Heap.freed_once_iff _).mpr fun a still => ?_⟩
      obtain ⟨before, different⟩ := (Heap.live_release _ _ _ live).mp still
      exact different (Option.some.inj (((owned.arrays a).mp before).symm.trans at_null))

-- The samples of the last call are the nodes that stay behind.
theorem exit_meets (c : Walk.Contract Fault Point Globals) (hash : Hash) (s : Globals) (start : Nat)
    (old new : List Hst) (rows : List Nat) (walked : Walked hash s start old new rows) :
    Walk.Meets c procStatsExit s (fun _ after =>
      Sampling hash after.tables (start + old.length) [] new ∧ after.slots.rows.size = s.slots.rows.size ∧
        after.slots.rows.FreedOnce ∧ after.slots.arrays.FreedOnce) := by
  obtain ⟨tables, emptied, _, sampling⟩ := empty_old_spec hash s.tables start old new walked.sampling
  obtain ⟨next, freedRows, sameInfo, sameArrays, sameCells, freed⟩ := free_rows_spec s.slots rows walked.owned
  obtain ⟨arrays, freedArray, arraysOnce⟩ := kfree_array_spec s.slots rows walked.owned
  have size : next.rows.size = s.slots.rows.size := by simp only [Heap.size, sameCells]
  apply Walk.meets_bind
  apply meets_on_tables _ _ s () tables _ (by rw [emptied, except_ok_map])
  apply Walk.meets_bind
  apply meets_on_slots _ _ { s with tables := tables } () next _ (by rw [freedRows, except_ok_map])
  apply meets_on_slots _ _ { s with tables := tables, slots := next } () { next with arrays := arrays }
  · rw [sameInfo, sameArrays, freedArray, except_ok_map]
  · refine ⟨sampling, size, (Heap.freed_once_iff _).mpr ?_, arraysOnce⟩
    rintro row ⟨bound, unfreed⟩
    have member : row ∈ rows := walked.owned.owned.mem_iff.mpr (List.mem_range.mpr (size ▸ bound))
    exact unfreed ((freed row).mpr member)

structure RowsAfter (calls : List Call) (s : Globals) : Prop where
  capacity : s.slots.nAlloc = s.slots.cells.length
  distinct : DistinctRows s.slots
  held : HeldOnce s.slots
  allocated : s.slots.rows.size = longest (refreshes calls)
  unfreed : s.slots.rows.freed = []
  visited : ∀ earlier r, calls = earlier ++ [.procsRefresh r] → s.slots.total = r.visits.length ∧
    ∀ (i : Nat) (v : Visit), r.visits[i]? = some v → ∃ row info, getSlot s.slots i = .ok (some row) ∧
      readRow row s.slots = .ok info ∧ info = fillRow v.task info

theorem rows_after (hash : Hash) (calls : List Call) (s : Globals) (rows : List Nat)
    (sofar : Refreshed hash (refreshes calls) s rows) (visited : JustVisited calls s rows) : RowsAfter calls s := by
  have owned := sofar.walked.owned
  refine ⟨owned.capacity, rows_distinct_slots s.slots rows owned, rows_held_once s.slots rows owned, ?_, owned.kept,
    fun earlier r split => ?_⟩
  · rw [← sofar.longest, owned.owned.length_eq, List.length_range]
  · obtain ⟨before, complete⟩ := visited earlier r split
    refine ⟨complete.total, fun i v access => ?_⟩
    obtain ⟨row, info, slot, read, base, perCpuTime, filled, _⟩ := complete.recorded i v access
    have inside : i < rows.length := (List.getElem?_eq_some_iff.mp slot).1
    refine ⟨row, info, ?_, by simp only [readRow, read], by rw [filled]; rfl⟩
    rw [get_slot_spec s.slots rows owned i (Nat.lt_of_lt_of_le inside (rows_fit s.slots rows owned)), slot]

def callsOf (frames : List Frame) (n : Nat) : List Call := (frames.flatMap Frame.calls).take n

theorem frames_own_rows (hash : Hash) (frames : List Frame) (n : Nat)
    (memory : AllServed (runCalls hash (callsOf frames n)) initial) :
    (∀ m ∈ (runCalls hash (callsOf frames n) initial).trace, DistinctRows m.2.slots ∧ HeldOnce m.2.slots) ∧
      ∃ s, Walk.final (runCalls hash (callsOf frames n)) initial = .ok s ∧ RowsAfter (callsOf frames n) s ∧
        ∃ after, Walk.final procStatsExit s = .ok after ∧ after.slots.rows.size = s.slots.rows.size ∧
          after.slots.rows.FreedOnce ∧ after.slots.arrays.FreedOnce := by
  have meets := run_calls_meets hash [] (callsOf frames n) initial [] (refreshed_initial hash) (by simp [JustVisited])
  refine ⟨fun m member => ?_, ?_⟩
  · have owed := (meets memory).1 m member
    exact ⟨owed.2.1, owed.2.2.1⟩
  · obtain ⟨_, s, ran, rows, sofar, visited⟩ := Walk.meets_fault _ _ _ _ meets memory (fun _ => id)
    have exits := exit_meets (upkeep fun _ _ => True) hash s _ _ _ rows sofar.walked
    obtain ⟨_, after, exited, _, size, rowsOnce, arraysOnce⟩ :=
      Walk.meets_fault _ _ _ _ exits (fun _ _ => trivial) (fun _ => id)
    exact ⟨s, by simp only [Walk.final, ran, except_ok_map], rows_after hash _ s rows sofar visited, after,
      by simp only [Walk.final, exited, except_ok_map], size, rowsOnce, arraysOnce⟩

def keepOrder : SortFn := ⟨fun _ rows => rows, fun _ _ => List.Perm.refl _⟩

def someMemory : SysInfo := ⟨1000000, 500000, 1000, 4096, 0, 0, 2000, 0, 100⟩

def oneProcess : Frame where
  cpus := []
  refresh := ⟨⟨1, 0⟩, [servedVisit (idleTask 1 0)]⟩
  laterCpus := []
  laterRefresh := ⟨⟨2, 0⟩, [servedVisit (idleTask 1 0)]⟩
  sort := keepOrder
  si := someMemory

theorem one_process_owns_rows :
    (∀ m ∈ (runCalls (fun _ => 0) (callsOf [oneProcess] 6) initial).trace, DistinctRows m.2.slots ∧ HeldOnce m.2.slots) ∧
      ∃ s, Walk.final (runCalls (fun _ => 0) (callsOf [oneProcess] 6)) initial = .ok s ∧
        RowsAfter (callsOf [oneProcess] 6) s ∧
        ∃ after, Walk.final procStatsExit s = .ok after ∧ after.slots.rows.size = s.slots.rows.size ∧
          after.slots.rows.FreedOnce ∧ after.slots.arrays.FreedOnce :=
  frames_own_rows (fun _ => 0) [oneProcess] 6 (by decide +kernel)

def session (hash : Hash) (frames : List Frame) : W Unit := do
  Walk.forEach frames (frameMake hash)
  procStatsExit

theorem frames_meets (hash : Hash) (frames : List Frame) :
    Walk.Meets (upkeep served) (Walk.forEach frames (frameMake hash)) initial (fun _ s =>
      ∃ rows, Refreshed hash (refreshes (frames.flatMap Frame.calls)) s rows) := by
  have loop := Walk.meets_for_each (upkeep served) frames (frameMake hash) (fun done s => ∃ rows,
    Refreshed hash (refreshes (done.flatMap Frame.calls)) s rows ∧ JustVisited (done.flatMap Frame.calls) s rows) initial
    ⟨[], refreshed_initial hash, by simp [JustVisited]⟩ (by
      rintro done f rest s _ ⟨rows, sofar, visited⟩
      rw [List.flatMap_append, List.flatMap_singleton]
      exact run_calls_meets hash (done.flatMap Frame.calls) f.calls s rows sofar visited)
  apply Walk.meets_mono _ _ _ _ _ loop
  rintro _ s ⟨rows, sofar, _⟩
  exact ⟨rows, sofar⟩

def AllSamplesFreed (s : Globals) : Prop := s.tables.hsts.FreedOnce

instance (s : Globals) : Decidable (AllSamplesFreed s) := inferInstanceAs (Decidable s.tables.hsts.FreedOnce)

theorem last_samples_frames (frames : List Frame) :
    lastSamples (refreshes (frames.flatMap Frame.calls)) = [] ↔
      ∀ f, frames.getLast? = some f → f.laterRefresh.visits = [] := by
  rcases frames.eq_nil_or_concat with rfl | ⟨earlier, f, rfl⟩
  · simp [refreshes, lastSamples]
  · have split : refreshes f.calls = [f.refresh] ++ [f.laterRefresh] := rfl
    rw [List.concat_eq_append, List.flatMap_append, refreshes_append, List.flatMap_singleton, split, ← List.append_assoc, last_samples_snoc]
    simp [samplesOf]

-- proc_stats_exit empties hash_table_old only, so the samples of the last walk leak.
theorem session_frees_samples_iff (hash : Hash) (frames : List Frame) (memory : AllServed (session hash frames) initial) :
    ∃ s, Walk.final (session hash frames) initial = .ok s ∧
      (AllSamplesFreed s ↔ ∀ f, frames.getLast? = some f → f.laterRefresh.visits = []) := by
  have meets : Walk.Meets (upkeep served) (session hash frames) initial (fun _ s => ∃ start,
      Sampling hash s.tables start [] (lastSamples (refreshes (frames.flatMap Frame.calls)))) := by
    apply Walk.meets_bind
    apply Walk.meets_mono _ _ _ _ _ (frames_meets hash frames)
    rintro _ s ⟨rows, sofar⟩
    apply Walk.meets_mono _ _ _ _ _ (exit_meets (upkeep served) hash s _ _ _ rows sofar.walked)
    rintro _ after ⟨sampling, _⟩
    exact ⟨_, sampling⟩
  obtain ⟨_, s, ran, start, sampling⟩ := Walk.meets_fault _ _ _ _ meets memory (fun _ => id)
  refine ⟨s, by simp only [Walk.final, ran, except_ok_map], ?_⟩
  rw [← last_samples_frames, AllSamplesFreed, Heap.freed_once_iff]
  have size := sampling.size
  constructor
  · intro none_live
    by_contra some_sample
    obtain ⟨sample, rest, split⟩ := List.exists_cons_of_ne_nil some_sample
    have stored := sampling.newer.stored 0 sample (by rw [split]; rfl)
    exact none_live _ (Heap.read_some_live _ _ _ stored)
  · intro none_left p live
    rw [none_left] at size
    exact live.2 (sampling.gone p (by simpa [size] using live.1))

theorem one_process_frees_samples_iff :
    ∃ s, Walk.final (session (fun _ => 0) [oneProcess]) initial = .ok s ∧
      (AllSamplesFreed s ↔ ∀ f, [oneProcess].getLast? = some f → f.laterRefresh.visits = []) :=
  session_frees_samples_iff (fun _ => 0) [oneProcess] (by decide +kernel)

theorem one_process_leaks : ¬ (AllServed (session (fun _ => 0) [oneProcess]) initial →
    ∃ s, Walk.final (session (fun _ => 0) [oneProcess]) initial = .ok s ∧ AllSamplesFreed s) := by
  have leaks : (Walk.final (session (fun _ => 0) [oneProcess]) initial).map (fun s => decide (AllSamplesFreed s)) =
      .ok false := by decide +kernel
  intro claimed
  obtain ⟨s, ran, freed⟩ := claimed (by decide +kernel)
  rw [ran, except_ok_map, decide_eq_true freed] at leaks
  cases leaks

end LinuxModule.SteTop
