import LinuxModule.SteTop.FrameLoop

set_option autoImplicit false

namespace LinuxModule.SteTop

-- The kmallocs of the array and of the rows succeed; those of the samples may fail.
def Point.roomServed : Point → Bool
  | .kmalloc .hst _ => true
  | .kmalloc _ ok => ok
  | _ => true

def RoomServed {α : Type} (w : W α) (s : Globals) : Prop := ∀ m ∈ (w s).trace, m.1.roomServed = true

instance {α : Type} (w : W α) (s : Globals) : Decidable (RoomServed w s) :=
  inferInstanceAs (Decidable (∀ m ∈ (w s).trace, m.1.roomServed = true))

def roomServed : Point → Globals → Prop := fun point _ => point.roomServed = true

theorem room_served_grows (visits : List Visit) : Grows roomServed visits := fun _ _ _ _ _ _ granted _ => granted

theorem room_served_none_failed : ¬ ∃ what at_, what ≠ .hst ∧ roomServed (.kmalloc what false) at_ := by
  rintro ⟨what, _, room, failed⟩
  cases what with
  | hst => exact room rfl
  | array => exact Bool.false_ne_true failed
  | row => exact Bool.false_ne_true failed

def lastSampled (rs : List Refresh) : List Hst :=
  match rs.getLast? with
  | none => []
  | some r => visitSamples r.visits

@[simp] theorem last_sampled_snoc (rs : List Refresh) (r : Refresh) : lastSampled (rs ++ [r]) = visitSamples r.visits := by
  simp [lastSampled]

theorem last_sampled_distinct (rs : List Refresh) (distinct : ∀ r ∈ rs, (r.visits.map fun v => v.task.pid).Nodup) :
    ((lastSampled rs).map Hst.pid).Nodup := by
  rcases rs.eq_nil_or_concat with rfl | ⟨earlier, r, rfl⟩
  · exact List.nodup_nil
  · have pids : (visitSamples r.visits).map Hst.pid = (r.visits.filter Visit.hst).map fun v => v.task.pid := by
      simp [visitSamples, taskSample, Function.comp_def]
    rw [List.concat_eq_append, last_sampled_snoc, pids]
    exact (distinct r (by simp)).sublist (List.filter_sublist.map _)

def slotInfo (t : Slots) (i : Nat) : Except Fault ProcInfo := do
  let slot ← getSlot t i
  let row ← slotRow slot
  readRow row t

-- The row in slot i, or the bytes kmalloc hands out for it where there is none.
def leftover (t : Slots) (i : Nat) (row : Option ProcInfo) : Option ProcInfo :=
  match slotInfo t i with
  | .ok info => some info
  | .error _ => row

theorem slot_info_row (t : Slots) (rows : List Nat) (owned : RowsOwned t rows) (i slot : Nat) (info : ProcInfo)
    (here : rows[i]? = some slot) (read : t.rows.read slot = some info) : slotInfo t i = .ok info := by
  have inside : i < rows.length := (List.getElem?_eq_some_iff.mp here).1
  have found := get_slot_spec t rows owned i (Nat.lt_of_lt_of_le inside (rows_fit t rows owned))
  simp only [slotInfo, found, here, except_ok_bind, slotRow, readRow, read]

theorem slot_info_vacant (t : Slots) (rows : List Nat) (owned : RowsOwned t rows) (i : Nat) (vacant : rows[i]? = none) :
    ∃ fault, slotInfo t i = .error fault := by
  by_cases inside : i < t.cells.length
  · have found := get_slot_spec t rows owned i inside
    exact ⟨.nullPointer, by simp only [slotInfo, found, vacant, except_ok_bind, slotRow, except_error_bind]⟩
  · cases at_null : t.processInfo with
    | none => exact ⟨.nullPointer, by simp only [slotInfo, getSlot, slotArray, at_null, except_error_bind]⟩
    | some address =>
        cases read : t.arrays.read address with
        | none => exact ⟨.badAddress, by simp only [slotInfo, getSlot, slotArray, at_null, read, except_error_bind]⟩
        | some slots =>
            have past : slots[i]? = none := by
              rw [cells_read t address slots at_null read] at inside
              exact List.getElem?_eq_none (Nat.le_of_not_lt inside)
            exact ⟨.outOfBounds, by
              simp only [slotInfo, getSlot, slotArray, at_null, read, except_ok_bind, past, except_error_bind]⟩

theorem leftover_base (t : Slots) (rows : List Nat) (owned : RowsOwned t rows) (i : Nat) (row : Option ProcInfo) :
    leftover t i row = baseRow rows t.rows i row := by
  cases here : rows[i]? with
  | none =>
      obtain ⟨fault, vacant⟩ := slot_info_vacant t rows owned i here
      simp only [leftover, vacant, baseRow, here]
  | some slot =>
      obtain ⟨info, read⟩ := Heap.live_read _ _ ((rows_live t rows owned slot).mp (List.mem_of_getElem? here))
      simp only [leftover, slot_info_row t rows owned i slot info here read, baseRow, here, read]

section Calls

variable (hash : Hash)

theorem call_walked (done : List Call) (call : Call) (s : Globals) (start : Nat) (old : List Hst) (rows : List Nat)
    (walked : Walked hash s start old (lastSampled (refreshes done)) rows) :
    Walk.Meets (upkeep roomServed) (call.run hash) s (fun _ after => ∃ start old rows,
      Walked hash after start old (lastSampled (refreshes (done ++ [call]))) rows) := by
  have quiet : call.refresh = none → lastSampled (refreshes (done ++ [call])) = lastSampled (refreshes done) := by
    intro still
    simp [refreshes, still]
  cases call with
  | updateCpuTimes cpus =>
      apply Walk.meets_bind
      apply Walk.meets_modify
      rw [quiet rfl]
      exact Walk.meets_pure _ _ _ _ ⟨start, old, rows, walked.sampling, walked.owned⟩
  | procsRefresh r =>
      have last : lastSampled (refreshes (done ++ [.procsRefresh r])) = visitSamples r.visits := by
        simp [refreshes, Call.refresh]
      rw [last]
      apply Walk.meets_bind
      apply Walk.meets_mono _ _ _ _ _ (procs_refresh_places hash roomServed r s _ _ _ rows walked
        (room_served_grows r.visits))
      rintro _ after ⟨later, placed, kept, ⟨allPlaced, _⟩ | failed⟩
      · rw [allPlaced.samples] at kept
        exact Walk.meets_pure _ _ _ _ ⟨_, _, placed, kept⟩
      · exact absurd failed room_served_none_failed
  | sortRows sort =>
      apply Walk.meets_bind
      apply Walk.meets_mono _ _ _ _ _ (sort_rows_walked hash roomServed sort s _ _ _ rows walked)
      rintro _ after ⟨placed, kept, _⟩
      rw [quiet rfl]
      exact Walk.meets_pure _ _ _ _ ⟨_, _, placed, kept⟩
  | showProcs si =>
      apply Walk.meets_bind
      apply Walk.meets_mono _ _ _ _ _ (show_procs_walked hash roomServed si s _ _ _ rows walked)
      intro _ after kept
      rw [quiet rfl]
      exact Walk.meets_pure _ _ _ _ ⟨_, _, rows, kept⟩

theorem run_calls_walked (calls : List Call) :
    Walk.Meets (upkeep roomServed) (runCalls hash calls) initial (fun _ after => ∃ start old rows,
      Walked hash after start old (lastSampled (refreshes calls)) rows) := by
  apply Walk.meets_for_each (upkeep roomServed) calls _ (fun done at_ => ∃ start old rows,
    Walked hash at_ start old (lastSampled (refreshes done)) rows) initial
    ⟨0, [], [], sampling_initial hash, rows_initial⟩
  rintro done call rest at_ _ ⟨start, old, rows, walked⟩
  apply Walk.meets_bind
  apply Walk.meets_mono _ _ _ _ _ (call_walked hash done call at_ start old rows walked)
  intro _ after kept
  exact Walk.meets_pure _ _ _ _ kept

end Calls

def freshTime (earlier : List Call) (task : Task) : UInt64 :=
  task.utime + task.stime - (recordedTime (lastSampled (refreshes earlier)) task.pid task.comm).getD 0

-- The row of the i-th process after a call: the time used since the sample of the call
-- before where its own sample got its memory, and else what the row held before.
structure RowAfter (earlier : List Call) (before : Slots) (i : Nat) (v : Visit) (info : ProcInfo) : Prop where
  pid : info.pid = v.task.pid
  comm : info.comm = v.task.comm
  sampled : v.hst = true → info.perCpuTime = freshTime earlier v.task
  unsampled : v.hst = false → ∃ base, leftover before i v.row = some base ∧ info.perCpuTime = base.perCpuTime

theorem filled_row_after (earlier : List Call) (before : Slots) (i : Nat) (v : Visit) (base content : ProcInfo)
    (distinct : ((lastSampled (refreshes earlier)).map Hst.pid).Nodup) (found : leftover before i v.row = some base)
    (filled : Filled (lastSampled (refreshes earlier)) v base content) : RowAfter earlier before i v content := by
  by_cases served : v.hst = true
  · rw [Filled, if_pos served] at filled
    obtain ⟨perCpuTime, rfl, answer, search, used⟩ := filled
    refine ⟨rfl, rfl, fun _ => ?_, fun failed => absurd (served.symm.trans failed) (by decide)⟩
    rw [freshTime, ← found_recorded _ v.task.pid v.task.comm answer distinct search]
    exact used
  · rw [Filled, if_neg served] at filled
    rw [filled]
    exact ⟨rfl, rfl, fun taken => absurd taken served, fun _ => ⟨base, found, rfl⟩⟩

theorem placed_row_after (hash : Hash) (earlier : List Call) (before after : Globals) (visits : List Visit)
    (start start' : Nat) (old old' later new : List Hst) (rows placed : List Nat) (walked : Walked hash before start old later rows)
    (kept : Walked hash after start' old' new placed)
    (distinct : ((lastSampled (refreshes earlier)).map Hst.pid).Nodup)
    (filled : Placed (lastSampled (refreshes earlier)) before.slots.rows rows visits new placed after) (i : Nat) (v : Visit)
    (access : visits[i]? = some v) :
    ∃ info, slotInfo after.slots i = .ok info ∧ RowAfter earlier before.slots i v info := by
  obtain ⟨slot, base, content, here, found, read, left⟩ := filled.filled i v access
  rw [← leftover_base before.slots rows walked.owned] at found
  exact ⟨content, slot_info_row after.slots placed kept.owned i slot content here read,
    filled_row_after earlier before.slots i v base content distinct found left⟩

theorem refresh_after_calls (hash : Hash) (earlier : List Call) (r : Refresh)
    (memory : RoomServed (runCalls hash earlier) initial) :
    ∃ before start old rows, Walk.final (runCalls hash earlier) initial = .ok before ∧
      Walked hash before start old (lastSampled (refreshes earlier)) rows ∧
      (RoomServed (procsRefresh hash r) before → ∃ after start old new placed,
        Walk.final (procsRefresh hash r) before = .ok after ∧ Walked hash after start old new placed ∧
          Placed (lastSampled (refreshes earlier)) before.slots.rows rows r.visits new placed after) := by
  obtain ⟨_, before, ran, start, old, rows, walked⟩ := Walk.meets_fault (upkeep roomServed) _ initial _
    (run_calls_walked hash earlier) memory (fun _ => id)
  refine ⟨before, start, old, rows, by rw [Walk.final, ran]; rfl, walked, fun served => ?_⟩
  obtain ⟨_, after, refreshed, later, placed, kept, outcome⟩ := Walk.meets_fault (upkeep roomServed) _ before _
    (procs_refresh_places hash roomServed r before start old _ rows walked (room_served_grows r.visits)) served
    (fun _ => id)
  rcases outcome with ⟨allPlaced, _⟩ | failed
  · exact ⟨after, _, _, later, placed, by rw [Walk.final, refreshed]; rfl, kept, allPlaced⟩
  · exact absurd failed room_served_none_failed

theorem rows_fresh_where_sampled (hash : Hash) (earlier : List Call) (r : Refresh)
    (distinct : ∀ call ∈ refreshes earlier, (call.visits.map fun v => v.task.pid).Nodup)
    (memory : RoomServed (runCalls hash earlier) initial) :
    ∃ before, Walk.final (runCalls hash earlier) initial = .ok before ∧
      (RoomServed (procsRefresh hash r) before → ∃ after, Walk.final (procsRefresh hash r) before = .ok after ∧
        after.slots.total = r.visits.length ∧
        ∀ (i : Nat) (v : Visit), r.visits[i]? = some v → ∃ info, slotInfo after.slots i = .ok info ∧
          RowAfter earlier before.slots i v info) := by
  obtain ⟨before, start, old, rows, ran, walked, refreshed⟩ := refresh_after_calls hash earlier r memory
  refine ⟨before, ran, fun served => ?_⟩
  obtain ⟨after, _, _, new, placed, done, kept, filled⟩ := refreshed served
  exact ⟨after, done, filled.total, placed_row_after hash earlier before after r.visits _ _ _ _ _ _ rows placed walked kept
    (last_sampled_distinct _ distinct) filled⟩

-- The second process of the second call gets no sample: its row keeps the time of the
-- process that had the slot before.
def unsampledLater : Refresh where
  uptimeCur := ⟨2, 0⟩
  visits := [servedVisit { idleTask 1 0 with utime := 9, comm := [97] }, ⟨idleTask 3 0, true, none, false⟩]

theorem unsampled_row_keeps_time :
    ∃ before, Walk.final (runCalls (fun _ => 0) [.procsRefresh twoProcesses]) initial = .ok before ∧
      (RoomServed (procsRefresh (fun _ => 0) unsampledLater) before →
        ∃ after, Walk.final (procsRefresh (fun _ => 0) unsampledLater) before = .ok after ∧ after.slots.total = 2 ∧
          ∀ (i : Nat) (v : Visit), unsampledLater.visits[i]? = some v → ∃ info, slotInfo after.slots i = .ok info ∧
            RowAfter [.procsRefresh twoProcesses] before.slots i v info) :=
  rows_fresh_where_sampled (fun _ => 0) [.procsRefresh twoProcesses] unsampledLater
    (by simp [refreshes, Call.refresh, twoProcesses, servedVisit, idleTask]) (by decide +kernel)

-- The first row ever, with 77 in the bytes of per_cpu_time, and no memory for the sample.
def unsampledFirst : Refresh where
  uptimeCur := ⟨1, 0⟩
  visits := [⟨idleTask 1 0, true, some { blankRow with perCpuTime := 77 }, false⟩]

theorem unsampled_row_is_garbage :
    ¬ ∀ (hash : Hash) (earlier : List Call) (r : Refresh) (before after : Globals),
      (∀ call ∈ refreshes earlier, (call.visits.map fun v => v.task.pid).Nodup) →
      RoomServed (runCalls hash earlier) initial → Walk.final (runCalls hash earlier) initial = .ok before →
      RoomServed (procsRefresh hash r) before → Walk.final (procsRefresh hash r) before = .ok after →
      ∀ (i : Nat) (v : Visit), r.visits[i]? = some v → ∃ info, slotInfo after.slots i = .ok info ∧
        info.perCpuTime = freshTime earlier v.task := by
  intro claimed
  have shown : ((Walk.final (procsRefresh (fun _ => 0) unsampledFirst) initial).bind fun s =>
      (slotInfo s.slots 0).map ProcInfo.perCpuTime) = .ok 77 := by decide +kernel
  cases ran : Walk.final (procsRefresh (fun _ => 0) unsampledFirst) initial with
  | error fault =>
      rw [ran] at shown
      cases shown
  | ok after =>
      obtain ⟨info, read, fresh⟩ := claimed (fun _ => 0) [] unsampledFirst initial after (by simp [refreshes])
        (by decide +kernel) rfl (by decide +kernel) ran 0 _ rfl
      simp only [ran, Except.bind, read, except_ok_map, Except.ok.injEq] at shown
      rw [shown] at fresh
      exact absurd fresh (by decide)

end LinuxModule.SteTop
