import LinuxModule.SteTop.Exit
import Mathlib.Data.List.Sort

set_option autoImplicit false

namespace LinuxModule.SteTop

-- The calls that several writers make, in the order they run, each with its writer.
abbrev Schedule := List (Nat × Call)

def ownCalls (i : Nat) (schedule : Schedule) : List Call :=
  schedule.filterMap fun step => if step.1 = i then some step.2 else none

-- Every writer is somewhere in its own frame_make.
def Interleaving (frames : Nat → Frame) (schedule : Schedule) : Prop :=
  ∀ i, ownCalls i schedule <+: (frames i).calls

def runSchedule (hash : Hash) (schedule : Schedule) : W Unit := runCalls hash (schedule.map Prod.snd)

-- A comparison sort() can be used with: total and transitive.
structure Comparison {α : Type} (cmp : α → α → Int) : Prop where
  total : ∀ a b, cmp a b ≤ 0 ∨ cmp b a ≤ 0
  trans : ∀ a b c, cmp a b ≤ 0 → cmp b c ≤ 0 → cmp a c ≤ 0

-- What sort() is documented to do with one.
def SortFn.Sorts (sort : SortFn) : Prop :=
  ∀ cmp, Comparison cmp → ∀ rows, (sort.order cmp rows).Pairwise (fun a b => cmp a.1 b.1 ≤ 0)

def NonIncreasing (infos : List ProcInfo) : Prop := infos.Pairwise (fun a b => compareProcInfo a b ≤ 0)

theorem compare_proc_info_le (p1 p2 : ProcInfo) :
    compareProcInfo p1 p2 ≤ 0 ↔ p2.perCpuTime + p2.resident ≤ p1.perCpuTime + p1.resident := by
  rw [compareProcInfo]
  split
  · rename_i below
    simp [UInt64.not_le.mpr below]
  · rename_i above
    have holds := UInt64.not_lt.mp above
    split <;> simp [holds]

theorem compare_proc_info_comparison : Comparison compareProcInfo where
  total a b := by
    rw [compare_proc_info_le, compare_proc_info_le]
    exact UInt64.le_total _ _
  trans a b c := by
    rw [compare_proc_info_le, compare_proc_info_le, compare_proc_info_le]
    exact fun ab bc => UInt64.le_trans bc ab

def Reordered (t next : Slots) : Prop :=
  ∃ infos placed, shownRows t = .ok infos ∧ shownRows next = .ok placed ∧ placed.Perm infos ∧ NonIncreasing placed

theorem sort_reorders (sort : SortFn) (sorts : sort.Sorts) (t next : Slots) (ran : sortSlots sort t = .ok next) :
    Reordered t next := by
  obtain ⟨rows, infos, before, after, length, _⟩ := sort_slots_shows sort t next ran
  refine ⟨infos, _, before, after, ?_, ?_⟩
  · have permuted := (sort.permutes compareProcInfo (infos.zip rows)).map Prod.fst
    rwa [List.map_fst_zip (Nat.le_of_eq length)] at permuted
  · exact List.pairwise_map.mpr (sorts compareProcInfo compare_proc_info_comparison _)

theorem reordered_trans (t middle next : Slots) (first : Reordered t middle) (second : Reordered middle next) :
    Reordered t next := by
  obtain ⟨infos, placed, before, here, permuted, _⟩ := first
  obtain ⟨_, last, again, after, later, ordered⟩ := second
  obtain rfl := Except.ok.inj (here.symm.trans again)
  exact ⟨infos, last, before, after, later.trans permuted, ordered⟩

theorem show_procs_shows (si : SysInfo) (s after : Globals) (shown : Shown)
    (ran : (showProcs si s).result = .ok (shown, after)) :
    ∃ infos, shownRows s.slots = .ok infos ∧ shown.rows = infos.map (rowLine s.et si.kbMemTotal) ∧
      after.slots = s.slots ∧ after.et = s.et := by
  rw [showProcs, Walk.bind_ok _ _ s { s with kbMemTotal := si.kbMemTotal } () [] rfl,
    Walk.bind_ok _ _ _ _ _ [] rfl] at ran
  cases read : shownRows s.slots with
  | error fault =>
      rw [Walk.bind_error _ _ _ fault [] (by simp only [onSlots, Walk.act, read]; rfl)] at ran
      cases ran
  | ok infos =>
      rw [Walk.bind_ok _ _ _ { s with kbMemTotal := si.kbMemTotal } infos []
        (by simp only [onSlots, Walk.act, read, except_ok_map])] at ran
      cases ran
      exact ⟨infos, rfl, rfl, rfl, rfl⟩

theorem show_procs_runs (si : SysInfo) (s : Globals) (infos : List ProcInfo) (read : shownRows s.slots = .ok infos) :
    ∃ after shown, (showProcs si s).result = .ok (shown, after) := by
  rw [showProcs, Walk.bind_ok _ _ s { s with kbMemTotal := si.kbMemTotal } () [] rfl,
    Walk.bind_ok _ _ _ _ _ [] rfl, Walk.bind_ok _ _ _ { s with kbMemTotal := si.kbMemTotal } infos []
      (by simp only [onSlots, Walk.act, read, except_ok_map])]
  exact ⟨_, _, rfl⟩

def Call.sort : Call → Option SortFn
  | .sortRows sort => some sort
  | _ => none

theorem quiet_call (hash : Hash) (call : Call) (s after : Globals) (ran : Walk.final (call.run hash) s = .ok after)
    (quiet : call.refresh = none) (sorts : ∀ sort, call.sort = some sort → sort.Sorts) :
    after.et = s.et ∧ (call.sort = none → after.slots = s.slots) ∧ (call.sort ≠ none → Reordered s.slots after.slots) := by
  cases call with
  | updateCpuTimes cpus =>
      obtain rfl := Except.ok.inj ran
      exact ⟨rfl, fun _ => rfl, fun impossible => absurd rfl impossible⟩
  | procsRefresh r => simp [Call.refresh] at quiet
  | sortRows sort =>
      obtain ⟨_, next, sorted, same⟩ := (Walk.final_bind _ _ s after).mp ran
      obtain rfl := Except.ok.inj same
      obtain ⟨_, slots, ordered, rfl⟩ :=
        final_on_slots _ s next (by rw [← sortRows, Walk.final, sorted, except_ok_map])
      obtain ⟨_, result, same⟩ := (except_map_ok _ _ _).mp ordered
      obtain rfl := (Prod.mk.inj same).2
      exact ⟨rfl, fun impossible => absurd impossible (by simp [Call.sort]),
        fun _ => sort_reorders sort (sorts sort rfl) s.slots _ result⟩
  | showProcs si =>
      obtain ⟨_, next, shown, same⟩ := (Walk.final_bind _ _ s after).mp ran
      obtain rfl := Except.ok.inj same
      obtain ⟨_, _, _, sameSlots, sameEt⟩ := show_procs_shows si s next _ shown
      exact ⟨sameEt, fun _ => sameSlots, fun impossible => absurd rfl impossible⟩

theorem quiet_calls (hash : Hash) (calls : List Call) (s after : Globals)
    (ran : Walk.final (runCalls hash calls) s = .ok after) (quiet : ∀ call ∈ calls, call.refresh = none)
    (sorts : ∀ call ∈ calls, ∀ sort, call.sort = some sort → sort.Sorts) :
    after.et = s.et ∧ (after.slots = s.slots ∧ (∀ call ∈ calls, call.sort = none) ∨ Reordered s.slots after.slots) := by
  induction calls generalizing s with
  | nil =>
      obtain rfl := Except.ok.inj ran
      exact ⟨rfl, .inl ⟨rfl, by simp⟩⟩
  | cons call rest ih =>
      obtain ⟨next, first, later⟩ := (Walk.final_for_each_cons call rest _ s after).mp ran
      obtain ⟨_, middle, step, same⟩ := (Walk.final_bind _ _ s next).mp first
      obtain rfl := Except.ok.inj same
      obtain ⟨sameEt, still, reorders⟩ := quiet_call hash call s middle (by rw [Walk.final, step, except_ok_map])
        (quiet call (by simp)) (sorts call (by simp))
      obtain ⟨restEt, rest_⟩ := ih middle later (fun c member => quiet c (by simp [member]))
        (fun c member => sorts c (by simp [member]))
      refine ⟨restEt.trans sameEt, ?_⟩
      by_cases sorted : call.sort = none
      · rcases rest_ with ⟨sameSlots, none_sorts⟩ | moved
        · exact .inl ⟨sameSlots.trans (still sorted), by simpa [sorted] using none_sorts⟩
        · exact .inr (still sorted ▸ moved)
      · rcases rest_ with ⟨sameSlots, _⟩ | moved
        · exact .inr (sameSlots ▸ reorders sorted)
        · exact .inr (reordered_trans _ _ _ (reorders sorted) moved)

-- A show() step and the procs_refresh that should be behind it: what it prints are
-- the rows recorded there, in order, and with the et of that walk.
def PrintsRows (hash : Hash) (first : Schedule) (i : Nat) (r : Refresh) (between : Schedule) (si : SysInfo) : Prop :=
  ∀ s after shown, Walk.final (runSchedule hash (first ++ (i, .procsRefresh r) :: between)) initial = .ok s →
    (showProcs si s).result = .ok (shown, after) →
    ∃ recorded infos rows, Walk.final (runSchedule hash (first ++ [(i, .procsRefresh r)])) initial = .ok recorded ∧
      shownRows recorded.slots = .ok infos ∧ rows.Perm infos ∧ NonIncreasing rows ∧
      shown.rows = rows.map (rowLine recorded.et si.kbMemTotal)

theorem prints_rows (hash : Hash) (first : Schedule) (i : Nat) (r : Refresh) (between : Schedule) (si : SysInfo)
    (quiet : ∀ step ∈ between, step.2.refresh = none)
    (sorts : ∀ step ∈ between, ∀ sort, step.2.sort = some sort → sort.Sorts)
    (sorted : ∃ step ∈ between, step.2.sort ≠ none) : PrintsRows hash first i r between si := by
  intro s after shown ran printed
  have split : (first ++ (i, .procsRefresh r) :: between).map Prod.snd =
      (first ++ [(i, Call.procsRefresh r)]).map Prod.snd ++ between.map Prod.snd := by simp
  rw [runSchedule, split] at ran
  obtain ⟨recorded, before, later⟩ := (Walk.final_for_each_append _ _ _ initial s).mp ran
  obtain ⟨sameEt, moved⟩ := quiet_calls hash (between.map Prod.snd) recorded s later
    (by simpa using fun call j member => quiet (j, call) member) (by simpa using fun call j member => sorts (j, call) member)
  obtain ⟨placed, here, lines, _⟩ := show_procs_shows si s after shown printed
  rcases moved with ⟨_, none_sorts⟩ | ⟨infos, rows, shownThen, shownNow, permuted, ordered⟩
  · obtain ⟨step, member, isSort⟩ := sorted
    exact absurd (none_sorts step.2 (List.mem_map_of_mem member)) isSort
  · obtain rfl := Except.ok.inj (shownNow.symm.trans here)
    exact ⟨recorded, infos, rows, before, shownThen, permuted, ordered, by rw [lines, sameEt]⟩

theorem own_calls_split (i : Nat) (schedule : Schedule) (earlier later : List Call) (call : Call)
    (own : ownCalls i schedule = earlier ++ call :: later) :
    ∃ first between, schedule = first ++ (i, call) :: between ∧ ownCalls i first = earlier ∧ ownCalls i between = later := by
  obtain ⟨first, rest, rfl, sameFirst, sameRest⟩ := List.filterMap_eq_append_iff.mp own
  obtain ⟨skipped, step, between, rfl, others, here, sameBetween⟩ := List.filterMap_eq_cons_iff.mp sameRest
  obtain ⟨mine, rfl⟩ : step.1 = i ∧ step.2 = call := by simpa using here
  refine ⟨first ++ skipped, between, by simp [← mine], ?_, sameBetween⟩
  rw [ownCalls, List.filterMap_append, sameFirst, List.filterMap_eq_nil_iff.mpr others, List.append_nil]

theorem mem_own_calls (i : Nat) (schedule : Schedule) (call : Call) : call ∈ ownCalls i schedule ↔ (i, call) ∈ schedule := by
  simp [ownCalls]

theorem calls_before_show (f : Frame) (earlier later : List Call) (si : SysInfo)
    (own : earlier ++ .showProcs si :: later <+: f.calls) :
    earlier = [.updateCpuTimes f.cpus, .procsRefresh f.refresh, .updateCpuTimes f.laterCpus] ++
      .procsRefresh f.laterRefresh :: [.sortRows f.sort] := by
  obtain ⟨rest, whole⟩ := own
  rw [Frame.calls] at whole
  rcases earlier with _ | ⟨a, _ | ⟨b, _ | ⟨c, _ | ⟨d, _ | ⟨e, _ | ⟨g, more⟩⟩⟩⟩⟩⟩ <;> simp_all

theorem schedule_shows (hash : Hash) (schedule : Schedule) (si : SysInfo)
    (memory : AllServed (runSchedule hash schedule) initial) :
    ∃ s after shown, Walk.final (runSchedule hash schedule) initial = .ok s ∧
      (showProcs si s).result = .ok (shown, after) := by
  have meets := run_calls_meets hash [] (schedule.map Prod.snd) initial [] (refreshed_initial hash) (by simp [JustVisited])
  obtain ⟨_, s, ran, rows, sofar, _⟩ := Walk.meets_fault _ _ _ _ meets memory (fun _ => id)
  obtain ⟨infos, shown⟩ := shown_rows_owned s.slots rows sofar.walked.owned
  obtain ⟨after, printed, result⟩ := show_procs_runs si s infos shown
  exact ⟨s, after, printed, by rw [runSchedule, Walk.final, ran, except_ok_map], result⟩

-- Every show() of every interleaving comes after the second procs_refresh of its own
-- frame; when no other writer refreshed in between, it prints the rows of that walk.
theorem show_prints_own_rows (hash : Hash) (frames : Nat → Frame) (schedule before rest : Schedule) (i : Nat) (si : SysInfo)
    (interleaved : Interleaving frames schedule) (sorts : ∀ j, (frames j).sort.Sorts)
    (split : schedule = before ++ (i, .showProcs si) :: rest) :
    ∃ first between, before = first ++ (i, .procsRefresh (frames i).laterRefresh) :: between ∧
      (∀ r, (i, .procsRefresh r) ∉ between) ∧
      (AllServed (runSchedule hash before) initial → ∃ s after shown,
        Walk.final (runSchedule hash before) initial = .ok s ∧ (showProcs si s).result = .ok (shown, after)) ∧
      ((∀ j r, j ≠ i → (j, .procsRefresh r) ∉ between) → PrintsRows hash first i (frames i).laterRefresh between si) := by
  have own := interleaved i
  have mine : ownCalls i schedule = ownCalls i before ++ .showProcs si :: ownCalls i rest := by
    simp [split, ownCalls]
  rw [mine] at own
  obtain ⟨first, between, rfl, _, later⟩ := own_calls_split i before _ _ _ (calls_before_show (frames i) _ _ si own)
  have none_own : ∀ r, (i, .procsRefresh r) ∉ between := by
    intro r member
    simpa [later] using (mem_own_calls i between _).mpr member
  refine ⟨first, between, rfl, none_own, schedule_shows hash _ si, fun none_other => prints_rows hash first i _ between si ?_ ?_ ?_⟩
  · rintro ⟨j, call⟩ member
    cases call with
    | procsRefresh r =>
        by_cases same : j = i
        · exact absurd (same ▸ member) (none_own r)
        · exact absurd member (none_other j r same)
    | _ => rfl
  · rintro ⟨j, call⟩ member sort isSort
    have called : call ∈ (frames j).calls :=
      (interleaved j).subset ((mem_own_calls j schedule call).mpr (by simp [split, member]))
    cases call with
    | sortRows chosen =>
        obtain rfl : chosen = sort := Option.some.inj isSort
        obtain rfl : chosen = (frames j).sort := by simpa [Frame.calls] using called
        exact sorts j
    | _ => simp [Call.sort] at isSort
  · exact ⟨(i, .sortRows (frames i).sort), (mem_own_calls i between _).mp (by simp [later]), by simp [Call.sort]⟩

def stableSort : SortFn where
  order cmp rows := rows.insertionSort (fun a b => cmp a.1 b.1 ≤ 0)
  permutes _ rows := List.perm_insertionSort _ rows

theorem stable_sort_sorts : stableSort.Sorts := by
  intro cmp comparison rows
  have total : Std.Total (fun a b : ProcInfo × Nat => cmp a.1 b.1 ≤ 0) := ⟨fun a b => comparison.total a.1 b.1⟩
  have trans : IsTrans (ProcInfo × Nat) (fun a b => cmp a.1 b.1 ≤ 0) := ⟨fun a b c => comparison.trans a.1 b.1 c.1⟩
  exact List.pairwise_insertionSort _ rows

def writerFrame (i : Nat) : Frame where
  cpus := []
  refresh := ⟨⟨1, 0⟩, (List.range (i + 1)).map fun k => servedVisit (idleTask k 0)⟩
  laterCpus := []
  laterRefresh := ⟨⟨2, 0⟩, (List.range (i + 1)).map fun k => servedVisit (idleTask k 0)⟩
  sort := stableSort
  si := someMemory

def ownStart : Schedule := ((writerFrame 0).calls.take 3).map fun call => (0, call)

def overlapped : Schedule :=
  (0, .sortRows stableSort) :: ((writerFrame 1).calls.take 2).map fun call => (1, call)

def overlap : Schedule :=
  ownStart ++ (0, .procsRefresh (writerFrame 0).laterRefresh) :: overlapped ++ [(0, .showProcs someMemory)]

theorem overlap_interleaves : Interleaving writerFrame overlap := by
  intro i
  match i with
  | 0 => exact List.prefix_rfl
  | 1 => exact ⟨(writerFrame 1).calls.drop 2, rfl⟩
  | i + 2 => exact List.nil_prefix

-- Writer 1 walks between the sort and the show of writer 0, and writer 0 prints its rows.
theorem overlap_mixes_writers :
    Interleaving writerFrame overlap ∧ (∀ j, (writerFrame j).sort.Sorts) ∧
      overlap = ownStart ++ (0, .procsRefresh (writerFrame 0).laterRefresh) :: overlapped ++ [(0, .showProcs someMemory)] ∧
      (∀ r, (0, .procsRefresh r) ∉ overlapped) ∧
      ¬ PrintsRows (fun _ => 0) ownStart 0 (writerFrame 0).laterRefresh overlapped someMemory := by
  refine ⟨overlap_interleaves, fun _ => stable_sort_sorts, rfl, by simp [overlapped, Frame.calls], fun claimed => ?_⟩
  have printed : ((Walk.final (runSchedule (fun _ => 0)
      (ownStart ++ (0, .procsRefresh (writerFrame 0).laterRefresh) :: overlapped)) initial).bind
      fun s => (showProcs someMemory s).result.map fun out => out.1.rows.length) = .ok 2 := by decide +kernel
  have own : ((Walk.final (runSchedule (fun _ => 0)
      (ownStart ++ [(0, .procsRefresh (writerFrame 0).laterRefresh)])) initial).bind
      fun s => (shownRows s.slots).map List.length) = .ok 1 := by decide +kernel
  cases ran : Walk.final (runSchedule (fun _ => 0)
      (ownStart ++ (0, .procsRefresh (writerFrame 0).laterRefresh) :: overlapped)) initial with
  | error fault =>
      rw [ran] at printed
      cases printed
  | ok s =>
      rw [ran] at printed
      cases result : (showProcs someMemory s).result with
      | error fault =>
          simp only [Except.bind, result] at printed
          cases printed
      | ok out =>
          obtain ⟨recorded, infos, rows, before, shown, permuted, _, lines⟩ := claimed s out.2 out.1 ran result
          simp only [Except.bind, result, except_ok_map, Except.ok.injEq, lines, List.length_map] at printed
          simp only [before, Except.bind, shown, except_ok_map, Except.ok.injEq] at own
          have length := permuted.length_eq
          omega

-- Writer 1 sleeps through the end of the frame of writer 0.
def quietStart : Schedule := ((writerFrame 1).calls.take 2).map (fun call => (1, call)) ++ ownStart

def quietRest : Schedule := [(0, .sortRows stableSort), (1, .updateCpuTimes [])]

theorem quiet_writer_prints_own_rows :
    ∃ first between, quietStart ++ (0, .procsRefresh (writerFrame 0).laterRefresh) :: quietRest =
        first ++ (0, .procsRefresh (writerFrame 0).laterRefresh) :: between ∧
      (∀ r, (0, .procsRefresh r) ∉ between) ∧
      (AllServed (runSchedule (fun _ => 0)
          (quietStart ++ (0, .procsRefresh (writerFrame 0).laterRefresh) :: quietRest)) initial →
        ∃ s after shown, Walk.final (runSchedule (fun _ => 0)
          (quietStart ++ (0, .procsRefresh (writerFrame 0).laterRefresh) :: quietRest)) initial = .ok s ∧
          (showProcs someMemory s).result = .ok (shown, after)) ∧
      ((∀ j r, j ≠ 0 → (j, .procsRefresh r) ∉ between) →
        PrintsRows (fun _ => 0) first 0 (writerFrame 0).laterRefresh between someMemory) :=
  show_prints_own_rows (fun _ => 0) writerFrame _ _ [] 0 someMemory
    (by
      intro i
      match i with
      | 0 => exact List.prefix_rfl
      | 1 => exact ⟨(writerFrame 1).calls.drop 3, rfl⟩
      | i + 2 => exact List.nil_prefix)
    (fun _ => stable_sort_sorts) rfl

end LinuxModule.SteTop
