import LinuxModule.CpuUsage.Snapshots
import LinuxModule.SteTop.Deltas

set_option autoImplicit false

namespace LinuxModule.ProcessCpuUsage

def Task.cpuTime (task : Task) : Nat := task.utime.toNat + task.stime.toNat

-- The processes a walk records; `who` names the process that has a pid then.
def sightings {ι : Type} (who : Pid → ι) (visits : List Visit) : List (Sighting ι Pid) :=
  (visits.filter Visit.kmalloc).map fun v => ⟨who v.task.pid, v.task.pid, v.task.cpuTime⟩

def taskInfo (task : Task) : ProcInfo := ⟨task.pid, task.utime + task.stime, task.comm⟩

theorem mem_sightings {ι : Type} (who : Pid → ι) (visits : List Visit) (a : Sighting ι Pid) :
    a ∈ sightings who visits ↔ ∃ v ∈ visits, v.kmalloc = true ∧ a = ⟨who v.task.pid, v.task.pid, v.task.cpuTime⟩ :=
  mem_map_filter Visit.kmalloc _ visits a

theorem mem_recorded (visits : List Visit) (info : ProcInfo) :
    info ∈ recorded visits ↔ ∃ v ∈ visits, v.kmalloc = true ∧ info = taskInfo v.task := by
  simp only [recorded, List.mem_filterMap, Option.ite_none_right_eq_some, Option.some.injEq]
  constructor
  · rintro ⟨v, member, given, rfl⟩
    exact ⟨v, member, given, rfl⟩
  · rintro ⟨v, member, given, rfl⟩
    exact ⟨v, member, given, rfl⟩

def PrintedDeltasBounded (log : List Report) (second : List Visit) : Prop :=
  ∀ pid comm cpuTimeDelta, .delta pid comm cpuTimeDelta ∈ log → ∀ v ∈ second, v.task.pid = pid →
    cpuTimeDelta.toNat ≤ v.task.cpuTime

theorem owed_delta (second : List ProcInfo) (info later : ProcInfo) (distinct : (second.map ProcInfo.pid).Nodup)
    (member : later ∈ second) (samePid : info.pid = later.pid) :
    owed second info = .delta info.pid info.comm (later.cpuTime - info.cpuTime) := by
  obtain ⟨found, search⟩ : ∃ found, second.find? (fun item => decide (info.pid = item.pid)) = some found :=
    Option.isSome_iff_exists.mp (List.find?_isSome.mpr ⟨later, member, by simpa using samePid⟩)
  have foundPid : info.pid = found.pid := by simpa using List.find?_some search
  obtain rfl : later = found :=
    List.inj_on_of_nodup_map distinct member (List.mem_of_find?_eq_some search) (samePid.symm.trans foundPid)
  rw [owed, search, reportOf]

theorem delta_owed (second : List ProcInfo) (info : ProcInfo) (pid : Pid) (comm : List UInt8) (cpuTimeDelta : UInt64)
    (report : owed second info = .delta pid comm cpuTimeDelta) :
    ∃ later ∈ second, info.pid = pid ∧ later.pid = pid ∧ cpuTimeDelta = later.cpuTime - info.cpuTime := by
  rw [owed] at report
  cases search : second.find? fun later => decide (info.pid = later.pid) with
  | none =>
      rw [search] at report
      cases report
  | some later =>
      rw [search] at report
      cases report
      have samePid : info.pid = later.pid := by simpa using List.find?_some search
      exact ⟨later, List.mem_of_find?_eq_some search, rfl, samePid.symm, rfl⟩

theorem printed_deltas_bounded_iff {ι : Type} (log : List Report) (first second : List Visit) (before now : Pid → ι)
    (secondDistinct : (second.map fun visit => visit.task.pid).Nodup)
    (law : Sighting.NonDecreasing (sightings before first) (sightings now second))
    (reports : log.Perm ((recorded first).map (owed (recorded second)))) :
    PrintedDeltasBounded log second ↔ Sighting.NoTakeover (sightings before first) (sightings now second) := by
  have distinct := recorded_distinct second secondDistinct
  have compared : ∀ w v : Task, ((taskInfo v).cpuTime - (taskInfo w).cpuTime).toNat ≤ v.cpuTime ↔
      Sighting.InStep w.cpuTime v.cpuTime := fun w v =>
    Sighting.difference_in_step_iff _ _ _ _
  rw [Sighting.no_takeover_iff _ _ law]
  constructor
  · intro bounded a member b memberNow key
    obtain ⟨w, visited, given, rfl⟩ := (mem_sightings before _ a).mp member
    obtain ⟨v, visitedNow, givenNow, rfl⟩ := (mem_sightings now _ b).mp memberNow
    have report := owed_delta (recorded second) (taskInfo w.task) (taskInfo v.task) distinct
      ((mem_recorded second _).mpr ⟨v, visitedNow, givenNow, rfl⟩) key
    refine (compared w.task v.task).mp (bounded w.task.pid w.task.comm _ ?_ v visitedNow key.symm)
    rw [reports.mem_iff, List.mem_map]
    exact ⟨_, (mem_recorded first _).mpr ⟨w, visited, given, rfl⟩, report⟩
  · intro none pid comm cpuTimeDelta printed v visitedNow samePid
    rw [reports.mem_iff, List.mem_map] at printed
    obtain ⟨info, member, report⟩ := printed
    obtain ⟨later, memberNow, infoPid, laterPid, rfl⟩ := delta_owed _ _ _ _ _ report
    obtain ⟨w, visited, given, rfl⟩ := (mem_recorded first info).mp member
    obtain ⟨v', visited', given', rfl⟩ := (mem_recorded second later).mp memberNow
    obtain rfl : v' = v := List.inj_on_of_nodup_map secondDistinct visited' visitedNow (laterPid.trans samePid.symm)
    exact (compared w.task v'.task).mpr (none _ ((mem_sightings before _ _).mpr ⟨w, visited, given, rfl⟩) _
      ((mem_sightings now _ _).mpr ⟨v', visited', given', rfl⟩) (infoPid.trans samePid.symm))

end LinuxModule.ProcessCpuUsage

namespace LinuxModule

-- who says which process has a pid when a module looks: at the two samples that are
-- compared by ste_top, and in the two walks of process_cpu_usage.
theorem deltas_bounded_iff {ι : Type} (hash : SteTop.Hash) (earlier : List SteTop.Call) (r : SteTop.Refresh)
    (whoBefore whoNow : SteTop.Pid → ι)
    (distinct : ∀ call ∈ SteTop.refreshes earlier, (call.visits.map fun v => v.task.pid).Nodup)
    (law : Sighting.NonDecreasing (SteTop.sightings whoBefore (SteTop.lastVisits (SteTop.refreshes earlier)))
      (SteTop.sightings whoNow r.visits))
    (memory : SteTop.RoomServed (SteTop.runCalls hash earlier) SteTop.initial) (bucket : ProcessCpuUsage.Hash)
    (first second : List ProcessCpuUsage.Visit) (whoFirst whoSecond : ProcessCpuUsage.Pid → ι)
    (secondDistinct : (second.map fun visit => visit.task.pid).Nodup)
    (walkLaw : Sighting.NonDecreasing (ProcessCpuUsage.sightings whoFirst first)
      (ProcessCpuUsage.sightings whoSecond second)) :
    (∃ s, Walk.final (SteTop.runCalls hash earlier) SteTop.initial = .ok s ∧
      (SteTop.RoomServed (SteTop.procsRefresh hash r) s →
        ∃ after, Walk.final (SteTop.procsRefresh hash r) s = .ok after ∧
          (SteTop.RowDeltasBounded r after ↔ Sighting.NoTakeover
            (SteTop.sightings whoBefore (SteTop.lastVisits (SteTop.refreshes earlier)))
            (SteTop.sightings whoNow r.visits)))) ∧
      ∃ running, ProcessCpuUsage.cpuUsageInit bucket first second ProcessCpuUsage.loaded = .ok running ∧
        (ProcessCpuUsage.PrintedDeltasBounded running.log second ↔ Sighting.NoTakeover
          (ProcessCpuUsage.sightings whoFirst first) (ProcessCpuUsage.sightings whoSecond second)) := by
  obtain ⟨running, ran, reports, _, _⟩ := ProcessCpuUsage.cpu_usage_init_spec bucket first second secondDistinct
  exact ⟨SteTop.row_deltas_bounded_iff hash earlier r whoBefore whoNow distinct law memory, running, ran,
    ProcessCpuUsage.printed_deltas_bounded_iff running.log first second whoFirst whoSecond secondDistinct walkLaw reports⟩

def walkOf (utime : UInt64) : List ProcessCpuUsage.Visit := [⟨⟨1, utime, 0, []⟩, true⟩]

-- Every process keeps its pid; one of them changes its name.
theorem kept_pids_bounded :
    (∃ s, Walk.final (SteTop.runCalls (fun _ => 0) [.procsRefresh SteTop.twoProcesses]) SteTop.initial = .ok s ∧
      (SteTop.RoomServed (SteTop.procsRefresh (fun _ => 0) SteTop.renamedProcess) s →
        ∃ after, Walk.final (SteTop.procsRefresh (fun _ => 0) SteTop.renamedProcess) s = .ok after ∧
          SteTop.RowDeltasBounded SteTop.renamedProcess after)) ∧
      ∃ running, ProcessCpuUsage.cpuUsageInit (fun _ => 0) (walkOf 5) (walkOf 9) ProcessCpuUsage.loaded = .ok running ∧
        ProcessCpuUsage.PrintedDeltasBounded running.log (walkOf 9) := by
  obtain ⟨⟨s, ran, refreshed⟩, running, done, printed⟩ :=
    deltas_bounded_iff (fun _ => 0) [.procsRefresh SteTop.twoProcesses] SteTop.renamedProcess id id
      (by simp [SteTop.refreshes, SteTop.Call.refresh, SteTop.twoProcesses, SteTop.servedVisit, SteTop.idleTask])
      (by decide) (by decide +kernel) (fun _ => 0) (walkOf 5) (walkOf 9) id id (by decide) (by decide)
  refine ⟨⟨s, ran, fun served => ?_⟩, running, done, printed.mpr (by decide)⟩
  obtain ⟨after, last, bounded⟩ := refreshed served
  exact ⟨after, last, bounded.mpr (by decide)⟩

-- A process of 100 ns has exited, and pid 1 and its name belong to another one of 5 ns.
def exitedProcess : SteTop.Refresh where
  uptimeCur := ⟨1, 0⟩
  visits := [SteTop.servedVisit { SteTop.idleTask 1 0 with utime := 100 }]

def reusedPid : SteTop.Refresh where
  uptimeCur := ⟨2, 0⟩
  visits := [SteTop.servedVisit { SteTop.idleTask 1 0 with utime := 5 }]

theorem reused_pid_wraps :
    (¬ ∀ (hash : SteTop.Hash) (earlier : List SteTop.Call) (r : SteTop.Refresh) (whoBefore whoNow : SteTop.Pid → Nat)
        (after : SteTop.Globals),
        (∀ call ∈ SteTop.refreshes earlier, (call.visits.map fun v => v.task.pid).Nodup) →
        Sighting.NonDecreasing (SteTop.sightings whoBefore (SteTop.lastVisits (SteTop.refreshes earlier)))
          (SteTop.sightings whoNow r.visits) →
        SteTop.RoomServed (SteTop.runCalls hash (earlier ++ [.procsRefresh r])) SteTop.initial →
        Walk.final (SteTop.runCalls hash (earlier ++ [.procsRefresh r])) SteTop.initial = .ok after →
        SteTop.RowDeltasBounded r after) ∧
      ¬ ∀ (bucket : ProcessCpuUsage.Hash) (first second : List ProcessCpuUsage.Visit)
        (whoFirst whoSecond : ProcessCpuUsage.Pid → Nat) (running : ProcessCpuUsage.State),
        (second.map fun visit => visit.task.pid).Nodup →
        Sighting.NonDecreasing (ProcessCpuUsage.sightings whoFirst first)
          (ProcessCpuUsage.sightings whoSecond second) →
        ProcessCpuUsage.cpuUsageInit bucket first second ProcessCpuUsage.loaded = .ok running →
        ProcessCpuUsage.PrintedDeltasBounded running.log second := by
  constructor
  · intro claimed
    have shown : ((Walk.final (SteTop.runCalls (fun _ => 0) [.procsRefresh exitedProcess, .procsRefresh reusedPid])
        SteTop.initial).bind fun s => (SteTop.slotInfo s.slots 0).map SteTop.ProcInfo.perCpuTime) =
          .ok 18446744073709551521 := by decide +kernel
    cases ran : Walk.final (SteTop.runCalls (fun _ => 0) [.procsRefresh exitedProcess, .procsRefresh reusedPid])
        SteTop.initial with
    | error fault =>
        rw [ran] at shown
        cases shown
    | ok after =>
        obtain ⟨info, read, bounded⟩ := claimed (fun _ => 0) [.procsRefresh exitedProcess] reusedPid (fun _ => 0)
          (fun _ => 1) after (by simp [SteTop.refreshes, SteTop.Call.refresh, exitedProcess]) (by decide)
          (by decide +kernel) ran 0 _ rfl rfl
        simp only [ran, Except.bind, read, except_ok_map, Except.ok.injEq] at shown
        rw [shown] at bounded
        exact absurd bounded (by decide)
  · intro claimed
    have logged : (ProcessCpuUsage.cpuUsageInit (fun _ => 0) (walkOf 100) (walkOf 5) ProcessCpuUsage.loaded).map
        ProcessCpuUsage.State.log = .ok [.delta 1 [] 18446744073709551521] := by decide +kernel
    obtain ⟨running, ran, log⟩ := (except_map_ok _ _ _).mp logged
    have bounded := claimed (fun _ => 0) (walkOf 100) (walkOf 5) (fun _ => 0) (fun _ => 1) running (by decide)
      (by decide) ran
    exact absurd (bounded 1 [] 18446744073709551521 (by simp [log]) _ List.mem_cons_self rfl) (by decide)

end LinuxModule
