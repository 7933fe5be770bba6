import LinuxModule.SteTop.FreshRows
import LinuxModule.Base.Sightings

set_option autoImplicit false

namespace LinuxModule.SteTop

def Task.cpuTime (task : Task) : Nat := task.utime.toNat + task.stime.toNat

-- The processes a call takes samples of; `who` names the process that has a pid then.
def sightings {ι : Type} (who : Pid → ι) (visits : List Visit) : List (Sighting ι (Pid × Comm)) :=
  (visits.filter Visit.hst).map fun v => ⟨who v.task.pid, (v.task.pid, v.task.comm), v.task.cpuTime⟩

def lastVisits (rs : List Refresh) : List Visit :=
  match rs.getLast? with
  | none => []
  | some r => r.visits

theorem last_sampled_visits (rs : List Refresh) : lastSampled rs = visitSamples (lastVisits rs) := by
  rw [lastSampled, lastVisits]
  cases rs.getLast? <;> rfl

theorem recorded_time_found (samples : List Hst) (pid : Pid) (comm : Comm) :
    Found samples pid comm (recordedTime samples pid comm) := by
  rw [recordedTime]
  cases search : samples.find? (fun item => item.pid = pid ∧ item.comm = comm) with
  | none => exact fun item member same => by simpa [same] using List.find?_eq_none.mp search item member
  | some item =>
      have matched : item.pid = pid ∧ item.comm = comm := by simpa using List.find?_some search
      exact ⟨item, List.mem_of_find?_eq_some search, matched.1, matched.2, rfl⟩

theorem mem_sightings {ι : Type} (who : Pid → ι) (visits : List Visit) (a : Sighting ι (Pid × Comm)) :
    a ∈ sightings who visits ↔ ∃ v ∈ visits, v.hst = true ∧
      a = ⟨who v.task.pid, (v.task.pid, v.task.comm), v.task.cpuTime⟩ :=
  mem_map_filter Visit.hst _ visits a

-- The sample a visit is compared with is that of the one process of the call before
-- with its pid and comm.
theorem fresh_time_bounded_iff {ι : Type} (who : Pid → ι) (earlier : List Call) (task : Task)
    (distinct : ((lastSampled (refreshes earlier)).map Hst.pid).Nodup) :
    (freshTime earlier task).toNat ≤ task.cpuTime ↔
      ∀ a ∈ sightings who (lastVisits (refreshes earlier)), a.key = (task.pid, task.comm) →
        Sighting.InStep a.cpuTime task.cpuTime := by
  have answer := recorded_time_found (lastSampled (refreshes earlier)) task.pid task.comm
  rw [freshTime]
  cases found : recordedTime (lastSampled (refreshes earlier)) task.pid task.comm with
  | none =>
      rw [found] at answer
      have whole : (task.utime + task.stime - (none : Option UInt64).getD 0).toNat ≤ task.cpuTime := by
        change (task.utime + task.stime - 0).toNat ≤ _
        rw [UInt64.sub_zero, UInt64.toNat_add]
        exact Nat.mod_le _ _
      refine ⟨fun _ a member key => ?_, fun _ => whole⟩
      obtain ⟨w, visited, served, rfl⟩ := (mem_sightings who _ a).mp member
      obtain ⟨samePid, sameComm⟩ := Prod.mk.inj key
      refine absurd ⟨samePid, sameComm⟩ (answer (taskSample w.task) ?_)
      rw [last_sampled_visits]
      exact List.mem_map.mpr ⟨w, List.mem_filter.mpr ⟨visited, served⟩, rfl⟩
  | some before =>
      rw [found] at answer
      obtain ⟨item, member, itemPid, itemComm, rfl⟩ := answer
      rw [last_sampled_visits] at member distinct
      obtain ⟨w, visited, rfl⟩ := List.mem_map.mp member
      obtain ⟨inside, served⟩ := List.mem_filter.mp visited
      have compared : (task.utime + task.stime - (taskSample w.task).cpuTime).toNat ≤ task.cpuTime ↔
          Sighting.InStep w.task.cpuTime task.cpuTime :=
        Sighting.difference_in_step_iff _ _ _ _
      refine compared.trans ⟨fun inStep a other key => ?_, fun all => ?_⟩
      · obtain ⟨w', visited', served', rfl⟩ := (mem_sightings who _ a).mp other
        have samePid : w'.task.pid = w.task.pid := (Prod.mk.inj key).1.trans itemPid.symm
        have pids : (((lastVisits (refreshes earlier)).filter Visit.hst).map fun v => v.task.pid).Nodup := by
          simpa [visitSamples, taskSample, Function.comp_def] using distinct
        obtain rfl : w' = w :=
          List.inj_on_of_nodup_map pids (List.mem_filter.mpr ⟨visited', served'⟩) visited samePid
        exact inStep
      · exact all _ ((mem_sightings who _ _).mpr ⟨w, inside, served, rfl⟩) (Prod.ext itemPid itemComm)

def RowDeltasBounded (r : Refresh) (after : Globals) : Prop :=
  ∀ (i : Nat) (v : Visit), r.visits[i]? = some v → v.hst = true → ∃ info, slotInfo after.slots i = .ok info ∧
    info.perCpuTime.toNat ≤ v.task.cpuTime

theorem row_deltas_bounded_iff {ι : Type} (hash : Hash) (earlier : List Call) (r : Refresh) (before now : Pid → ι)
    (distinct : ∀ call ∈ refreshes earlier, (call.visits.map fun v => v.task.pid).Nodup)
    (law : Sighting.NonDecreasing (sightings before (lastVisits (refreshes earlier))) (sightings now r.visits))
    (memory : RoomServed (runCalls hash earlier) initial) :
    ∃ s, Walk.final (runCalls hash earlier) initial = .ok s ∧
      (RoomServed (procsRefresh hash r) s → ∃ after, Walk.final (procsRefresh hash r) s = .ok after ∧
        (RowDeltasBounded r after ↔
          Sighting.NoTakeover (sightings before (lastVisits (refreshes earlier))) (sightings now r.visits))) := by
  obtain ⟨s, start, old, listed, ran, walked, refreshed⟩ := refresh_after_calls hash earlier r memory
  refine ⟨s, ran, fun served => ?_⟩
  obtain ⟨after, _, _, new, placed, done, kept, filled⟩ := refreshed served
  refine ⟨after, done, ?_⟩
  have rows := placed_row_after hash earlier s after r.visits _ _ _ _ _ _ listed placed walked kept
    (last_sampled_distinct _ distinct) filled
  have compared := fun task => fresh_time_bounded_iff before earlier task (last_sampled_distinct _ distinct)
  rw [Sighting.no_takeover_iff _ _ law]
  constructor
  · intro bounded a member b memberNow key
    obtain ⟨v, visited, sampled, rfl⟩ := (mem_sightings now _ b).mp memberNow
    obtain ⟨i, access⟩ := List.mem_iff_getElem?.mp visited
    obtain ⟨info, read, small⟩ := bounded i v access sampled
    obtain ⟨same, again, row⟩ := rows i v access
    obtain rfl : info = same := Except.ok.inj (read.symm.trans again)
    rw [row.sampled sampled] at small
    exact (compared v.task).mp small a member key
  · intro none i v access sampled
    obtain ⟨info, read, row⟩ := rows i v access
    refine ⟨info, read, ?_⟩
    rw [row.sampled sampled]
    have sighted := (mem_sightings now r.visits _).mpr ⟨v, List.mem_of_getElem? access, sampled, rfl⟩
    exact (compared v.task).mpr fun a member key => none a member _ sighted key

end LinuxModule.SteTop
