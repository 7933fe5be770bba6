import LinuxModule.SteTop.RefreshLoop
import Mathlib.Algebra.Order.Ring.Nat

set_option autoImplicit false

namespace LinuxModule.SteTop

def samplesOf (r : Refresh) : List Hst := r.visits.map (fun v => taskSample v.task)

def lastSamples (rs : List Refresh) : List Hst :=
  match rs.getLast? with
  | none => []
  | some r => samplesOf r

-- The nodes a sequence of calls allocates, and the longest process list it sees.
def created (rs : List Refresh) : Nat := (rs.map (fun r => r.visits.length)).sum

def longest (rs : List Refresh) : Nat := rs.foldl (fun length r => max length r.visits.length) 0

def lastNodes (rs : List Refresh) : List Nat := List.range' (created rs.dropLast) (lastSamples rs).length

@[simp] theorem last_samples_snoc (rs : List Refresh) (r : Refresh) : lastSamples (rs ++ [r]) = samplesOf r := by
  simp [lastSamples]

@[simp] theorem created_snoc (rs : List Refresh) (r : Refresh) : created (rs ++ [r]) = created rs + r.visits.length := by
  simp [created]

@[simp] theorem longest_snoc (rs : List Refresh) (r : Refresh) : longest (rs ++ [r]) = max (longest rs) r.visits.length := by
  simp [longest]

theorem created_last (rs : List Refresh) : created rs = created rs.dropLast + (lastSamples rs).length := by
  rcases rs.eq_nil_or_concat with rfl | ⟨earlier, r, rfl⟩
  · rfl
  · simp [samplesOf]

-- The state between two calls of a run in which every kmalloc was served.
structure Refreshed (hash : Hash) (rs : List Refresh) (s : Globals) (rows : List Nat) : Prop where
  walked : Walked hash s (created rs.dropLast.dropLast) (lastSamples rs.dropLast) (lastSamples rs) rows
  longest : rows.length = longest rs

theorem refreshed_initial (hash : Hash) : Refreshed hash [] initial [] :=
  ⟨⟨sampling_initial hash, rows_initial⟩, rfl⟩

theorem refreshed_step (hash : Hash) (rs : List Refresh) (r : Refresh) (s : Globals) (rows : List Nat)
    (sofar : Refreshed hash rs s rows) :
    Walk.Meets (upkeep served) (procsRefresh hash r) s (fun _ after =>
      ∃ placed, Refreshed hash (rs ++ [r]) after placed ∧
        Complete (lastSamples rs) rows r.visits (samplesOf r) placed after) := by
  apply Walk.meets_mono _ _ _ _ _ (procs_refresh_meets hash served r s _ _ _ rows sofar.walked (served_grows r.visits))
  rintro _ after ⟨later, placed, walked, complete | failed⟩
  · obtain rfl : later = samplesOf r := complete.samples
    refine ⟨placed, ⟨?_, ?_⟩, complete⟩
    · rw [← created_last] at walked
      simpa using walked
    · rw [complete.length, sofar.longest, longest_snoc]
  · exact absurd failed served_none_failed

theorem refresh_all_refreshed (hash : Hash) (rs : List Refresh) :
    Walk.Meets (upkeep served) (refreshAll hash rs) initial (fun _ s =>
      ∃ rows, Refreshed hash rs s rows ∧ ∀ earlier r, rs = earlier ++ [r] →
        ∃ before, Complete (lastSamples earlier) before r.visits (samplesOf r) rows s) := by
  apply Walk.meets_for_each (upkeep served) rs (procsRefresh hash) (fun done s =>
    ∃ rows, Refreshed hash done s rows ∧ ∀ earlier r, done = earlier ++ [r] →
      ∃ before, Complete (lastSamples earlier) before r.visits (samplesOf r) rows s) initial
    ⟨[], refreshed_initial hash, by simp⟩
  rintro done r rest s _ ⟨rows, sofar, _⟩
  apply Walk.meets_mono _ _ _ _ _ (refreshed_step hash done r s rows sofar)
  rintro _ after ⟨placed, kept, complete⟩
  refine ⟨placed, kept, fun earlier last split => ?_⟩
  obtain ⟨rfl, same⟩ := List.append_inj' split rfl
  obtain rfl : r = last := by simpa using same
  exact ⟨rows, complete⟩

def recordedTime (samples : List Hst) (pid : Pid) (comm : Comm) : Option UInt64 :=
  (samples.find? (fun item => item.pid = pid ∧ item.comm = comm)).map Hst.cpuTime

theorem found_recorded (samples : List Hst) (pid : Pid) (comm : Comm) (found : Option UInt64)
    (distinct : (samples.map Hst.pid).Nodup) (answer : Found samples pid comm found) :
    found = recordedTime samples pid comm := by
  cases found with
  | none =>
      have missing : samples.find? (fun item => item.pid = pid ∧ item.comm = comm) = none := by
        rw [List.find?_eq_none]
        intro item member
        simpa using answer item member
      rw [recordedTime, missing]
      rfl
  | some time =>
      obtain ⟨item, member, samePid, sameComm, sameTime⟩ := answer
      have hit : ∃ first, samples.find? (fun item => item.pid = pid ∧ item.comm = comm) = some first := by
        rw [← Option.isSome_iff_exists, List.find?_isSome]
        exact ⟨item, member, by simp [samePid, sameComm]⟩
      obtain ⟨first, hit⟩ := hit
      have matches_ : first.pid = pid ∧ first.comm = comm := by simpa using List.find?_some hit
      have same : first = item :=
        List.inj_on_of_nodup_map distinct (List.mem_of_find?_eq_some hit) member (matches_.1.trans samePid.symm)
      rw [recordedTime, hit, same]
      simp [sameTime]

structure TablesAfter (hash : Hash) (earlier : List Refresh) (r : Refresh) (s : Globals) : Prop where
  allocated : s.tables.hsts.size = created (earlier ++ [r])
  newer : s.tables.hashTableNew.entries.Perm (lastNodes (earlier ++ [r]))
  samples : (s.tables.hashTableNew.entries.map s.tables.hsts.read).Perm (r.visits.map (fun v => some (taskSample v.task)))
  older : s.tables.hashTableOld.entries.Perm (lastNodes earlier)
  live : ∀ p, s.tables.hsts.Live p ↔ p ∈ s.tables.hashTableOld.entries ++ s.tables.hashTableNew.entries
  once : (s.tables.hashTableOld.entries ++ s.tables.hashTableNew.entries).Nodup
  bucket : ∀ p b, p ∈ s.tables.hashTableOld b ∨ p ∈ s.tables.hashTableNew b →
    ∃ sample, s.tables.hsts.read p = some sample ∧ b = hash sample.pid
  freed : ∀ p, p < created earlier.dropLast → s.tables.hsts.freed.count p = 1
  times : ∀ (i : Nat) (v : Visit), r.visits[i]? = some v → ∃ row info, getSlot s.slots i = .ok (some row) ∧
    readRow row s.slots = .ok info ∧ info.pid = v.task.pid ∧ info.comm = v.task.comm ∧
    info.perCpuTime = v.task.utime + v.task.stime - (recordedTime (lastSamples earlier) v.task.pid v.task.comm).getD 0

theorem generation_bucket (hash : Hash) (hsts : Heap Hst) (table : Table) (start : Nat) (samples : List Hst)
    (gen : Generation hash hsts table start samples) (p : Nat) (b : Fin 1024) (here : p ∈ table b) :
    ∃ sample, hsts.read p = some sample ∧ b = hash sample.pid := by
  have member : p ∈ table.entries := (Buckets.mem_entries _ _).mpr ⟨b, here⟩
  obtain ⟨sample, _, read⟩ := generation_read hash _ _ _ _ gen p member
  rw [generation_nodes] at gen
  exact ⟨sample, read, (HashNodes.bucket_iff _ _ _ _ _ _ gen p sample read member b).mp here⟩

theorem sampling_live (hash : Hash) (t : Tables) (start : Nat) (old new : List Hst)
    (sampling : Sampling hash t start old new) (p : Nat) :
    t.hsts.Live p ↔ p ∈ t.hashTableOld.entries ++ t.hashTableNew.entries := by
  rw [List.mem_append]
  constructor
  · rintro ⟨bound, kept⟩
    have late : start ≤ p := by
      by_contra early
      exact kept (sampling.gone p (by omega))
    have size := sampling.size
    rw [sampling.older.nodes.mem_iff, sampling.newer.nodes.mem_iff, List.mem_range'_1, List.mem_range'_1]
    omega
  · rintro (member | member)
    · exact HashNodes.live _ _ _ _ _ _ ((generation_nodes hash _ _ _ _).mp sampling.older) p member
    · exact HashNodes.live _ _ _ _ _ _ ((generation_nodes hash _ _ _ _).mp sampling.newer) p member

theorem sampling_once (hash : Hash) (t : Tables) (start : Nat) (old new : List Hst)
    (sampling : Sampling hash t start old new) : (t.hashTableOld.entries ++ t.hashTableNew.entries).Nodup := by
  have older := (generation_nodes hash _ _ _ _).mp sampling.older
  have newer := (generation_nodes hash _ _ _ _).mp sampling.newer
  refine List.nodup_append.mpr ⟨HashNodes.distinct _ _ _ _ _ _ older, HashNodes.distinct _ _ _ _ _ _ newer,
    fun p inOld q inNew => ?_⟩
  rw [HashNodes.mem_iff _ _ _ _ _ _ older] at inOld
  rw [HashNodes.mem_iff _ _ _ _ _ _ newer] at inNew
  omega

theorem tables_after (hash : Hash) (earlier : List Refresh) (r : Refresh) (s : Globals) (rows before : List Nat)
    (sofar : Refreshed hash (earlier ++ [r]) s rows)
    (complete : Complete (lastSamples earlier) before r.visits (samplesOf r) rows s)
    (distinct : ((lastSamples earlier).map Hst.pid).Nodup) : TablesAfter hash earlier r s := by
  obtain ⟨sampling, owned⟩ : Walked hash s (created earlier.dropLast) (lastSamples earlier) (samplesOf r) rows := by
    simpa using sofar.walked
  have start := created_last earlier
  refine ⟨?_, ?_, ?_, sampling.older.nodes, sampling_live hash _ _ _ _ sampling, sampling_once hash _ _ _ _ sampling, ?_,
    fun p early => Heap.freed_count _ p (sampling.gone p early), fun i v access => ?_⟩
  · simp [sampling.size, start, samplesOf]
  · simpa [lastNodes, start] using sampling.newer.nodes
  · have contents := HashNodes.contents _ _ _ _ _ _ ((generation_nodes hash _ _ _ _).mp sampling.newer)
    rwa [samplesOf, List.map_map] at contents
  · rintro p b (old | new)
    · exact generation_bucket hash _ _ _ _ sampling.older p b old
    · exact generation_bucket hash _ _ _ _ sampling.newer p b new
  · obtain ⟨row, info, slot, read, base, perCpuTime, filled, found, answer, time⟩ := complete.recorded i v access
    have inside : i < rows.length := (List.getElem?_eq_some_iff.mp slot).1
    refine ⟨row, info, ?_, by simp only [readRow, read], by rw [filled]; rfl, by rw [filled]; rfl, ?_⟩
    · rw [get_slot_spec s.slots rows owned i (Nat.lt_of_lt_of_le inside (rows_fit s.slots rows owned)), slot]
    · rw [← found_recorded (lastSamples earlier) v.task.pid v.task.comm found distinct answer, filled]
      exact time

theorem refresh_keeps_generations (hash : Hash) (earlier : List Refresh) (r : Refresh)
    (distinct : ∀ call ∈ earlier ++ [r], (call.visits.map (fun v => v.task.pid)).Nodup)
    (memory : AllServed (refreshAll hash (earlier ++ [r])) initial) :
    ∃ s, Walk.final (refreshAll hash (earlier ++ [r])) initial = .ok s ∧ TablesAfter hash earlier r s := by
  obtain ⟨_, s, ran, rows, sofar, complete⟩ := Walk.meets_fault (upkeep served) _ initial _
    (refresh_all_refreshed hash (earlier ++ [r])) memory (fun _ => id)
  obtain ⟨before, complete⟩ := complete earlier r rfl
  have pids : ((lastSamples earlier).map Hst.pid).Nodup := by
    rcases earlier.eq_nil_or_concat with rfl | ⟨first, last, rfl⟩
    · exact List.nodup_nil
    · simpa [samplesOf, taskSample, Function.comp_def] using distinct last (by simp)
  exact ⟨s, by simp only [Walk.final, ran]; rfl, tables_after hash earlier r s rows before sofar complete pids⟩

-- Two pids in one bucket; the first of them changes its name between the calls.
def twoProcesses : Refresh where
  uptimeCur := ⟨1, 0⟩
  visits := [servedVisit { idleTask 1 0 with utime := 5, comm := [97] }, servedVisit { idleTask 2 0 with utime := 7 }]

def renamedProcess : Refresh where
  uptimeCur := ⟨2, 0⟩
  visits := [servedVisit { idleTask 1 0 with utime := 9, comm := [98] }, servedVisit { idleTask 2 0 with utime := 10 }]

theorem renamed_keeps_generations :
    ∃ s, Walk.final (refreshAll (fun _ => 0) ([twoProcesses] ++ [renamedProcess])) initial = .ok s ∧
      TablesAfter (fun _ => 0) [twoProcesses] renamedProcess s :=
  refresh_keeps_generations (fun _ => 0) [twoProcesses] renamedProcess (by decide) (by decide +kernel)

end LinuxModule.SteTop
