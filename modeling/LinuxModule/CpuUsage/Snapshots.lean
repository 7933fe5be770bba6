import LinuxModule.CpuUsage.ProcessCpuUsage
import LinuxModule.Base.HashNodes

set_option autoImplicit false

namespace LinuxModule.ProcessCpuUsage

def recorded (visits : List Visit) : List ProcInfo :=
  visits.filterMap fun visit =>
    if visit.kmalloc then some ⟨visit.task.pid, visit.task.utime + visit.task.stime, visit.task.comm⟩ else none

-- What is owed about a node of the first walk, given the nodes of the second.
def owed (second : List ProcInfo) (info : ProcInfo) : Report :=
  reportOf info (second.find? fun later => decide (info.pid = later.pid))

def Report.pid : Report → Pid
  | .delta pid _ _ => pid
  | .noData pid => pid

-- Two walks are in the tables; whatever was allocated before them has been freed.
structure Snapshots (hash : Hash) (s : State) (start : Nat) (a b : List ProcInfo) : Prop where
  older : HashNodes hash ProcInfo.pid s.infos s.hashTableA start a
  newer : HashNodes hash ProcInfo.pid s.infos s.hashTableB (start + a.length) b
  top : s.infos.size = start + a.length + b.length
  gone : ∀ p, p < start → p ∈ s.infos.freed

theorem snapshots_loaded (hash : Hash) : Snapshots hash loaded 0 [] [] :=
  ⟨.nothing hash _ _ _, .nothing hash _ _ _, rfl, by simp⟩

theorem move_b_to_a_spec (hash : Hash) (s : State) (start : Nat) (b : List ProcInfo)
    (snapshots : Snapshots hash s start [] b) :
    ∃ next, moveBToA hash s = .ok next ∧ next.hashTableB = Buckets.empty ∧ next.log = s.log ∧
      Snapshots hash next start b [] := by
  have newer : HashNodes hash ProcInfo.pid s.infos s.hashTableB start b := by simpa using snapshots.newer
  obtain ⟨next, ran, emptied, linked, sameInfos, sameLog⟩ :=
    HashNodes.move_rule hash ProcInfo.pid State.hashTableB State.hashTableA State.infos State.log
      (moveNode hash) s start b newer
      (HashNodes.vacant _ _ _ _ _ snapshots.older)
      (fun pos now info access => by
        refine ⟨{ now with
          hashTableB := now.hashTableB.remove pos
          hashTableA := now.hashTableA.insert (hash info.pid) pos }, ?_, rfl, rfl, rfl, rfl⟩
        rw [moveNode, read_info_some pos now info access, except_ok_bind])
  refine ⟨next, ran, emptied, sameLog, ⟨sameInfos ▸ linked, ?_, ?_, ?_⟩⟩
  · rw [emptied]
    exact .nothing hash _ _ _
  · simpa [sameInfos] using snapshots.top
  · rw [sameInfos]
    exact snapshots.gone

theorem collect_tasks_spec (hash : Hash) (visits : List Visit) (s : State) (start : Nat) (a b : List ProcInfo)
    (snapshots : Snapshots hash s start a b) :
    Snapshots hash (visits.foldl (collectTask hash) s) start a (b ++ recorded visits) ∧
      (visits.foldl (collectTask hash) s).log = s.log := by
  induction visits generalizing s b with
  | nil => simpa [recorded] using snapshots
  | cons visit rest ih =>
      rw [List.foldl_cons]
      by_cases given : visit.kmalloc = true
      · let info : ProcInfo := ⟨visit.task.pid, visit.task.utime + visit.task.stime, visit.task.comm⟩
        let next : State := { s with
          infos := s.infos.alloc info
          hashTableB := s.hashTableB.insert (hash info.pid) s.infos.size }
        have collected : collectTask hash s visit = next := if_pos given
        have pushed : Snapshots hash next start a (b ++ [info]) := by
          refine ⟨?_, snapshots.newer.push _ _ _ _ _ _ snapshots.top info, ?_, snapshots.gone⟩
          · apply snapshots.older.transfer
            intro p member
            obtain ⟨item, _, access⟩ := HashNodes.read _ _ _ _ _ _ snapshots.older p member
            rw [access]
            exact Heap.read_alloc_some _ _ _ _ access
          · simp [next, snapshots.top]
            omega
        obtain ⟨after, sameLog⟩ := ih next (b ++ [info]) pushed
        rw [collected]
        exact ⟨by simpa [recorded, given, info] using after, sameLog⟩
      · have skipped : collectTask hash s visit = s := if_neg given
        rw [skipped]
        simpa [recorded, given] using ih s b snapshots

theorem find_b_spec (s : State) (pid : Pid) (items : List ProcInfo) (distinct : (items.map ProcInfo.pid).Nodup)
    (bucket : List Nat) (readable : ∀ p ∈ bucket, ∃ item ∈ items, s.infos.read p = some item)
    (complete : ∀ item ∈ items, pid = item.pid → ∃ p ∈ bucket, s.infos.read p = some item) :
    findB s pid bucket = .ok (items.find? fun item => decide (pid = item.pid)) := by
  induction bucket with
  | nil =>
      have absent : items.find? (fun item => decide (pid = item.pid)) = none := by
        rw [List.find?_eq_none]
        intro item member same
        obtain ⟨p, nowhere, _⟩ := complete item member (by simpa using same)
        exact absurd nowhere List.not_mem_nil
      rw [absent]
      rfl
  | cons p rest ih =>
      obtain ⟨item, member, access⟩ := readable p (by simp)
      rw [findB, read_info_some p s item access, except_ok_bind]
      by_cases hit : pid = item.pid
      · rw [if_pos hit]
        -- No other node of the table has this pid.
        obtain ⟨found, search⟩ : ∃ found, items.find? (fun item => decide (pid = item.pid)) = some found :=
          Option.isSome_iff_exists.mp (List.find?_isSome.mpr ⟨item, member, by simpa using hit⟩)
        have samePid : pid = found.pid := by simpa using List.find?_some search
        have same : item = found :=
          List.inj_on_of_nodup_map distinct member (List.mem_of_find?_eq_some search) (hit.symm.trans samePid)
        rw [search, same]
      · rw [if_neg hit]
        apply ih (fun q later => readable q (by simp [later]))
        intro other otherMember otherPid
        obtain ⟨q, qMember, qAccess⟩ := complete other otherMember otherPid
        rcases List.mem_cons.mp qMember with here | later
        · obtain rfl : item = other := Option.some.inj (access.symm.trans (here ▸ qAccess))
          exact absurd otherPid hit
        · exact ⟨q, later, qAccess⟩

theorem find_b_nodes (hash : Hash) (s : State) (start : Nat) (b : List ProcInfo)
    (newer : HashNodes hash ProcInfo.pid s.infos s.hashTableB start b) (distinct : (b.map ProcInfo.pid).Nodup)
    (info : ProcInfo) : reportOf info <$> findB s info.pid (s.hashTableB (hash info.pid)) = .ok (owed b info) := by
  rw [find_b_spec s info.pid b distinct]
  · rfl
  · intro p member
    exact HashNodes.read _ _ _ _ _ _ newer p ((Buckets.mem_entries _ _).mpr ⟨_, member⟩)
  · intro item member samePid
    obtain ⟨i, access⟩ := List.mem_iff_getElem?.mp member
    exact ⟨start + i, samePid ▸ newer.placed i item access, newer.stored i item access⟩

theorem process_node_spec (hash : Hash) (s : State) (b : List ProcInfo) (posA : Nat) (info : ProcInfo)
    (access : s.infos.read posA = some info) (live : s.infos.Live posA)
    (found : reportOf info <$> findB s info.pid (s.hashTableB (hash info.pid)) = .ok (owed b info)) :
    processNode hash posA s = .ok { s with
      hashTableA := s.hashTableA.remove posA
      infos := s.infos.release posA live
      log := s.log ++ [owed b info] } := by
  cases search : findB s info.pid (s.hashTableB (hash info.pid)) with
  | error fault =>
      rw [search] at found
      cases found
  | ok later =>
      rw [search] at found
      have report : reportOf info later = owed b info := Except.ok.inj found
      rw [processNode, read_info_some posA s info access, except_ok_bind, search, except_ok_bind, kfree_info_live, report]

theorem process_nodes_spec (hash : Hash) (s : State) (start : Nat) (a b : List ProcInfo)
    (snapshots : Snapshots hash s start a b) (distinct : (b.map ProcInfo.pid).Nodup) :
    ∃ next reports, Buckets.forEachSafe State.hashTableA (processNode hash) s = .ok next ∧
      next.log = s.log ++ reports ∧ reports.Perm (a.map (owed b)) ∧
      Snapshots hash next (start + a.length) [] b := by
  have apart : ∀ p ∈ s.hashTableB.entries, p ∉ s.hashTableA.entries := by
    intro p inB inA
    rw [HashNodes.mem_iff _ _ _ _ _ _ snapshots.newer] at inB
    rw [HashNodes.mem_iff _ _ _ _ _ _ snapshots.older] at inA
    omega
  obtain ⟨next, ran, emptied, size, freed, kept, sameB, logged⟩ :=
    HashNodes.free_rule State.hashTableA State.infos (processNode hash)
      (fun done now => now.hashTableB = s.hashTableB ∧
        now.log = s.log ++ (done.filterMap s.infos.read).map (owed b)) s
      (HashNodes.distinct _ _ _ _ _ _ snapshots.older)
      (HashNodes.live _ _ _ _ _ _ snapshots.older)
      (by
        rintro done p now member unseen within reads ⟨sameB, logged⟩ alive
        obtain ⟨info, _, access⟩ := HashNodes.read _ _ _ _ _ _ snapshots.older p member
        have newer : HashNodes hash ProcInfo.pid now.infos now.hashTableB (start + a.length) b := by
          rw [sameB]
          exact snapshots.newer.transfer _ _ _ _ _ _ _ (fun q inB => reads q (fun seen => apart q inB (within q seen)))
        refine ⟨_, process_node_spec hash now b p info (by rw [reads p unseen, access]) alive
          (find_b_nodes hash now _ b newer distinct info), rfl, rfl, sameB, ?_⟩
        simp [logged, access]) ⟨rfl, by simp⟩
  refine ⟨next, _, ran, logged, ?_, ⟨?_, ?_, ?_, ?_⟩⟩
  · exact (HashNodes.reads _ _ _ _ _ _ snapshots.older).map (owed b)
  · rw [emptied]
    exact .nothing hash _ _ _
  · rw [sameB, List.length_nil, Nat.add_zero]
    exact snapshots.newer.transfer _ _ _ _ _ _ _ (fun q inB => kept q (apart q inB))
  · simpa [size] using snapshots.top
  · exact HashNodes.freed_below _ _ _ _ _ _ _ snapshots.older snapshots.gone freed

theorem collect_cpu_usage_spec (hash : Hash) (visits : List Visit) (s : State) (start : Nat) (b : List ProcInfo)
    (snapshots : Snapshots hash s start [] b) :
    ∃ next, collectCpuUsage hash visits s = .ok next ∧ next.log = s.log ∧
      Snapshots hash next start b (recorded visits) := by
  obtain ⟨middle, moved, _, sameLog, kept⟩ := move_b_to_a_spec hash s start b snapshots
  obtain ⟨collected, sameAfter⟩ := collect_tasks_spec hash visits middle start b [] kept
  exact ⟨_, by rw [collectCpuUsage, moved, except_ok_bind], sameAfter.trans sameLog, collected⟩

theorem process_data_spec (hash : Hash) (s : State) (start : Nat) (a b : List ProcInfo)
    (snapshots : Snapshots hash s start a b) (distinct : (b.map ProcInfo.pid).Nodup) :
    ∃ next reports, processData hash s = .ok next ∧ next.log = s.log ++ reports ∧
      reports.Perm (a.map (owed b)) ∧ next.hashTableB = Buckets.empty ∧
      Snapshots hash next (start + a.length) b [] := by
  obtain ⟨middle, reports, walked, logged, owing, left⟩ := process_nodes_spec hash s start a b snapshots distinct
  obtain ⟨next, moved, emptied, sameLog, kept⟩ := move_b_to_a_spec hash middle _ b left
  exact ⟨next, reports, by rw [processData, walked, except_ok_bind, moved], sameLog.trans logged, owing, emptied, kept⟩

theorem recorded_pids (visits : List Visit) :
    ((recorded visits).map ProcInfo.pid).Sublist (visits.map fun visit => visit.task.pid) := by
  induction visits with
  | nil => exact List.Sublist.slnil
  | cons visit rest ih =>
      by_cases given : visit.kmalloc = true
      · simpa [recorded, given] using ih
      · simpa [recorded, given] using ih.cons _

theorem recorded_distinct (visits : List Visit) (distinct : (visits.map fun visit => visit.task.pid).Nodup) :
    ((recorded visits).map ProcInfo.pid).Nodup := distinct.sublist (recorded_pids visits)

theorem cpu_usage_init_spec (hash : Hash) (first second : List Visit)
    (secondDistinct : (second.map fun visit => visit.task.pid).Nodup) :
    ∃ running, cpuUsageInit hash first second loaded = .ok running ∧
      running.log.Perm ((recorded first).map (owed (recorded second))) ∧ running.hashTableB = Buckets.empty ∧
      Snapshots hash running (recorded first).length (recorded second) [] := by
  obtain ⟨once, ranFirst, logFirst, snapshotFirst⟩ :=
    collect_cpu_usage_spec hash first loaded 0 [] (snapshots_loaded hash)
  obtain ⟨twice, ranSecond, logSecond, both⟩ := collect_cpu_usage_spec hash second once 0 _ snapshotFirst
  obtain ⟨running, reports, processed, logged, owing, emptied, left⟩ :=
    process_data_spec hash twice 0 _ _ both (recorded_distinct second secondDistinct)
  have log : running.log = reports := by
    rw [logged, logSecond, logFirst]
    rfl
  refine ⟨running, ?_, log ▸ owing, emptied, by simpa using left⟩
  have phases : cpuUsageInit hash first second loaded =
      (collectCpuUsage hash first loaded >>= fun s => collectCpuUsage hash second s >>= processData hash) := rfl
  rw [phases, ranFirst, except_ok_bind, ranSecond, except_ok_bind, processed]

end LinuxModule.ProcessCpuUsage
