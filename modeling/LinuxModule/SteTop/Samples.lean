import LinuxModule.SteTop.Refresh
import LinuxModule.Base.HashNodes

set_option autoImplicit false

namespace LinuxModule.SteTop

-- The samples of one call of procs_refresh, as nodes allocated from `start` on in
-- visit order and linked in `table`, each in the bucket of its own pid.
structure Generation (hash : Hash) (hsts : Heap Hst) (table : Table) (start : Nat) (samples : List Hst) : Prop where
  nodes : table.entries.Perm (List.range' start samples.length)
  stored : ∀ i sample, samples[i]? = some sample → hsts.read (start + i) = some sample
  placed : ∀ i sample, samples[i]? = some sample → start + i ∈ table (hash sample.pid)

-- Two generations are alive, the older one from `start` on; whatever was allocated
-- before them has been freed.
structure Sampling (hash : Hash) (t : Tables) (start : Nat) (old new : List Hst) : Prop where
  older : Generation hash t.hsts t.hashTableOld start old
  newer : Generation hash t.hsts t.hashTableNew (start + old.length) new
  size : t.hsts.size = start + old.length + new.length
  gone : ∀ p, p < start → p ∈ t.hsts.freed

theorem generation_nodes (hash : Hash) (hsts : Heap Hst) (table : Table) (start : Nat) (samples : List Hst) :
    Generation hash hsts table start samples ↔ HashNodes hash Hst.pid hsts table start samples :=
  ⟨fun gen => ⟨gen.nodes, gen.stored, gen.placed⟩, fun linked => ⟨linked.nodes, linked.stored, linked.placed⟩⟩

theorem generation_read (hash : Hash) (hsts : Heap Hst) (table : Table) (start : Nat) (samples : List Hst)
    (gen : Generation hash hsts table start samples) (p : Nat) (member : p ∈ table.entries) :
    ∃ sample ∈ samples, hsts.read p = some sample := by
  rw [generation_nodes] at gen
  exact HashNodes.read _ _ _ _ _ _ gen p member

theorem sampling_initial (hash : Hash) : Sampling hash initial.tables 0 [] [] where
  older := (generation_nodes hash _ _ 0 []).mpr (.nothing hash _ _ 0)
  newer := (generation_nodes hash _ _ 0 []).mpr (.nothing hash _ _ 0)
  size := rfl
  gone := by simp

theorem kfree_hst_live (pos : Nat) (t : Tables) (live : t.hsts.Live pos) :
    kfreeHst pos t = .ok { t with hsts := t.hsts.release pos live } := by
  simp only [kfreeHst, Heap.free_live t.hsts pos live]

theorem read_hst_some (pos : Nat) (t : Tables) (item : Hst) (read : t.hsts.read pos = some item) :
    readHst pos t = .ok item := by
  simp only [readHst, read]

theorem empty_old_spec (hash : Hash) (t : Tables) (start : Nat) (old new : List Hst)
    (sampling : Sampling hash t start old new) :
    ∃ next, emptyOld t = .ok next ∧ next.hashTableOld = Buckets.empty ∧
      Sampling hash next (start + old.length) [] new := by
  have older := (generation_nodes hash _ _ _ _).mp sampling.older
  have newer := (generation_nodes hash _ _ _ _).mp sampling.newer
  obtain ⟨next, ran, emptied, size, freed, kept, sameNew⟩ :=
    HashNodes.free_rule Tables.hashTableOld Tables.hsts
      (fun pos t => kfreeHst pos { t with hashTableOld := t.hashTableOld.remove pos })
      (fun _ now => now.hashTableNew = t.hashTableNew) t (HashNodes.distinct _ _ _ _ _ _ older)
      (HashNodes.live _ _ _ _ _ _ older)
      (by
        rintro done p now - - - - sameNew alive
        exact ⟨_, kfree_hst_live p { now with hashTableOld := now.hashTableOld.remove p } alive, rfl, rfl, sameNew⟩) rfl
  refine ⟨next, ran, emptied, ?_, ?_, ?_, ?_⟩
  · rw [emptied, generation_nodes]
    exact .nothing hash _ _ _
  · rw [sameNew, generation_nodes, List.length_nil, Nat.add_zero]
    -- Nodes of the newer generation lie above everything this loop frees.
    refine newer.transfer _ _ _ _ _ _ _ fun p inNew => kept p fun member => ?_
    rw [HashNodes.mem_iff _ _ _ _ _ _ older] at member
    rw [HashNodes.mem_iff _ _ _ _ _ _ newer] at inNew
    omega
  · simpa [size] using sampling.size
  · exact HashNodes.freed_below _ _ _ _ _ _ _ older sampling.gone freed

theorem move_new_spec (hash : Hash) (t : Tables) (start : Nat) (new : List Hst)
    (sampling : Sampling hash t start [] new) (vacant : t.hashTableOld = Buckets.empty) :
    ∃ next, moveNew hash t = .ok next ∧ Sampling hash next start new [] := by
  have newer : Generation hash t.hsts t.hashTableNew start new := by simpa using sampling.newer
  rw [generation_nodes] at newer
  obtain ⟨next, ran, emptied, linked, sameHsts, -⟩ :=
    HashNodes.move_rule hash Hst.pid Tables.hashTableNew Tables.hashTableOld Tables.hsts (fun _ => ())
      (fun pos t => do
        let item ← readHst pos t
        .ok { t with
          hashTableNew := t.hashTableNew.remove pos
          hashTableOld := t.hashTableOld.insert (hash item.pid) pos }) t start new newer vacant
      (fun p now item read => by
        refine ⟨{ now with
          hashTableNew := now.hashTableNew.remove p
          hashTableOld := now.hashTableOld.insert (hash item.pid) p }, ?_, rfl, rfl, rfl, rfl⟩
        rw [read_hst_some p now item read]
        rfl)
  refine ⟨next, ran, ?_, ?_, ?_, ?_⟩
  · rw [sameHsts, generation_nodes]
    exact linked
  · rw [emptied, generation_nodes]
    exact .nothing hash _ _ _
  · simpa [sameHsts] using sampling.size
  · simpa [sameHsts] using sampling.gone

theorem rotate_spec (hash : Hash) (t : Tables) (start : Nat) (old new : List Hst)
    (sampling : Sampling hash t start old new) :
    ∃ next, rotate hash t = .ok next ∧ Sampling hash next (start + old.length) new [] := by
  obtain ⟨middle, emptied, vacant, kept⟩ := empty_old_spec hash t start old new sampling
  obtain ⟨next, moved, rotated⟩ := move_new_spec hash middle _ new kept vacant
  refine ⟨next, ?_, rotated⟩
  rw [rotate, emptied, except_ok_bind, moved]

-- What a search for this pid and comm among the samples of the previous call may answer.
def Found (old : List Hst) (pid : Pid) (comm : Comm) : Option UInt64 → Prop
  | some time => ∃ item ∈ old, item.pid = pid ∧ item.comm = comm ∧ item.cpuTime = time
  | none => ∀ item ∈ old, ¬ (item.pid = pid ∧ item.comm = comm)

theorem lookup_spec (t : Tables) (pid : Pid) (comm : Comm) (bucket : List Nat) (items : List Hst)
    (readable : ∀ p ∈ bucket, ∃ item ∈ items, t.hsts.read p = some item)
    (complete : ∀ item ∈ items, item.pid = pid → ∃ p ∈ bucket, t.hsts.read p = some item) :
    ∃ found, lookup t pid comm bucket = .ok found ∧ Found items pid comm found := by
  -- The induction keeps what the nodes passed over have ruled out.
  suffices general : ∀ rest, (∀ p ∈ rest, ∃ item ∈ items, t.hsts.read p = some item) →
      (∀ item ∈ items, item.pid = pid → item.comm = comm → ∃ p ∈ rest, t.hsts.read p = some item) →
      ∃ found, lookup t pid comm rest = .ok found ∧ Found items pid comm found from
    general bucket readable (fun item member samePid _ => complete item member samePid)
  intro rest
  induction rest with
  | nil =>
      intro _ open_
      refine ⟨none, rfl, fun item member same => ?_⟩
      obtain ⟨p, absent, _⟩ := open_ item member same.1 same.2
      exact absurd absent List.not_mem_nil
  | cons p rest ih =>
      intro reads open_
      obtain ⟨item, member, read⟩ := reads p (by simp)
      by_cases hit : item.pid = pid ∧ item.comm = comm
      · refine ⟨some item.cpuTime, ?_, item, member, hit.1, hit.2, rfl⟩
        simp only [lookup, readHst, read]
        exact if_pos hit
      · obtain ⟨found, ran, holds⟩ := ih (fun q later => reads q (by simp [later])) (by
          intro other otherMember samePid sameComm
          obtain ⟨q, qMember, qRead⟩ := open_ other otherMember samePid sameComm
          rcases List.mem_cons.mp qMember with here | later
          · have same : item = other := Option.some.inj (read.symm.trans (here ▸ qRead))
            exact absurd ⟨same ▸ samePid, same ▸ sameComm⟩ hit
          · exact ⟨q, later, qRead⟩)
        refine ⟨found, ?_, holds⟩
        simp only [lookup, readHst, read]
        exact (if_neg hit).trans ran

theorem lookup_generation (hash : Hash) (t : Tables) (start : Nat) (old : List Hst) (pid : Pid) (comm : Comm)
    (gen : Generation hash t.hsts t.hashTableOld start old) :
    ∃ found, lookup t pid comm (t.hashTableOld (hash pid)) = .ok found ∧ Found old pid comm found := by
  apply lookup_spec
  · intro p member
    exact generation_read hash _ _ _ _ gen p ((Buckets.mem_entries _ _).mpr ⟨_, member⟩)
  · intro item member samePid
    obtain ⟨i, access⟩ := List.mem_iff_getElem?.mp member
    exact ⟨start + i, samePid ▸ gen.placed i item access, gen.stored i item access⟩

-- per_cpu_time as the walk computes it from the samples of the previous call.
def Used (old : List Hst) (sample : Hst) (perCpuTime : UInt64) : Prop :=
  ∃ found, Found old sample.pid sample.comm found ∧ perCpuTime = sample.cpuTime - found.getD 0

def sampleOf (info : ProcInfo) : Hst := ⟨info.pid, info.utime + info.stime, info.comm⟩

theorem take_sample_spec (hash : Hash) (info : ProcInfo) (t : Tables) (start : Nat) (old new : List Hst)
    (sampling : Sampling hash t start old new) :
    ∃ perCpuTime next, takeSample hash info t = .ok (perCpuTime, next) ∧
      Used old (sampleOf info) perCpuTime ∧ Sampling hash next start old (new ++ [sampleOf info]) := by
  have older : Generation hash (t.hsts.alloc (sampleOf info)) t.hashTableOld start old :=
    ⟨sampling.older.nodes, fun i sample access => Heap.read_alloc_some _ _ _ _ (sampling.older.stored i sample access),
      sampling.older.placed⟩
  have pushed := HashNodes.push hash Hst.pid t.hsts t.hashTableNew (start + old.length) new
    ((generation_nodes hash _ _ _ _).mp sampling.newer) sampling.size (sampleOf info)
  have newer := (generation_nodes hash _ _ _ _).mpr pushed
  obtain ⟨found, ran, answer⟩ := lookup_generation hash
    { t with
      hsts := t.hsts.alloc ⟨info.pid, info.utime + info.stime, info.comm⟩
      hashTableNew := t.hashTableNew.insert (hash info.pid) t.hsts.size } start old info.pid info.comm older
  refine ⟨info.utime + info.stime - found.getD 0,
    { t with
      hsts := t.hsts.alloc ⟨info.pid, info.utime + info.stime, info.comm⟩
      hashTableNew := t.hashTableNew.insert (hash info.pid) t.hsts.size },
    ?_, ⟨found, answer, rfl⟩, older, newer, ?_, sampling.gone⟩
  · change (lookup _ info.pid info.comm _).bind _ = _
    rw [ran]
    cases found with
    | none => simp [Except.bind]
    | some before => rfl
  · simp [sampling.size]
    omega

end LinuxModule.SteTop
