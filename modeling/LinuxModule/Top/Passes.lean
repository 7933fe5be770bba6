import LinuxModule.Top.PrintProcs
import LinuxModule.Top.Records

set_option autoImplicit false

namespace LinuxModule.Top

open Stdio

-- The records at these addresses, in this order, hold these contents.
def Reads (s : Globals) (rows : List Nat) (infos : List ProcInfo) : Prop :=
  List.Forall₂ (fun proc info => s.procs.read proc = some info) rows infos

def sameThread (pid tid : Int) (info : ProcInfo) : Bool := info.pid = pid ∧ info.tid = tid

def deltasFrom (olds : List ProcInfo) (info : ProcInfo) : ProcInfo :=
  withDeltas (olds.find? (sameThread info.pid info.tid)) info

theorem reads_frame (s t : Globals) (rows : List Nat) (infos : List ProcInfo)
    (same : ∀ p ∈ rows, t.procs.read p = s.procs.read p) (reads : Reads s rows infos) : Reads t rows infos := by
  induction reads with
  | nil => exact .nil
  | cons read _ ih =>
      obtain ⟨here, later⟩ := List.forall_mem_cons.mp same
      exact .cons (here.trans read) (ih later)

theorem reads_length (s : Globals) (rows : List Nat) (infos : List ProcInfo) (reads : Reads s rows infos) :
    rows.length = infos.length := List.Forall₂.length_eq reads

theorem search_procs_spec (s : Globals) (pid tid : Int) (rows : List Nat) (infos : List ProcInfo) (nulls : Nat)
    (reads : Reads s rows infos) : searchProcs pid tid s (rows.map some ++ List.replicate nulls none) =
      .ok (infos.find? (sameThread pid tid)) := by
  induction reads with
  | nil =>
      induction nulls with
      | zero => rfl
      | succ nulls ih => exact ih
  | @cons proc info rows infos read _ ih =>
      simp only [List.map_cons, List.cons_append, searchProcs, readProc, read, except_ok_bind, List.find?_cons, sameThread]
      by_cases found : info.pid = pid ∧ info.tid = tid
      · simp [found]
      · simpa [found, sameThread] using ih

theorem find_old_proc_spec (s : Globals) (pid tid : Int) (olds : List Nat) (infos : List ProcInfo)
    (listing : Listing s.arrays s.oldProcs s.numOldProcs olds) (reads : Reads s olds infos) :
    findOldProc pid tid s = .ok (infos.find? (sameThread pid tid)) := by
  obtain ⟨nulls, _, slots⟩ := first_slots_listing s _ _ olds listing
  rw [findOldProc, slots, except_ok_bind]
  exact search_procs_spec s pid tid olds infos nulls reads

theorem delta_nulls (s : Globals) (nulls : Nat) : (List.replicate nulls none).foldlM deltaSlot s = .ok s := by
  induction nulls with
  | zero => rfl
  | succ nulls ih => exact ih

-- The old records are not among those updated, so each search finds them as they were.
theorem delta_slots_spec (olds : List Nat) (oldInfos : List ProcInfo) (nulls : Nat) (free used rows : List Nat)
    (infos : List ProcInfo) (s : Globals) (records : Records s free used) (reads : Reads s rows infos)
    (listing : Listing s.arrays s.oldProcs s.numOldProcs olds) (oldReads : Reads s olds oldInfos)
    (inUse : ∀ p ∈ rows, p ∈ used) (apart : ∀ p ∈ rows, p ∉ olds) (distinct : rows.Nodup) :
    ∃ procs, (rows.map some ++ List.replicate nulls none).foldlM deltaSlot s = .ok { s with procs := procs } ∧
      Records { s with procs := procs } free used ∧ procs.size = s.procs.size ∧
      (∀ p, p ∉ rows → procs.read p = s.procs.read p) ∧
      Reads { s with procs := procs } rows (infos.map (deltasFrom oldInfos)) := by
  induction rows generalizing infos s with
  | nil =>
      cases reads
      exact ⟨s.procs, delta_nulls s nulls, records, rfl, fun _ _ => rfl, .nil⟩
  | cons proc rows ih =>
      cases reads with
      | @cons _ info _ infos read tail =>
          obtain ⟨fresh, distinct⟩ := List.nodup_cons.mp distinct
          obtain ⟨here, inUse⟩ := List.forall_mem_cons.mp inUse
          obtain ⟨alone, apart⟩ := List.forall_mem_cons.mp apart
          obtain ⟨base, same, updated⟩ := update_proc_spec s free used records proc here
            (fun now => .ok (withDeltas (oldInfos.find? (sameThread info.pid info.tid)) now))
          obtain rfl : info = base := Option.some.inj (read.symm.trans same)
          have elsewhere : ∀ p, p ≠ proc → (s.procs.store proc (deltasFrom oldInfos info)).read p = s.procs.read p :=
            fun p other => Heap.read_store_elsewhere _ _ _ _ other
          have step : deltaSlot s (some proc) = .ok { s with procs := s.procs.store proc (deltasFrom oldInfos info) } := by
            simp only [deltaSlot, readProc, read, except_ok_bind,
              find_old_proc_spec s info.pid info.tid olds oldInfos listing oldReads]
            exact updated
          obtain ⟨procs, rest, after, size, kept, reads⟩ := ih infos
            { s with procs := s.procs.store proc (deltasFrom oldInfos info) }
            (records_store s free used records proc _ here)
            (reads_frame s _ rows infos (fun p member => elsewhere p fun same => fresh (same ▸ member)) tail) listing
            (reads_frame s _ olds oldInfos (fun p member => elsewhere p fun same => alone (same ▸ member)) oldReads)
            inUse apart distinct
          refine ⟨procs, ?_, after, size.trans (Heap.size_store _ _ _), fun p outside => ?_, .cons ?_ reads⟩
          · rw [List.map_cons, List.cons_append, List.foldlM_cons, step, except_ok_bind]
            exact rest
          · obtain ⟨other, outside⟩ := not_or.mp (mt List.mem_cons.mpr outside)
            exact (kept p outside).trans (elsewhere p other)
          · exact (kept proc fresh).trans (read_stored s free used records proc _ here)

def Column.key : Column → ProcInfo → Int
  | .cpu => cpuKey
  | .vss => vssKey
  | .rss => rssKey
  | .thr => thrKey

theorem column_cmp (column : Column) : column.cmp = procCmp column.key := by
  cases column <;> rfl

theorem numcmp_compares (a b : Int) : 0 ≤ numcmp a b ↔ b ≤ a := by
  unfold numcmp
  split <;> [skip; split] <;> omega

theorem read_slots_spec (s : Globals) (rows : List Nat) (infos : List ProcInfo) (nulls : Nat) (reads : Reads s rows infos) :
    (rows.map some ++ List.replicate nulls none).mapM (readSlot s) =
      .ok ((rows.zip infos).map some ++ List.replicate nulls none) := by
  induction reads with
  | nil =>
      induction nulls with
      | zero => rfl
      | succ nulls ih =>
          rw [List.map_nil, List.nil_append, List.replicate_succ, List.mapM_cons]
          rw [List.map_nil, List.nil_append] at ih
          rw [ih]
          rfl
  | cons read _ ih =>
      rw [List.map_cons, List.cons_append, List.mapM_cons, ih]
      simp only [readSlot, readProc, read]
      rfl

-- qsort leaves the records in the descending order of the column, all of them in front
-- of the NULLs.
theorem sort_procs_spec (sort : Qsort (Option Entry)) (sorts : sort.Sorts) (column : Column) (s : Globals) (rows : List Nat)
    (infos : List ProcInfo) (listing : Listing s.arrays s.newProcs s.numNewProcs rows) (reads : Reads s rows infos) :
    ∃ (entries : List Entry) (address : Nat), s.newProcs = some address ∧ s.arrays.Live address ∧ entries.Perm (rows.zip infos) ∧
      (entries.map Prod.snd).Pairwise (Qsort.Descending column.key) ∧ ∃ nulls, s.numNewProcs = entries.length + nulls ∧
      sortProcs sort column s = .ok { s with
        arrays := s.arrays.store address ((entries.map Prod.fst).map some ++ List.replicate nulls none) } := by
  obtain ⟨nulls, count, slots⟩ := first_slots_listing s _ _ rows listing
  obtain ⟨address, nulls', here, count', found⟩ := listing_array s _ _ rows listing
  obtain rfl : nulls = nulls' := by omega
  obtain ⟨read, whole⟩ : s.arrays.Live address ∧ (rows.map some ++ List.replicate nulls (none : Option Nat)).drop s.numNewProcs = [] := by
    obtain ⟨_, _, there, live, _⟩ := listing
    obtain rfl := Option.some.inj (here.symm.trans there)
    exact ⟨Heap.read_some_live _ _ _ live, List.drop_eq_nil_of_le (by simp [count])⟩
  have sorted := Qsort.nulls_last_sorted numcmp (fun entry : Entry => column.key entry.2) numcmp_compares sort sorts
    ((rows.zip infos).map some ++ List.replicate nulls none)
  obtain ⟨entries, behind, split, descending⟩ := Qsort.nulls_last_split numcmp (fun entry : Entry => column.key entry.2)
    numcmp_compares _ sorted
  have permuted := sort.permutes (procCmp column.key) ((rows.zip infos).map some ++ List.replicate nulls none)
  have same : entries.Perm (rows.zip infos) := by
    have kept := permuted.filterMap id
    rw [procCmp, split] at kept
    simpa [List.filterMap_append, List.filterMap_map] using kept
  have length : entries.length = rows.length := by
    rw [same.length_eq, List.length_zip, ← reads_length s rows infos reads, Nat.min_self]
  have total := permuted.length_eq
  rw [procCmp, split] at total
  simp only [List.length_append, List.length_map, List.length_replicate, List.length_zip,
    ← reads_length s rows infos reads, Nat.min_self] at total
  refine ⟨entries, address, here, read, same, ?_, nulls, by omega, ?_⟩
  · rw [List.pairwise_map]
    exact descending
  · obtain rfl : behind = nulls := by omega
    simp only [sortProcs, slots, except_ok_bind, read_slots_spec s rows infos behind reads, found, whole, List.append_nil,
      column_cmp, procCmp]
    rw [split]
    simp [List.map_append, Function.comp_def]

def Options.shown (opts : Options) (infos : List ProcInfo) : List ProcInfo :=
  if opts.maxProcs = 0 then infos else infos.take opts.maxProcs.toNat

theorem print_rows_spec (opts : Options) (pageSize : Int) (total : UInt64) (s : Globals) (rows : List Nat)
    (infos : List ProcInfo) (nulls i : Nat) (reads : Reads s rows infos) :
    printRows opts pageSize total s i (rows.map some ++ List.replicate nulls none) =
      .ok ((if opts.maxProcs = 0 then infos else infos.take (opts.maxProcs.toNat - i)).map (rowOf opts.threads pageSize total)) := by
  induction reads generalizing i with
  | nil => cases nulls <;> simp [printRows, List.replicate_succ]
  | @cons proc info rows infos read _ ih =>
      rw [List.map_cons, List.cons_append, printRows]
      by_cases all : opts.maxProcs = 0
      · simp [all, readProc, read, ih]
      · by_cases enough : (i : Int) ≥ opts.maxProcs
        · have none_left : opts.maxProcs.toNat - i = 0 := by omega
          rw [if_pos ⟨all, enough⟩, if_neg all, none_left]
          rfl
        · have one_more : opts.maxProcs.toNat - i = (opts.maxProcs.toNat - (i + 1)) + 1 := by omega
          rw [if_neg fun stops => enough stops.2, if_neg all, one_more]
          simp [all, readProc, read, ih]

def tableOf (opts : Options) (pageSize : Int) (new old : CpuInfo) (infos : List ProcInfo) : Table :=
  ⟨headerOf new old, (opts.shown infos).map (rowOf opts.threads pageSize (new.total - old.total))⟩

theorem free_proc_spec (s : Globals) (proc : Nat) (free used : List Nat) (records : Records s free (proc :: used)) :
    ∃ procs head numUsed numFree,
      freeProc s proc = .ok { s with procs := procs, freeProcs := head, numUsedProcs := numUsed, numFreeProcs := numFree } ∧
      Records { s with procs := procs, freeProcs := head, numUsedProcs := numUsed, numFreeProcs := numFree }
        (proc :: free) used ∧
      procs.size = s.procs.size ∧ ∀ p ∈ used, procs.read p = s.procs.read p := by
  obtain ⟨base, _, updated⟩ := update_proc_spec s free _ records proc List.mem_cons_self
    (fun info => .ok { info with next := s.freeProcs })
  have pushed := Pool.push _ _ _ _ _ proc { base with next := s.freeProcs } records.pool rfl
  have fresh : ∀ p ∈ used, p ≠ proc := by
    rintro p member rfl
    have distinct := (List.nodup_append.mp (Pool.distinct _ _ _ _ _ records.pool)).2.1
    exact (List.nodup_cons.mp distinct).1 member
  refine ⟨_, _, _, _, by rw [freeProc, updated]; rfl, ⟨pushed, ?_, ?_⟩, Heap.size_store _ _ _,
    fun p member => Heap.read_store_elsewhere _ _ _ _ (fresh p member)⟩
  · simp [records.numUsed]
  · simp [records.numFree]

theorem free_nulls (s : Globals) (nulls : Nat) : (List.replicate nulls none).foldlM freeSlot s = .ok s := by
  induction nulls with
  | zero => rfl
  | succ nulls ih => exact ih

theorem free_slots_spec (s : Globals) (olds free rest : List Nat) (nulls : Nat) (records : Records s free (olds ++ rest)) :
    ∃ procs head numUsed numFree free',
      (olds.map some ++ List.replicate nulls none).foldlM freeSlot s =
        .ok { s with procs := procs, freeProcs := head, numUsedProcs := numUsed, numFreeProcs := numFree } ∧
      Records { s with procs := procs, freeProcs := head, numUsedProcs := numUsed, numFreeProcs := numFree } free' rest ∧
      procs.size = s.procs.size ∧ ∀ p ∈ rest, procs.read p = s.procs.read p := by
  induction olds generalizing s free with
  | nil => exact ⟨s.procs, s.freeProcs, s.numUsedProcs, s.numFreeProcs, free, free_nulls s nulls, records, rfl, fun _ _ => rfl⟩
  | cons proc olds ih =>
      obtain ⟨procs, head, numUsed, numFree, freed, records, size, kept⟩ := free_proc_spec s proc free (olds ++ rest) records
      obtain ⟨procs', head', numUsed', numFree', free', done, records', size', kept'⟩ := ih _ _ records
      refine ⟨procs', head', numUsed', numFree', free', ?_, records', size'.trans size, fun p member => ?_⟩
      · rw [List.map_cons, List.cons_append, List.foldlM_cons, freeSlot, freed, except_ok_bind]
        exact done
      · exact (kept' p member).trans (kept p (List.mem_append_right olds member))

theorem free_old_procs_spec (s : Globals) (olds free rest : List Nat) (listing : Listing s.arrays s.oldProcs s.numOldProcs olds)
    (records : Records s free (olds ++ rest)) :
    ∃ procs head numUsed numFree free' address, ∃ live : s.arrays.Live address, s.oldProcs = some address ∧
      freeOldProcs s = .ok { s with
        procs := procs, freeProcs := head, numUsedProcs := numUsed, numFreeProcs := numFree
        arrays := s.arrays.release address live } ∧
      Records { s with procs := procs, freeProcs := head, numUsedProcs := numUsed, numFreeProcs := numFree } free' rest ∧
      procs.size = s.procs.size ∧ ∀ p ∈ rest, procs.read p = s.procs.read p := by
  obtain ⟨nulls, _, slots⟩ := first_slots_listing s _ _ olds listing
  obtain ⟨procs, head, numUsed, numFree, free', freed, after, size, kept⟩ := free_slots_spec s olds free rest nulls records
  obtain ⟨address, _, here, read, _⟩ := listing
  have live := Heap.read_some_live _ _ _ read
  refine ⟨procs, head, numUsed, numFree, free', address, live, here, ?_, after, size, kept⟩
  rw [freeOldProcs, slots, except_ok_bind, freed, except_ok_bind]
  simp only [freeArray, here, Heap.free_live _ _ live]

-- What was read, whatever the recycled records held before.
def Results (fills : List (ProcInfo → Except Stop ProcInfo)) (infos : List ProcInfo) : Prop :=
  List.Forall₂ (fun fill info => ∃ base, fill base = .ok info) fills infos

theorem filled_results (s : Globals) (fills : List (ProcInfo → Except Stop ProcInfo)) (rows : List Nat)
    (filled : List.Forall₂ (Filled s) fills rows) : ∃ infos, Results fills infos ∧ Reads s rows infos := by
  induction filled with
  | nil => exact ⟨[], .nil, .nil⟩
  | cons here _ ih =>
      obtain ⟨base, info, fill, read⟩ := here
      obtain ⟨infos, results, reads⟩ := ih
      exact ⟨info :: infos, .cons ⟨base, fill⟩ results, .cons read reads⟩

theorem reads_entries (s : Globals) (rows : List Nat) (infos : List ProcInfo) (entries : List Entry)
    (same : entries.Perm (rows.zip infos)) (reads : Reads s rows infos) :
    (entries.map Prod.fst).Perm rows ∧ (entries.map Prod.snd).Perm infos ∧
      Reads s (entries.map Prod.fst) (entries.map Prod.snd) := by
  have length := reads_length s rows infos reads
  refine ⟨?_, ?_, ?_⟩
  · have kept := same.map Prod.fst
    rwa [List.map_fst_zip (Nat.le_of_eq length)] at kept
  · have kept := same.map Prod.snd
    rwa [List.map_snd_zip (Nat.le_of_eq length.symm)] at kept
  · have each : ∀ entry ∈ entries, s.procs.read entry.1 = some entry.2 := fun entry member =>
      (List.forall₂_iff_zip.mp reads).2 (same.mem_iff.mp member)
    unfold Reads
    rw [List.forall₂_map_left_iff, List.forall₂_map_right_iff, List.forall₂_same]
    exact each

-- At the head of the loop.
structure Between (g : Globals) (rows lost : List Nat) (infos : List ProcInfo) : Prop where
  records : ∃ free, Records g free (rows ++ lost)
  listing : Listing g.arrays g.newProcs g.numNewProcs rows
  only : ∀ b, g.arrays.Live b → g.newProcs = some b
  reads : Reads g rows infos

-- The table of one pass, from what it reads, what the pass before showed, and the cpu
-- times then.
structure Shows (opts : Options) (pageSize : Int) (snap : Snapshot) (cpu : CpuInfo) (olds infos : List ProcInfo) (table : Table) :
    Prop where
  results : ∃ found, Results (snap.fills opts.threads) found ∧ infos.Perm (found.map (deltasFrom olds))
  ordered : infos.Pairwise (Qsort.Descending opts.column.key)
  total : (snap.cpu cpu).total ≠ cpu.total
  table : table = tableOf opts pageSize (snap.cpu cpu) cpu infos

structure Passed (opts : Options) (pageSize : Int) (snap : Snapshot) (m : Main) (rows lost : List Nat) (olds : List ProcInfo)
    (rows' newLost : List Nat) (infos : List ProcInfo) (r : Table × Main) : Prop where
  between : Between r.2.globals rows' (newLost ++ lost) infos
  shows_ : Shows opts pageSize snap m.globals.newCpu olds infos r.1
  losses : newLost.length = snap.losses opts.threads
  cpu : r.2.globals.newCpu = snap.cpu m.globals.newCpu
  size : r.2.globals.procs.size = max m.globals.procs.size (rows'.length + newLost.length + (rows.length + lost.length))
  iterations : r.2.iterations = if m.iterations = -1 then -1 else m.iterations - 1

theorem start_up_spec (stop : Stop → Prop) (opts : Options) (first : Snapshot)
    (serves : ServesSnapshot stop opts.threads first) :
    Ends stop (fun m => ∃ rows lost infos, Between m.globals rows lost infos ∧ Results (first.fills opts.threads) infos ∧
      lost.length = first.losses opts.threads ∧ m.globals.newCpu = first.cpu noCpu ∧
      m.globals.procs.size = rows.length + lost.length ∧ m.iterations = opts.iterations) (startUp opts first) := by
  have none_yet : Records initial [] [] := ⟨Pool.empty _, rfl, rfl⟩
  apply Ends.map
  refine Ends.mono stop _ _ _ (read_procs_spec stop [] opts.threads first initial [] none_yet serves) ?_
  rintro s ⟨lost, rows, losses, reading, listing⟩
  obtain ⟨infos, results, reads⟩ := filled_results s _ rows reading.filled
  obtain ⟨free, records⟩ := reading.records
  rw [List.nil_append, List.append_nil] at records
  refine ⟨rows, lost, infos, ⟨⟨free, records⟩, listing, fun b live => ?_, reads⟩, results, losses, reading.cpu.2, ?_, rfl⟩
  · exact (reading.only b live).resolve_left fun before => Nat.not_lt_zero b before.1
  · have size := reading.size
    simp only [List.nil_append, List.append_nil, List.length_append] at size
    exact size.trans (Nat.zero_max _)

-- The new records are in the new array, the old ones in the old array, and the two
-- arrays are all that is allocated.
structure Both (s : Globals) (olds news rest : List Nat) (oldInfos infos : List ProcInfo) : Prop where
  records : ∃ free, Records s free (news ++ (olds ++ rest))
  oldListing : Listing s.arrays s.oldProcs s.numOldProcs olds
  listing : Listing s.arrays s.newProcs s.numNewProcs news
  apart : s.newProcs ≠ s.oldProcs
  only : ∀ b, s.arrays.Live b → s.oldProcs = some b ∨ s.newProcs = some b
  oldReads : Reads s olds oldInfos
  reads : Reads s news infos

theorem reading_both (stop : Stop → Prop) (cpu : CpuInfo) (g s : Globals) (rows lost rows' newLost : List Nat)
    (olds : List ProcInfo) (fills : List (ProcInfo → Except Stop ProcInfo)) (between : Between g rows lost olds)
    (reading : Reading stop { keepOld g with newCpu := cpu } (rows ++ lost) fills [] newLost rows' s)
    (listing : Listing s.arrays s.newProcs s.numNewProcs rows') :
    ∃ infos, Results fills infos ∧ Both s rows rows' (newLost ++ lost) olds infos := by
  obtain ⟨infos, results, reads⟩ := filled_results s _ rows' reading.filled
  obtain ⟨free, pool, numUsed, numFree⟩ := reading.records
  have order : (rows' ++ (rows ++ (newLost ++ lost))).Perm ([] ++ (rows' ++ (newLost ++ (rows ++ lost)))) :=
    List.Perm.append_left rows' (List.perm_append_comm_assoc rows newLost lost)
  obtain ⟨address, nulls, here, read, count⟩ := between.listing
  obtain ⟨other, live, kept⟩ := reading.others address (Heap.read_some_live _ _ _ read)
  refine ⟨infos, results, ⟨free, Pool.reorder _ _ _ _ _ _ pool order, by rw [order.length_eq]; exact numUsed, numFree⟩, ?_,
    listing, ?_, fun b alive => ?_, ?_, reads⟩
  · rw [reading.old.1, reading.old.2]
    exact ⟨address, nulls, here, kept.trans read, count⟩
  · rw [reading.old.1]
    exact fun same => other (same.trans here)
  · refine (reading.only b alive).imp_left fun before => ?_
    rw [reading.old.1]
    exact between.only b before
  · exact reads_frame g s rows olds (fun p member => reading.kept p (by simp [member])) between.reads

theorem print_procs_spec (stop : Stop → Prop) (opts : Options) (pageSize : Int) (sort : Qsort (Option Entry)) (sorts : sort.Sorts)
    (s : Globals) (olds news rest : List Nat) (oldInfos infos : List ProcInfo) (both : Both s olds news rest oldInfos infos)
    (divides : s.newCpu.total = s.oldCpu.total → stop .divideByZero) :
    Ends stop (fun r => ∃ news' infos', Both r.2 olds news' rest oldInfos infos' ∧
      infos'.Perm (infos.map (deltasFrom oldInfos)) ∧ infos'.Pairwise (Qsort.Descending opts.column.key) ∧
      news'.length = news.length ∧ s.newCpu.total ≠ s.oldCpu.total ∧
      r.1 = tableOf opts pageSize s.newCpu s.oldCpu infos' ∧
      r.2.newCpu = s.newCpu ∧ r.2.procs.size = s.procs.size) (printProcs opts pageSize sort s) := by
  obtain ⟨free, records⟩ := both.records
  obtain ⟨nulls, count, slots⟩ := first_slots_listing s _ _ news both.listing
  have distinct := (List.nodup_append.mp (Pool.distinct _ _ _ _ _ records.pool)).2.1
  have apart : ∀ p ∈ news, p ∉ olds ++ rest := fun p new => List.disjoint_of_nodup_append distinct new
  obtain ⟨procs, updated, records, size, kept, reads⟩ := delta_slots_spec olds oldInfos nulls free _ news infos s records
    both.reads both.oldListing both.oldReads (fun p member => by simp [member])
    (fun p new old => apart p new (List.mem_append_left rest old)) (List.Nodup.of_append_left distinct)
  have oldReads : Reads { s with procs := procs } olds oldInfos :=
    reads_frame s _ olds oldInfos (fun p old => kept p fun new => apart p new (List.mem_append_left rest old)) both.oldReads
  obtain ⟨entries, address, here, live, same, ordered, nulls', count', sorted⟩ :=
    sort_procs_spec sort sorts opts.column { s with procs := procs } news _ both.listing reads
  obtain ⟨rowsSame, infosSame, entriesRead⟩ := reads_entries _ news _ entries same reads
  have listed : Listing (s.arrays.store address ((entries.map Prod.fst).map some ++ List.replicate nulls' none)) s.newProcs
      s.numNewProcs (entries.map Prod.fst) := by
    have stored := listing_store s.arrays address nulls' (entries.map Prod.fst) live
    rw [List.length_map, ← count'] at stored
    exact here ▸ stored
  have total : s.newCpu.total - s.oldCpu.total = 0 ↔ s.newCpu.total = s.oldCpu.total := by grind
  rw [printProcs, slots, except_ok_bind, updated, except_ok_bind]
  simp only [sorted, except_ok_bind]
  by_cases zero : s.newCpu.total - s.oldCpu.total = 0
  · rw [if_pos zero]
    exact divides (total.mp zero)
  · obtain ⟨arrays, stored⟩ : ∃ arrays, arrays =
      s.arrays.store address ((entries.map Prod.fst).map some ++ List.replicate nulls' none) := ⟨_, rfl⟩
    rw [← stored] at listed ⊢
    obtain ⟨behind, _, found⟩ := first_slots_listing { s with procs := procs, arrays := arrays } _ _ _ listed
    have printed := print_rows_spec opts pageSize (s.newCpu.total - s.oldCpu.total) { s with procs := procs, arrays := arrays }
      _ _ behind 0 entriesRead
    rw [if_neg zero, found, except_ok_bind, printed, except_ok_bind]
    subst stored
    have order : (entries.map Prod.fst ++ (olds ++ rest)).Perm (news ++ (olds ++ rest)) := rowsSame.append_right _
    refine ⟨entries.map Prod.fst, entries.map Prod.snd, ?_, infosSame, ordered, rowsSame.length_eq, fun equal =>
      zero (total.mpr equal), ?_, rfl, size⟩
    · refine ⟨⟨free, Pool.reorder _ _ _ _ _ _ records.pool order, by rw [order.length_eq]; exact records.numUsed,
        records.numFree⟩, ?_, listed, both.apart, fun b alive => both.only b ((Heap.live_store _ _ _ _).mp alive), oldReads,
        entriesRead⟩
      obtain ⟨address', nulls'', there, read, count''⟩ := both.oldListing
      have other : address' ≠ address := fun same => both.apart (here.trans (same ▸ there.symm))
      exact ⟨address', nulls'', there, (Heap.read_store_elsewhere _ _ _ _ other).trans read, count''⟩
    · simp [tableOf, Options.shown]

theorem free_old_between (s : Globals) (olds news rest : List Nat) (oldInfos infos : List ProcInfo)
    (both : Both s olds news rest oldInfos infos) :
    ∃ after, freeOldProcs s = .ok after ∧ Between after news rest infos ∧ after.newCpu = s.newCpu ∧
      after.procs.size = s.procs.size := by
  obtain ⟨free, pool, numUsed, numFree⟩ := both.records
  have order : (olds ++ (news ++ rest)).Perm (news ++ (olds ++ rest)) := List.perm_append_comm_assoc olds news rest
  obtain ⟨procs, head, used, unused, free', address, live, there, freed, records, size, kept⟩ :=
    free_old_procs_spec s olds free (news ++ rest) both.oldListing
      ⟨Pool.reorder _ _ _ _ _ _ pool order, by rw [order.length_eq]; exact numUsed, numFree⟩
  refine ⟨_, freed, ⟨⟨free', records.pool, records.numUsed, records.numFree⟩, ?_, fun b alive => ?_, ?_⟩, rfl, size⟩
  · obtain ⟨address', nulls, here, read, count⟩ := both.listing
    have other : address' ≠ address := fun same => both.apart (here.trans (same ▸ there.symm))
    exact ⟨address', nulls, here, (Heap.read_release _ _ _ live other).trans read, count⟩
  · obtain ⟨alive, other⟩ := (Heap.live_release _ _ _ live).mp alive
    exact (both.only b alive).resolve_left fun old => other (Option.some.inj (old.symm.trans there))
  · exact reads_frame s _ news infos (fun p member => kept p (by simp [member])) both.reads

theorem pass_spec (stop : Stop → Prop) (opts : Options) (pageSize : Int) (sort : Qsort (Option Entry)) (sorts : sort.Sorts)
    (m : Main) (snap : Snapshot) (rows lost : List Nat) (olds : List ProcInfo) (between : Between m.globals rows lost olds)
    (serves : ServesSnapshot stop opts.threads snap)
    (divides : (snap.cpu m.globals.newCpu).total = m.globals.newCpu.total → stop .divideByZero) :
    Ends stop (fun r => ∃ rows' newLost infos, Passed opts pageSize snap m rows lost olds rows' newLost infos r)
      (pass opts pageSize sort m snap) := by
  obtain ⟨free, records⟩ := between.records
  rw [pass]
  apply Ends.bind
  have kept : Records (keepOld m.globals) free (rows ++ lost) := ⟨records.pool, records.numUsed, records.numFree⟩
  refine Ends.mono stop _ _ _ (read_procs_spec stop _ opts.threads snap (keepOld m.globals) free kept serves) ?_
  rintro s ⟨newLost, rows', losses, reading, listing⟩
  obtain ⟨found, results, both⟩ := reading_both stop (snap.cpu m.globals.newCpu) m.globals s rows lost rows' newLost olds _ between
    reading listing
  have newCpu : s.newCpu = snap.cpu m.globals.newCpu := reading.cpu.2
  have oldCpu : s.oldCpu = m.globals.newCpu := reading.cpu.1
  apply Ends.bind
  refine Ends.mono stop _ _ _ (print_procs_spec stop opts pageSize sort sorts s rows rows' (newLost ++ lost) olds found both
    (by rwa [newCpu, oldCpu])) ?_
  rintro ⟨table, printed⟩ ⟨news, infos, both, permuted, ordered, length, differs, shown, sameCpu, sameSize⟩
  obtain ⟨after, freed, last, lastCpu, lastSize⟩ := free_old_between printed rows news (newLost ++ lost) olds infos both
  simp only [freed, except_ok_bind]
  rw [newCpu, oldCpu] at shown differs
  refine ⟨news, newLost, infos, last, ⟨⟨found, results, permuted⟩, ordered, differs, shown⟩, losses, ?_, ?_, rfl⟩
  · exact (lastCpu.trans sameCpu).trans newCpu
  · have size := reading.size
    simp only [List.nil_append, List.length_append] at size
    have whole : after.procs.size = s.procs.size := lastSize.trans sameSize
    simp only [whole, size, length]
    congr 1
    omega

end LinuxModule.Top
