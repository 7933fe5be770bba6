import LinuxModule.Base.Ends
import LinuxModule.Base.Pool
import LinuxModule.Top.ReadProcs

set_option autoImplicit false

namespace LinuxModule.Top

open Stdio

-- The records of the program and its two counts of them.
structure Records (s : Globals) (free used : List Nat) : Prop where
  pool : Pool ProcInfo.next s.procs s.freeProcs free used
  numUsed : s.numUsedProcs = used.length
  numFree : s.numFreeProcs = free.length

-- The array begins with these records, and the cells behind them are NULL.
def Listing (arrays : Heap (List (Option Nat))) (array : Option Nat) (num : Nat) (rows : List Nat) : Prop :=
  ∃ address nulls, array = some address ∧ arrays.read address = some (rows.map some ++ List.replicate nulls none) ∧
    num = rows.length + nulls

theorem listing_array (s : Globals) (array : Option Nat) (num : Nat) (rows : List Nat)
    (listing : Listing s.arrays array num rows) :
    ∃ address nulls, array = some address ∧ num = rows.length + nulls ∧
      procArray array s = .ok (address, rows.map some ++ List.replicate nulls none) := by
  obtain ⟨address, nulls, rfl, read, count⟩ := listing
  exact ⟨address, nulls, rfl, count, by rw [procArray, read]⟩

theorem first_slots_listing (s : Globals) (array : Option Nat) (num : Nat) (rows : List Nat)
    (listing : Listing s.arrays array num rows) :
    ∃ nulls, num = rows.length + nulls ∧ firstSlots array num s = .ok (rows.map some ++ List.replicate nulls none) := by
  obtain ⟨address, nulls, rfl, count, found⟩ := listing_array s array num rows listing
  have length : (rows.map some ++ List.replicate nulls (none : Option Nat)).length = num := by simp [count]
  refine ⟨nulls, count, ?_⟩
  by_cases empty : num = 0
  · have nothing := List.length_eq_zero_iff.mp (length.trans empty)
    rw [firstSlots, if_pos empty, nothing]
  · rw [firstSlots, if_neg empty, found, except_ok_bind]
    simp only [length, Nat.le_refl, if_true]
    rw [List.take_of_length_le (Nat.le_of_eq length)]

def threadFills (pid : Int) (curProc : ProcInfo) (tasks : List Thread) : List (ProcInfo → Except Stop ProcInfo) :=
  (tasks.filter fun t => numeric t.dName).map (fillThread pid curProc)

-- How the records of a process that are kept get filled.
def fillsOf (threads : Bool) (p : Process) : List (ProcInfo → Except Stop ProcInfo) :=
  if numeric p.dName then
    match p.task with
    | none => []
    | some tasks =>
        if threads then threadFills (atoi p.dName) (sharedProc p) tasks
        else [fun info => (fillProcess p info).map fun info => tasks.foldl countThread info]
  else []

-- The record of this process is kept nowhere.
def loses (threads : Bool) (p : Process) : Bool := numeric p.dName && !threads && p.task.isNone

def Snapshot.processes (snap : Snapshot) : List Process := snap.proc.getD []

def Snapshot.fills (threads : Bool) (snap : Snapshot) : List (ProcInfo → Except Stop ProcInfo) :=
  snap.processes.flatMap (fillsOf threads)

def Snapshot.losses (threads : Bool) (snap : Snapshot) : Nat := snap.processes.countP (loses threads)

def Snapshot.cpu (snap : Snapshot) (cpu : CpuInfo) : CpuInfo := sscanf cpuFormat (snap.stat.getD []) cpu

def Filled (s : Globals) (fill : ProcInfo → Except Stop ProcInfo) (proc : Nat) : Prop :=
  ∃ base info, fill base = .ok info ∧ s.procs.read proc = some info

section Reading

variable (stop : Stop → Prop)

-- The stops that one record can lead to are allowed.
structure Serves (malloc : Option ProcInfo) (fill : ProcInfo → Except Stop ProcInfo) (realloc : Bool) : Prop where
  refused : malloc = none ∨ realloc = false → ∀ message, stop (.die message)
  fails : ∀ base e, fill base = .error e → stop e

def ServesProcess (threads : Bool) (p : Process) : Prop :=
  numeric p.dName = true →
    if threads then
      ∀ tasks, p.task = some tasks → ∀ t ∈ tasks, numeric t.dName = true →
        Serves stop t.malloc (fillThread (atoi p.dName) (sharedProc p) t) t.realloc
    else Serves stop p.malloc (fillProcess p) p.realloc

structure ServesSnapshot (threads : Bool) (snap : Snapshot) : Prop where
  files : snap.proc = none ∨ snap.stat = none → ∀ message, stop (.die message)
  array : snap.calloc = false → stop .nullPointer
  each : ∀ p ∈ snap.processes, ServesProcess stop threads p

-- Halfway through read_procs: the records that were in use before are as they were, new
-- ones are in the new array or lost, and one may be in hand.
structure Reading (before : Globals) (held : List Nat) (fills : List (ProcInfo → Except Stop ProcInfo))
    (hand lost rows : List Nat) (s : Globals) : Prop where
  records : ∃ free, Records s free (hand ++ (rows ++ (lost ++ held)))
  room : 0 < s.numNewProcs
  listing : Listing s.arrays s.newProcs s.numNewProcs rows ∨ (s.newProcs = none ∧ rows = [] ∧ stop .nullPointer)
  filled : List.Forall₂ (Filled s) fills rows
  kept : ∀ p ∈ held, s.procs.read p = before.procs.read p
  others : ∀ b, before.arrays.Live b → s.newProcs ≠ some b ∧ s.arrays.Live b ∧ s.arrays.read b = before.arrays.read b
  only : ∀ b, s.arrays.Live b → before.arrays.Live b ∨ s.newProcs = some b
  old : s.oldProcs = before.oldProcs ∧ s.numOldProcs = before.numOldProcs
  cpu : s.oldCpu = before.oldCpu ∧ s.newCpu = before.newCpu
  size : s.procs.size = max before.procs.size (hand ++ (rows ++ (lost ++ held))).length

variable (before : Globals) (held : List Nat) (fills : List (ProcInfo → Except Stop ProcInfo)) (lost rows : List Nat)

theorem filled_frame (s t : Globals) (same : ∀ p ∈ rows, t.procs.read p = s.procs.read p)
    (filled : List.Forall₂ (Filled s) fills rows) : List.Forall₂ (Filled t) fills rows := by
  induction filled with
  | nil => exact .nil
  | cons here _ ih =>
      obtain ⟨now, later⟩ := List.forall_mem_cons.mp same
      obtain ⟨base, info, fill, read⟩ := here
      exact .cons ⟨base, info, fill, now.trans read⟩ (ih later)

theorem alloc_proc_spec (malloc : Option ProcInfo) (s : Globals) (free used : List Nat) (records : Records s free used)
    (refused : malloc = none → ∀ message, stop (.die message)) :
    Ends stop (fun r => ∃ procs head numUsed numFree free',
        r.2 = { s with procs := procs, freeProcs := head, numUsedProcs := numUsed, numFreeProcs := numFree } ∧
        Records r.2 free' (r.1 :: used) ∧ (∀ p ∈ used, procs.read p = s.procs.read p) ∧
        procs.size = max s.procs.size (used.length + 1)) (allocProc malloc s) := by
  obtain ⟨pool, numUsed, numFree⟩ := records
  have count := Pool.count _ _ _ _ _ pool
  cases head : s.freeProcs with
  | some p =>
      rw [head] at pool
      obtain ⟨record, rest, rfl, read, less⟩ := Pool.pop _ _ _ _ _ pool
      simp only [allocProc, head, readProc, read]
      refine ⟨s.procs, record.next, s.numUsedProcs + 1, s.numFreeProcs - 1, rest, rfl, ⟨less, ?_, ?_⟩, fun _ _ => rfl, ?_⟩
      · simp [numUsed]
      · simp [numFree]
      · simp only [List.length_cons] at count
        omega
  | none =>
      rw [head] at pool
      obtain rfl := Pool.none_free _ _ _ _ pool
      cases malloc with
      | none =>
          simp only [allocProc, head]
          exact refused rfl _
      | some info =>
          have more := Pool.grow _ _ _ info pool
          simp only [allocProc, head]
          refine ⟨s.procs.alloc info, s.freeProcs, s.numUsedProcs + 1, s.numFreeProcs, [], by rw [head], ⟨?_, ?_, numFree⟩, ?_, ?_⟩
          · simpa only [head] using more
          · simp [numUsed]
          · intro p inUse
            have live := Pool.live _ _ _ _ _ pool p (by simpa using inUse)
            exact Heap.read_alloc_old _ info p (Nat.ne_of_lt live.1)
          · rw [Heap.size_alloc]
            simp only [List.length_nil] at count
            omega

theorem update_proc_spec (s : Globals) (free used : List Nat) (records : Records s free used) (proc : Nat)
    (inUse : proc ∈ used) (f : ProcInfo → Except Stop ProcInfo) :
    ∃ base, s.procs.read proc = some base ∧
      updateProc proc f s = (f base).map fun info => { s with procs := s.procs.store proc info } := by
  obtain ⟨base, read⟩ := Heap.live_read _ _ (Pool.live _ _ _ _ _ records.pool proc (List.mem_append_right free inUse))
  refine ⟨base, read, ?_⟩
  simp only [updateProc, readProc, read, except_ok_bind]
  cases f base with
  | ok info => rfl
  | error e => rfl

theorem records_store (s : Globals) (free used : List Nat) (records : Records s free used) (proc : Nat) (info : ProcInfo)
    (inUse : proc ∈ used) : Records { s with procs := s.procs.store proc info } free used :=
  ⟨Pool.store _ _ _ _ _ proc info records.pool inUse, records.numUsed, records.numFree⟩

theorem read_stored (s : Globals) (free used : List Nat) (records : Records s free used) (proc : Nat) (info : ProcInfo)
    (inUse : proc ∈ used) : (s.procs.store proc info).read proc = some info :=
  Heap.read_store_here _ _ _ (Pool.live _ _ _ _ _ records.pool proc (List.mem_append_right free inUse))

theorem reading_take (malloc : Option ProcInfo) (s : Globals) (reading : Reading stop before held fills [] lost rows s)
    (refused : malloc = none → ∀ message, stop (.die message)) :
    Ends stop (fun r => Reading stop before held fills [r.1] lost rows r.2) (allocProc malloc s) := by
  obtain ⟨free, records⟩ := reading.records
  refine Ends.mono stop _ _ _ (alloc_proc_spec stop malloc s free _ records refused) ?_
  rintro ⟨proc, after⟩ ⟨procs, head, numUsed, numFree, free', rfl, taken, same, size⟩
  have whole := reading.size
  exact {
    records := ⟨free', taken⟩
    room := reading.room
    listing := reading.listing
    filled := filled_frame fills rows s _ (fun p member => same p (by simp [member])) reading.filled
    kept := fun p member => (same p (by simp [member])).trans (reading.kept p member)
    others := reading.others
    only := reading.only
    old := reading.old
    cpu := reading.cpu
    size := by
      simp only [List.nil_append, List.length_append, List.length_cons, List.length_nil] at whole size ⊢
      omega }

theorem reading_fill (proc : Nat) (fill : ProcInfo → Except Stop ProcInfo) (s : Globals)
    (reading : Reading stop before held fills [proc] lost rows s) (fails : ∀ base e, fill base = .error e → stop e) :
    ∃ base, s.procs.read proc = some base ∧
      Ends stop (fun after => Reading stop before held fills [proc] lost rows after ∧
        ∃ info, fill base = .ok info ∧ after.procs.read proc = some info) (updateProc proc fill s) := by
  obtain ⟨free, records⟩ := reading.records
  have inHand : proc ∈ [proc] ++ (rows ++ (lost ++ held)) := by simp
  obtain ⟨base, read, result⟩ := update_proc_spec s free _ records proc inHand fill
  refine ⟨base, read, ?_⟩
  rw [result]
  apply Ends.map
  cases filled : fill base with
  | error e => exact fails base e filled
  | ok info =>
      have apart : ∀ p ∈ rows ++ (lost ++ held), p ≠ proc := by
        rintro p member rfl
        have distinct := (List.nodup_append.mp (Pool.distinct _ _ _ _ _ records.pool)).2.1
        exact (List.nodup_cons.mp distinct).1 member
      have same : ∀ p ∈ rows ++ (lost ++ held), (s.procs.store proc info).read p = s.procs.read p := fun p member =>
        Heap.read_store_elsewhere _ _ _ _ (apart p member)
      refine ⟨?_, info, rfl, read_stored s free _ records proc info inHand⟩
      exact {
        records := ⟨free, records_store s free _ records proc info inHand⟩
        room := reading.room
        listing := reading.listing
        filled := filled_frame fills rows s _ (fun p member => same p (by simp [member])) reading.filled
        kept := fun p member => (same p (by simp [member])).trans (reading.kept p member)
        others := reading.others
        only := reading.only
        old := reading.old
        cpu := reading.cpu
        size := (Heap.size_store _ _ _).trans reading.size }

theorem reading_lose (proc : Nat) (s : Globals) (reading : Reading stop before held fills [proc] lost rows s) :
    Reading stop before held fills [] (proc :: lost) rows s := by
  have same : ([] ++ (rows ++ (proc :: lost ++ held))).Perm ([proc] ++ (rows ++ (lost ++ held))) := List.perm_middle
  obtain ⟨free, pool, numUsed, numFree⟩ := reading.records
  exact {
    reading with
    records := ⟨free, Pool.reorder _ _ _ _ _ _ pool same, by rw [same.length_eq, numUsed], numFree⟩
    size := by rw [same.length_eq, reading.size] }

theorem set_slot_spec (s : Globals) (address : Nat) (slots : List (Option Nat)) (i : Nat) (proc : Option Nat)
    (here : s.newProcs = some address) (read : s.arrays.read address = some slots) (inside : i < slots.length) :
    setSlot i proc s = .ok { s with arrays := s.arrays.store address (slots.set i proc) } := by
  simp only [setSlot, procArray, here, read, except_ok_bind, if_pos inside]

theorem listing_store (arrays : Heap (List (Option Nat))) (address nulls : Nat) (rows : List Nat) (live : arrays.Live address) :
    Listing (arrays.store address (rows.map some ++ List.replicate nulls none)) (some address) (rows.length + nulls) rows :=
  ⟨address, nulls, rfl, Heap.read_store_here _ _ _ live, rfl⟩

-- The new array takes other contents.
theorem reading_store (hand rows' : List Nat) (address nulls : Nat) (s : Globals)
    (fills' : List (ProcInfo → Except Stop ProcInfo))
    (reading : Reading stop before held fills hand lost rows s) (here : s.newProcs = some address) (live : s.arrays.Live address)
    (count : s.numNewProcs = rows'.length + nulls) (filled : List.Forall₂ (Filled s) fills' rows')
    (hand' : List Nat) (same : (hand' ++ (rows' ++ (lost ++ held))).Perm (hand ++ (rows ++ (lost ++ held)))) :
    Reading stop before held fills' hand' lost rows'
      { s with arrays := s.arrays.store address (rows'.map some ++ List.replicate nulls none) } := by
  obtain ⟨free, pool, numUsed, numFree⟩ := reading.records
  exact {
    records := ⟨free, Pool.reorder _ _ _ _ _ _ pool same, by rw [same.length_eq]; exact numUsed, numFree⟩
    room := reading.room
    listing := by
      have stored := listing_store s.arrays address nulls rows' live
      rw [← count, ← here] at stored
      exact .inl stored
    filled := filled
    kept := reading.kept
    others := by
      intro b before_
      obtain ⟨other, alive, read⟩ := reading.others b before_
      have apart : b ≠ address := fun same => other (same ▸ here)
      exact ⟨other, (Heap.live_store _ _ _ _).mpr alive, (Heap.read_store_elsewhere _ _ _ _ apart).trans read⟩
    only := fun b alive => reading.only b ((Heap.live_store _ _ _ _).mp alive)
    old := reading.old
    cpu := reading.cpu
    size := by rw [same.length_eq]; exact reading.size }

theorem set_behind (proc nulls : Nat) :
    (rows.map some ++ List.replicate (nulls + 1) none).set rows.length (some proc) =
      (rows ++ [proc]).map some ++ List.replicate nulls none := by
  rw [List.set_append_right _ _ (by simp)]
  simp [List.replicate_succ]

-- Whatever realloc copies, the free cells are NULL.
theorem reading_grow (hand : List Nat) (realloc : Bool) (s : Globals) (reading : Reading stop before held fills hand lost rows s)
    (full : rows.length = s.numNewProcs) (refused : realloc = false → ∀ message, stop (.die message)) :
    Ends stop (fun after => Reading stop before held fills hand lost rows after ∧ rows.length < after.numNewProcs ∧
      after.procs = s.procs) (growProcs realloc s) := by
  have room := reading.room
  obtain ⟨free, pool, numUsed, numFree⟩ := reading.records
  rcases reading.listing with ⟨address, nulls, here, read, count⟩ | ⟨_, nothing, _⟩
  · cases realloc with
    | false => exact refused rfl _
    | true =>
        obtain rfl : nulls = 0 := by omega
        have live := Heap.read_some_live _ _ _ read
        simp only [growProcs, if_true, procArray, here, read, except_ok_bind, Heap.free_live _ _ live]
        refine ⟨?_, by simp only; omega, rfl⟩
        exact {
          reading with
          records := ⟨free, pool, numUsed, numFree⟩
          room := by simp only; omega
          listing := by
            refine .inl ⟨_, rows.length, rfl, ?_, by simp only; omega⟩
            rw [Heap.read_alloc_fresh]
            simp only [List.replicate_zero, List.append_nil, List.length_map, full]
            congr 3
            omega
          others := by
            intro b before_
            obtain ⟨other, alive, same⟩ := reading.others b before_
            have apart : b ≠ address := fun same => other (same ▸ here)
            have kept := (Heap.live_release s.arrays address b live).mpr ⟨alive, apart⟩
            refine ⟨fun same => absurd (Option.some.inj same) (Nat.ne_of_gt kept.1), ?_, ?_⟩
            · exact (Heap.live_alloc _ _ _).mpr (.inl kept)
            · rw [Heap.read_alloc_old _ _ _ (Nat.ne_of_lt kept.1), Heap.read_release _ _ _ live apart, same]
          only := by
            intro b alive
            rcases (Heap.live_alloc _ _ _).mp alive with old | new
            · obtain ⟨alive, apart⟩ := (Heap.live_release s.arrays address b live).mp old
              exact (reading.only b alive).imp_right fun same => absurd (Option.some.inj (same.symm.trans here)) apart
            · exact .inr (new ▸ rfl) }
  · simp only [nothing, List.length_nil] at full
    omega

theorem reading_add (proc : Nat) (fill : ProcInfo → Except Stop ProcInfo) (realloc : Bool) (s : Globals)
    (reading : Reading stop before held fills [proc] lost rows s) (filled : Filled s fill proc)
    (refused : realloc = false → ∀ message, stop (.die message)) :
    Ends stop (Reading stop before held (fills ++ [fill]) [] lost (rows ++ [proc])) (addProc realloc rows.length proc s) := by
  have placed : ∀ after, Reading stop before held fills [proc] lost rows after → rows.length < after.numNewProcs →
      after.procs = s.procs → Ends stop (Reading stop before held (fills ++ [fill]) [] lost (rows ++ [proc]))
        (setSlot rows.length (some proc) after) := by
    intro after reading inside same
    rcases reading.listing with ⟨address, nulls, here, read, count⟩ | ⟨nowhere, _, crash⟩
    · obtain ⟨more, rfl⟩ : ∃ more, nulls = more + 1 := ⟨nulls - 1, by omega⟩
      rw [set_slot_spec after address _ rows.length (some proc) here read (by simp), set_behind rows proc more]
      have later : List.Forall₂ (Filled after) (fills ++ [fill]) (rows ++ [proc]) := by
        refine List.rel_append reading.filled (.cons ?_ .nil)
        obtain ⟨base, info, result, found⟩ := filled
        exact ⟨base, info, result, by rw [same]; exact found⟩
      refine reading_store stop before held fills lost rows [proc] (rows ++ [proc]) address more after _ reading here
        (Heap.read_some_live _ _ _ read) ?_ later [] (by simp [List.perm_middle])
      rw [count, List.length_append, List.length_singleton]
      omega
    · simp only [setSlot, procArray, nowhere]
      exact crash
  rw [addProc]
  by_cases full : rows.length ≥ s.numNewProcs
  · have exactly : rows.length = s.numNewProcs := by
      rcases reading.listing with ⟨_, _, _, _, count⟩ | ⟨_, nothing, _⟩
      · omega
      · have room := reading.room
        simp only [nothing, List.length_nil] at full
        omega
    rw [if_pos full]
    apply Ends.bind
    refine Ends.mono stop _ _ _ (reading_grow stop before held fills lost rows [proc] realloc s reading exactly refused) ?_
    rintro after ⟨reading, inside, same⟩
    exact placed after reading inside same
  · rw [if_neg full, except_ok_bind]
    exact placed s reading (Nat.lt_of_not_le full) rfl

def Gathered (losses : Nat) (r : Nat × Globals) : Prop :=
  ∃ lost rows, r.1 = rows.length ∧ lost.length = losses ∧ Reading stop before held fills [] lost rows r.2

theorem read_thread_gathers (losses : Nat) (pid : Int) (curProc : ProcInfo) (t : Thread) (r : Nat × Globals)
    (gathered : Gathered stop before held fills losses r)
    (serves : numeric t.dName = true → Serves stop t.malloc (fillThread pid curProc t) t.realloc) :
    Ends stop (Gathered stop before held (fills ++ threadFills pid curProc [t]) losses) (readThread pid curProc t r) := by
  obtain ⟨at_, s⟩ := r
  obtain ⟨lost, rows, rfl, rfl, reading⟩ := gathered
  by_cases named : numeric t.dName = true
  · obtain ⟨refused, fails⟩ := serves named
    have one : threadFills pid curProc [t] = [fillThread pid curProc t] := by simp [threadFills, named]
    rw [readThread, if_pos named, one]
    apply Ends.bind
    refine Ends.mono stop _ _ _ (reading_take stop before held fills lost rows t.malloc s reading fun no => refused (.inl no)) ?_
    rintro ⟨proc, s⟩ reading
    obtain ⟨base, _, filling⟩ := reading_fill stop before held fills lost rows proc _ s reading fails
    apply Ends.bind
    refine Ends.mono stop _ _ _ filling ?_
    rintro s ⟨reading, info, result, found⟩
    apply Ends.bind
    refine Ends.mono stop _ _ _ (reading_add stop before held fills lost rows proc _ t.realloc s reading
      ⟨base, info, result, found⟩ fun no => refused (.inr no)) fun s reading => ?_
    exact ⟨lost, rows ++ [proc], by simp, rfl, reading⟩
  · have none_ : threadFills pid curProc [t] = [] := by simp [threadFills, named]
    rw [readThread, if_neg named, none_, List.append_nil]
    exact ⟨lost, rows, rfl, rfl, reading⟩

theorem read_threads_gather (losses : Nat) (pid : Int) (curProc : ProcInfo) (tasks : List Thread) (r : Nat × Globals)
    (gathered : Gathered stop before held fills losses r)
    (serves : ∀ t ∈ tasks, numeric t.dName = true → Serves stop t.malloc (fillThread pid curProc t) t.realloc) :
    Ends stop (Gathered stop before held (fills ++ threadFills pid curProc tasks) losses)
      (tasks.foldlM (fun r t => readThread pid curProc t r) r) := by
  refine Ends.fold stop _ (fun behind => Gathered stop before held (fills ++ threadFills pid curProc behind) losses) tasks ?_ r
    (by simpa [threadFills] using gathered)
  intro behind t rest r split gathered
  have one_more : threadFills pid curProc (behind ++ [t]) = threadFills pid curProc behind ++ threadFills pid curProc [t] := by
    simp [threadFills]
  rw [one_more, ← List.append_assoc]
  exact read_thread_gathers stop before held _ losses pid curProc t r gathered (serves t (by simp [split]))

theorem read_process_gathers (losses : Nat) (threads : Bool) (p : Process) (r : Nat × Globals)
    (gathered : Gathered stop before held fills losses r) (serves : ServesProcess stop threads p) :
    Ends stop (Gathered stop before held (fills ++ fillsOf threads p) (losses + [p].countP (loses threads)))
      (readProcess threads r p) := by
  by_cases named : numeric p.dName = true
  · have allowed := serves named
    cases threads with
    | true =>
        have kept : [p].countP (loses true) = 0 := by simp [loses]
        rw [kept]
        cases task : p.task with
        | none =>
            have no_fill : fillsOf true p = [] := by simp [fillsOf, task]
            rw [readProcess, if_pos named, if_pos rfl, task, no_fill, List.append_nil]
            exact gathered
        | some tasks =>
            simp only [readProcess, fillsOf, named, task, if_true]
            exact read_threads_gather stop before held fills losses _ _ tasks r gathered (allowed tasks task)
    | false =>
        obtain ⟨refused, fails⟩ := allowed
        obtain ⟨at_, s⟩ := r
        obtain ⟨lost, rows, rfl, rfl, reading⟩ := gathered
        rw [readProcess, if_pos named, if_neg Bool.false_ne_true]
        apply Ends.bind
        refine Ends.mono stop _ _ _ (reading_take stop before held fills lost rows p.malloc s reading fun no => refused (.inl no)) ?_
        rintro ⟨proc, s⟩ reading
        obtain ⟨base, _, filling⟩ := reading_fill stop before held fills lost rows proc _ s reading fails
        apply Ends.bind
        refine Ends.mono stop _ _ _ filling ?_
        rintro s ⟨reading, info, result, found⟩
        cases task : p.task with
        | none =>
            have gone : [p].countP (loses false) = 1 := by simp [loses, named, task]
            have no_fill : fillsOf false p = [] := by simp [fillsOf, task]
            rw [gone, no_fill, List.append_nil]
            exact ⟨proc :: lost, rows, rfl, rfl, reading_lose stop before held fills lost rows proc s reading⟩
        | some tasks =>
            have kept : [p].countP (loses false) = 0 := by simp [loses, task]
            have one : fillsOf false p = [fun info => (fillProcess p info).map fun info => tasks.foldl countThread info] := by
              simp [fillsOf, named, task]
            rw [kept, one]
            obtain ⟨same, read, counting⟩ := reading_fill stop before held fills lost rows proc
              (fun info => .ok (tasks.foldl countThread info)) s reading (by simp)
            obtain rfl : info = same := Option.some.inj (found.symm.trans read)
            apply Ends.bind
            refine Ends.mono stop _ _ _ counting ?_
            rintro s ⟨reading, counted, count, found⟩
            have whole : Filled s (fun info => (fillProcess p info).map fun info => tasks.foldl countThread info) proc :=
              ⟨base, counted, by simp only [result]; exact count, found⟩
            apply Ends.bind
            refine Ends.mono stop _ _ _ (reading_add stop before held fills lost rows proc _ p.realloc s reading whole
              fun no => refused (.inr no)) fun s reading => ?_
            exact ⟨lost, rows ++ [proc], by simp, rfl, reading⟩
  · have no_fill : fillsOf threads p = [] := by simp [fillsOf, named]
    have kept : [p].countP (loses threads) = 0 := by simp [loses, named]
    rw [readProcess, if_neg named, no_fill, List.append_nil, kept]
    exact gathered

theorem read_processes_gather (threads : Bool) (processes : List Process) (r : Nat × Globals)
    (gathered : Gathered stop before held [] 0 r) (serves : ∀ p ∈ processes, ServesProcess stop threads p) :
    Ends stop (Gathered stop before held (processes.flatMap (fillsOf threads)) (processes.countP (loses threads)))
      (processes.foldlM (readProcess threads) r) := by
  refine Ends.fold stop _ (fun behind => Gathered stop before held (behind.flatMap (fillsOf threads))
    (behind.countP (loses threads))) processes ?_ r gathered
  intro behind p rest r split gathered
  rw [List.flatMap_append, List.flatMap_singleton, List.countP_append]
  exact read_process_gathers stop before held _ _ threads p r gathered (serves p (by simp [split]))

-- Every cell cleared was NULL already.
theorem clear_rest_reads (s : Globals) (reading : Reading stop before held fills [] lost rows s) :
    Ends stop (fun after => Reading stop before held fills [] lost rows after ∧
      Listing after.arrays after.newProcs after.numNewProcs rows) (clearRest rows.length s) := by
  have cleared : ∀ after i, Reading stop before held fills [] lost rows after → i ∈ List.range' rows.length (s.numNewProcs - rows.length) →
      after.numNewProcs = s.numNewProcs → Ends stop (fun next => Reading stop before held fills [] lost rows next ∧
        next.numNewProcs = s.numNewProcs ∧ Listing next.arrays next.newProcs next.numNewProcs rows) (setSlot i none after) := by
    intro after i reading range same
    obtain ⟨low, high⟩ := List.mem_range'_1.mp range
    rcases reading.listing with ⟨address, nulls, here, read, count⟩ | ⟨nowhere, _, crash⟩
    · have live := Heap.read_some_live _ _ _ read
      have unchanged : (rows.map some ++ List.replicate nulls none).set i none = rows.map some ++ List.replicate nulls none := by
        rw [List.set_append_right _ _ (by simpa using low), List.set_replicate_self]
      rw [set_slot_spec after address _ i none here read (by simp; omega), unchanged]
      have stored := listing_store after.arrays address nulls rows live
      rw [← count, ← here] at stored
      exact ⟨reading_store stop before held fills lost rows [] rows address nulls after _ reading here live count reading.filled []
        (List.Perm.refl _), same, stored⟩
    · simp only [setSlot, procArray, nowhere]
      exact crash
  refine Ends.mono stop (fun after => Reading stop before held fills [] lost rows after ∧ after.numNewProcs = s.numNewProcs ∧
    (List.range' rows.length (s.numNewProcs - rows.length) ≠ [] → Listing after.arrays after.newProcs after.numNewProcs rows)) _ _
    (Ends.fold stop _ (fun behind after => Reading stop before held fills [] lost rows after ∧
      after.numNewProcs = s.numNewProcs ∧ (behind ≠ [] → Listing after.arrays after.newProcs after.numNewProcs rows))
      _ ?_ s ⟨reading, rfl, fun some_ => absurd rfl some_⟩) ?_
  · rintro behind i rest after split ⟨reading, same, _⟩
    exact Ends.mono stop _ _ _ (cleared after i reading (by simp [split]) same) fun next ends => ⟨ends.1, ends.2.1, fun _ => ends.2.2⟩
  · rintro after ⟨reading, same, listed⟩
    refine ⟨reading, ?_⟩
    rcases reading.listing with listing | ⟨_, nothing, _⟩
    · exact listing
    · have room := reading.room
      refine listed fun nothing_left => ?_
      have count := congrArg List.length nothing_left
      simp only [List.length_range', nothing, List.length_nil] at count
      omega

theorem reading_starts (threads calloc : Bool) (cpu : CpuInfo) (s : Globals) (free : List Nat) (records : Records s free held)
    (crash : calloc = false → stop .nullPointer) :
    Reading stop { s with newCpu := cpu } held [] [] [] [] { newArray threads calloc s with newCpu := cpu } := by
  obtain ⟨pool, numUsed, numFree⟩ := records
  have count := Pool.count _ _ _ _ _ pool
  have fits : held.length ≤ s.procs.size := by omega
  have room : 0 < initProcs * (if threads then threadMult else 1) := by cases threads <;> decide
  cases calloc with
  | false => exact {
      records := ⟨free, pool, numUsed, numFree⟩
      room := room
      listing := .inr ⟨rfl, rfl, crash rfl⟩
      filled := .nil
      kept := fun p _ => rfl
      others := fun b live => ⟨nofun, live, rfl⟩
      only := fun b live => .inl live
      old := ⟨rfl, rfl⟩
      cpu := ⟨rfl, rfl⟩
      size := (Nat.max_eq_left fits).symm }
  | true => exact {
      records := ⟨free, pool, numUsed, numFree⟩
      room := room
      listing := .inl ⟨_, _, rfl, Heap.read_alloc_fresh _ _, (Nat.zero_add _).symm⟩
      filled := .nil
      kept := fun p _ => rfl
      others := fun b live =>
        ⟨fun same => absurd (Option.some.inj same) (Nat.ne_of_gt live.1), (Heap.live_alloc _ _ _).mpr (.inl live),
          Heap.read_alloc_old _ _ _ (Nat.ne_of_lt live.1)⟩
      only := fun b live => ((Heap.live_alloc _ _ _).mp live).imp_right fun new => by rw [new]; rfl
      old := ⟨rfl, rfl⟩
      cpu := ⟨rfl, rfl⟩
      size := (Nat.max_eq_left fits).symm }

theorem read_procs_spec (threads : Bool) (snap : Snapshot) (s : Globals) (free : List Nat) (records : Records s free held)
    (serves : ServesSnapshot stop threads snap) :
    Ends stop (fun after => ∃ lost rows, lost.length = snap.losses threads ∧
      Reading stop { s with newCpu := snap.cpu s.newCpu } held (snap.fills threads) [] lost rows after ∧
      Listing after.arrays after.newProcs after.numNewProcs rows) (readProcs threads snap s) := by
  cases proc : snap.proc with
  | none =>
      simp only [readProcs, proc]
      exact serves.files (.inl proc) _
  | some processes =>
      cases stat : snap.stat with
      | none =>
          simp only [readProcs, proc, stat]
          exact serves.files (.inr stat) _
      | some text =>
          have each := serves.each
          simp only [readProcs, Snapshot.fills, Snapshot.losses, Snapshot.cpu, Snapshot.processes, proc, stat,
            Option.getD_some] at each ⊢
          have begun := reading_starts stop held threads snap.calloc (sscanf cpuFormat text s.newCpu) s free records serves.array
          apply Ends.bind
          have same_cpu : (newArray threads snap.calloc s).newCpu = s.newCpu := by
            cases snap.calloc <;> rfl
          rw [same_cpu]
          refine Ends.mono stop _ _ _ (read_processes_gather stop _ held threads processes _
            ⟨[], [], rfl, rfl, begun⟩ each) ?_
          rintro ⟨_, after⟩ ⟨lost, rows, rfl, losses, reading⟩
          refine Ends.mono stop _ _ _ (clear_rest_reads stop _ held _ lost rows after reading) ?_
          rintro last ⟨reading, listing⟩
          exact ⟨lost, rows, losses, reading, listing⟩

end Reading
end LinuxModule.Top
