import LinuxModule.SteTop.State

set_option autoImplicit false

namespace LinuxModule.SteTop

def nsecPerSec : Int := 1000000000

-- et: the nanoseconds since the previous call in time64_t arithmetic, at least 10 ms.
def elapsed (cur sav : Timespec) : Int :=
  let et := cLong (cLong (cLong (cur.sec - sav.sec) * nsecPerSec) + (cur.nsec - sav.nsec))
  if et < nsecPerSec / 100 then nsecPerSec / 100 else et

def kfreeHst (pos : Nat) (t : Tables) : Except Fault Tables :=
  match t.hsts.free pos with
  | some hsts => .ok { t with hsts := hsts }
  | none => .error .badAddress

def readHst (pos : Nat) (t : Tables) : Except Fault Hst :=
  match t.hsts.read pos with
  | some item => .ok item
  | none => .error .badAddress

-- First loop of procs_hlp(NULL), and the loop of proc_stats_exit: unlink and free.
def emptyOld (t : Tables) : Except Fault Tables :=
  Buckets.forEachSafe Tables.hashTableOld
    (fun pos t => kfreeHst pos { t with hashTableOld := t.hashTableOld.remove pos }) t

-- Second loop of procs_hlp(NULL): move data from hash_table_new to hash_table_old.
def moveNew (hash : Hash) (t : Tables) : Except Fault Tables :=
  Buckets.forEachSafe Tables.hashTableNew
    (fun pos t => do
      let item ← readHst pos t
      .ok { t with
        hashTableNew := t.hashTableNew.remove pos
        hashTableOld := t.hashTableOld.insert (hash item.pid) pos }) t

def rotate (hash : Hash) (t : Tables) : Except Fault Tables := do
  let t ← emptyOld t
  moveNew hash t

-- hash_for_each_possible over hash_table_old: the time of the first node of the
-- bucket with this pid and comm.
def lookup (t : Tables) (pid : Pid) (comm : Comm) : List Nat → Except Fault (Option UInt64)
  | [] => .ok none
  | pos :: rest => do
      let item ← readHst pos t
      if item.pid = pid ∧ item.comm = comm then .ok (some item.cpuTime) else lookup t pid comm rest

-- The branch of procs_hlp that is called with NULL, before a walk.
def procsHlpNull (hash : Hash) (uptimeCur : Timespec) : W Unit := do
  Walk.modify fun s =>
    { s with
      et := elapsed uptimeCur s.uptimeSav
      uptimeSav := uptimeCur
      slots := { s.slots with total := 0 }
      counters := ⟨0, 0, 0, 0, 0⟩ }
  onTables fun t => (rotate hash t).map fun t => ((), t)

theorem procs_hlp_null_result (hash : Hash) (uptimeCur : Timespec) (s ready : Globals)
    (ran : (procsHlpNull hash uptimeCur s).result = .ok ((), ready)) :
    ∃ tables, rotate hash s.tables = .ok tables ∧ ready = { s with
      tables := tables
      slots := { s.slots with total := 0 }
      counters := ⟨0, 0, 0, 0, 0⟩
      et := elapsed uptimeCur s.uptimeSav
      uptimeSav := uptimeCur } := by
  obtain ⟨_, _, modified, rotating⟩ := (Walk.result_bind _ _ s ready _).mp ran
  cases modified
  obtain ⟨_, mapped, rfl⟩ := on_tables_result _ _ _ _ rotating
  obtain ⟨tables, rotated, same⟩ := (except_map_ok _ _ _).mp mapped
  cases same
  exact ⟨_, rotated, rfl⟩

def taskInterruptible : UInt64 := 0x1
def taskUninterruptible : UInt64 := 0x2
def taskStopped : UInt64 := 0x104
def taskTraced : UInt64 := 0x108
def exitZombie : Int := 0x20

-- TASK_RUNNING is zero, 68 is the character D.
def countState (info : ProcInfo) (c : Counters) : Counters :=
  if info.state = 0 then { c with running := c.running + 1 }
  else if info.stateC = 68 then { c with dProcess := c.dProcess + 1 }
  else if info.state &&& (taskInterruptible ||| taskUninterruptible) ≠ 0 then { c with sleeping := c.sleeping + 1 }
  else if info.exitState = exitZombie then { c with zombie := c.zombie + 1 }
  else if info.state &&& (taskStopped ||| taskTraced) ≠ 0 then { c with stopped := c.stopped + 1 }
  else c

def readRow (this : Nat) (t : Slots) : Except Fault ProcInfo :=
  match t.rows.read this with
  | some info => .ok info
  | none => .error .badAddress

def writeRow (this : Nat) (info : ProcInfo) (t : Slots) : Except Fault Slots :=
  match t.rows.write this info with
  | some rows => .ok { t with rows := rows }
  | none => .error .badAddress

-- The sample of this process goes into hash_table_new; the time it used since the
-- previous call is what remains after the matching node of hash_table_old.
def takeSample (hash : Hash) (info : ProcInfo) (t : Tables) : Except Fault (UInt64 × Tables) := do
  let cpuTime := info.utime + info.stime
  let t : Tables := { t with
    hsts := t.hsts.alloc ⟨info.pid, cpuTime, info.comm⟩
    hashTableNew := t.hashTableNew.insert (hash info.pid) t.hsts.size }
  let item ← lookup t info.pid info.comm (t.hashTableOld (hash info.pid))
  match item with
  | some before => .ok (cpuTime - before, t)
  | none => .ok (cpuTime, t)

-- procs_hlp on a row. hst says how the kmalloc of the sample ends.
def procsHlp (hash : Hash) (hst : Bool) (this : Nat) : W Unit := do
  let info ← onSlots fun t => (readRow this t).map fun info => (info, t)
  Walk.modify fun s =>
    { s with
      slots := { s.slots with total := s.slots.total + 1 }
      counters := countState info s.counters }
  Walk.mark (.kmalloc .hst hst)
  if hst then
    let perCpuTime ← onTables (takeSample hash info)
    onSlots fun t => (writeRow this { info with perCpuTime := perCpuTime } t).map fun t => ((), t)

def slotArray (t : Slots) : Except Fault (Nat × List (Option Nat)) :=
  match t.processInfo with
  | none => .error .nullPointer
  | some address =>
      match t.arrays.read address with
      | none => .error .badAddress
      | some slots => .ok (address, slots)

def getSlot (t : Slots) (i : Nat) : Except Fault (Option Nat) := do
  let (_, slots) ← slotArray t
  match slots[i]? with
  | none => .error .outOfBounds
  | some slot => .ok slot

def setSlot (t : Slots) (i : Nat) (slot : Option Nat) : Except Fault Slots := do
  let (address, slots) ← slotArray t
  if i < slots.length then
    match t.arrays.write address (slots.set i slot) with
    | none => .error .badAddress
    | some arrays => .ok { t with arrays := arrays }
  else .error .outOfBounds

def nextAlloc (nAlloc : Int) : Int := cInt (10 + (cInt (nAlloc * 5)).tdiv 4)

-- A negative n_alloc asks kmalloc for more than 2^63 bytes, which it refuses.
def granted (array : Bool) (nAlloc : Int) : Bool := array && decide (0 ≤ nAlloc)

-- kfree(process_info), where NULL is allowed.
def kfreeArray (processInfo : Option Nat) (arrays : Heap (List (Option Nat))) :
    Except Fault (Heap (List (Option Nat))) :=
  match processInfo with
  | none => .ok arrays
  | some address =>
      match arrays.free address with
      | none => .error .badAddress
      | some arrays => .ok arrays

-- What memcpy reads of the old array: the first total pointers, nothing when total is 0.
def copySource (t : Slots) : Except Fault (List (Option Nat)) :=
  if t.total = 0 then .ok [] else (slotArray t).map Prod.snd

-- The growth block. The result says whether the walk goes on with this process;
-- n_alloc keeps its new value either way.
def growArray (array : Bool) (t : Slots) : Except Fault (Bool × Slots) := do
  let nAlloc := nextAlloc t.nAlloc
  if granted array nAlloc then
    let old ← copySource t
    if old.length < t.total ∨ nAlloc.toNat < t.total then .error .outOfBounds
    else
      let new := old.take t.total ++ List.replicate (nAlloc.toNat - t.total) none
      let arrays ← kfreeArray t.processInfo (t.arrays.alloc new)
      .ok (true, { t with nAlloc := nAlloc, processInfo := some t.arrays.size, arrays := arrays })
  else .ok (false, { t with nAlloc := nAlloc })

def readSlot : W (Option Nat) := do
  Walk.mark .access
  onSlots fun t => (getSlot t t.total).map fun slot => (slot, t)

theorem read_slot_result (s next : Globals) (slot : Option Nat) (ran : (readSlot s).result = .ok (slot, next)) :
    getSlot s.slots s.slots.total = .ok slot ∧ next = s := by
  obtain ⟨_, _, marked, rest⟩ := (Walk.result_bind _ _ _ _ _).mp ran
  cases marked
  obtain ⟨slots, mapped, rfl⟩ := on_slots_result _ _ _ _ rest
  obtain ⟨found, read, same⟩ := (except_map_ok _ _ _).mp mapped
  cases same
  exact ⟨read, rfl⟩

-- process_info[total] = kmalloc(sizeof(struct proc_info), GFP_KERNEL).
def storeSlot (row : Option ProcInfo) : W Unit := do
  Walk.mark .access
  onSlots fun t =>
    match row with
    | none => (setSlot t t.total none).map fun t => ((), t)
    | some info =>
        (setSlot { t with rows := t.rows.alloc info } t.total (some t.rows.size)).map fun t => ((), t)

def maxRtPrio : Int := 100
-- PAGE_SHIFT - 10 with 4 KiB pages.
def pageToKb : UInt64 := 2

-- Everything the walk stores in a row. per_cpu_time is left to procs_hlp, and the
-- uid read from the credentials is overwritten with 0 at once.
def fillRow (task : Task) (info : ProcInfo) : ProcInfo :=
  { info with
    comm := task.comm
    pid := task.pid
    priority := task.prio - maxRtPrio
    nice := task.nice
    state := task.state
    exitState := task.exitState
    utime := task.utime
    stime := task.stime
    uid := 0
    stateC := task.stateC
    cutime := task.cutime
    cstime := task.cstime
    numThreads := task.numThreads
    virtualMem := match task.mm with
      | some mm => mm.totalVm <<< pageToKb
      | none => 0
    sharedMem := match task.mm with
      | some mm => (mm.filePages + mm.shmemPages) <<< pageToKb
      | none => 0
    resident := match task.mm with
      | some mm => (mm.filePages + mm.shmemPages + mm.anonPages) <<< pageToKb
      | none => 0 }

def addCredRef (cred : Nat) (change : Int) (s : Globals) : Globals :=
  { s with credRefs := fun c => if c = cred then s.credRefs c + change else s.credRefs c }

def rowOf (slot : Option Nat) : W Nat :=
  Walk.act fun s =>
    match slot with
    | none => .error .nullPointer
    | some row => .ok (row, s)

theorem row_of_result (slot : Option Nat) (s next : Globals) (row : Nat)
    (ran : (rowOf slot s).result = .ok (row, next)) : next = s := by
  cases slot with
  | none => cases ran
  | some found =>
      cases ran
      rfl

-- One reading of process_info[total] stands for the field by field ones: nothing
-- between them changes the slot.
def recordTask (hash : Hash) (v : Visit) : W Unit := do
  let row ← rowOf (← readSlot)
  onSlots fun t => do
    let info ← readRow row t
    let t ← writeRow row (fillRow v.task info) t
    .ok ((), t)
  Walk.modify (addCredRef v.task.cred (-1))
  let this ← rowOf (← readSlot)
  procsHlp hash v.hst this

-- `if (!process_info[total]) process_info[total] = kmalloc(...)`.
def allocRow (row : Option ProcInfo) (slot : Option Nat) : W Unit :=
  if slot.isNone then do
    Walk.mark (.kmalloc .row row.isSome)
    storeSlot row
  else pure ()

-- The result says whether the slot holds a row afterwards.
def placeRow (row : Option ProcInfo) : W Bool := do
  let slot ← readSlot
  allocRow row slot
  let slot ← readSlot
  pure slot.isSome

-- `if (n_alloc == total)`, where the int is converted to unsigned.
def growFull (array : Bool) (s : Globals) : W Bool :=
  if s.slots.nAlloc % 2 ^ 32 = s.slots.total then do
    Walk.mark (.kmalloc .array (granted array (nextAlloc s.slots.nAlloc)))
    onSlots (growArray array)
  else pure true

def makeRoom (array : Bool) : W Bool := do
  let s ← Walk.get
  let room ← growFull array s
  Walk.mark .grown
  pure room

-- The body of for_each_process. Both early ends leave the credential reference held.
def visitTask (hash : Hash) (v : Visit) : W Unit := do
  Walk.mark .visit
  Walk.modify (addCredRef v.task.cred 1)
  if ← makeRoom v.array then
    if ← placeRow v.row then
      recordTask hash v

def procsRefresh (hash : Hash) (r : Refresh) : W Unit := do
  procsHlpNull hash r.uptimeCur
  Walk.forEach r.visits (visitTask hash)
  Walk.mark .refreshed

end LinuxModule.SteTop
