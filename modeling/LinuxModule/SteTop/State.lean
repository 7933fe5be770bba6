import LinuxModule.Base.Walk
import LinuxModule.Base.Heap
import LinuxModule.Base.Buckets
import LinuxModule.Base.CInt
import LinuxModule.Base.Kernel

set_option autoImplicit false

namespace LinuxModule.SteTop

abbrev Pid := Int

-- A comm array is read as a C string, so it is modelled by its bytes before the NUL.
abbrev Comm := List UInt8

-- 2^10 buckets, and whatever function hash_add and hash_for_each_possible use.
abbrev Table := Buckets 1024
abbrev Hash := Pid → Fin 1024

structure Hst where
  pid : Pid
  cpuTime : UInt64
  comm : Comm
deriving DecidableEq

-- `state` is a long that is only compared with zero and masked.
structure ProcInfo where
  pid : Pid
  uid : UInt32
  priority : Int
  nice : Int
  perCpuTime : UInt64
  resident : UInt64
  virtualMem : UInt64
  sharedMem : UInt64
  state : UInt64
  stateC : UInt8
  exitState : Int
  utime : UInt64
  stime : UInt64
  cutime : UInt64
  cstime : UInt64
  comm : Comm
  numThreads : Int
deriving DecidableEq

structure AllCpuTime where
  user : UInt64
  system : UInt64
  nice : UInt64
  idle : UInt64
  iowait : UInt64
  irq : UInt64
  softirq : UInt64
  steal : UInt64
deriving DecidableEq

def AllCpuTime.zero : AllCpuTime := ⟨0, 0, 0, 0, 0, 0, 0, 0⟩

structure Timespec where
  sec : Int
  nsec : Int
deriving DecidableEq

inductive Fault where
  | nullPointer
  | outOfBounds
  | badAddress
deriving DecidableEq, Repr

structure Tables where
  hashTableOld : Table
  hashTableNew : Table
  hsts : Heap Hst

-- The row array: process_info is NULL or the address of an array of row pointers.
structure Slots where
  processInfo : Option Nat
  nAlloc : Int
  total : Nat
  arrays : Heap (List (Option Nat))
  rows : Heap ProcInfo

structure Counters where
  running : Nat
  sleeping : Nat
  stopped : Nat
  zombie : Nat
  dProcess : Nat
deriving DecidableEq

-- The module's globals. credRefs is the reference count of each credential object,
-- counted from its value when the module was loaded.
structure Globals where
  tables : Tables
  slots : Slots
  counters : Counters
  kbMemTotal : UInt64
  et : Int
  uptimeSav : Timespec
  oldAllCpuTime : AllCpuTime
  newAllCpuTime : AllCpuTime
  credRefs : Nat → Int

def initial : Globals where
  tables := ⟨Buckets.empty, Buckets.empty, Heap.empty⟩
  slots := ⟨none, 0, 0, Heap.empty, Heap.empty⟩
  counters := ⟨0, 0, 0, 0, 0⟩
  kbMemTotal := 0
  et := 0
  uptimeSav := ⟨0, 0⟩
  oldAllCpuTime := AllCpuTime.zero
  newAllCpuTime := AllCpuTime.zero
  credRefs := fun _ => 0

inductive Alloc where
  | array
  | row
  | hst
deriving DecidableEq, Repr

-- Points of a walk. A kmalloc is marked with its outcome before anything is stored,
-- an access to process_info[total] just before it is made.
inductive Point where
  | visit
  | kmalloc (what : Alloc) (ok : Bool)
  | grown
  | access
  | refreshed
deriving DecidableEq, Repr

abbrev W (α : Type) := Walk Fault Point Globals α

def onTables {α : Type} (f : Tables → Except Fault (α × Tables)) : W α :=
  Walk.act fun s => (f s.tables).map fun r => (r.1, { s with tables := r.2 })

def onSlots {α : Type} (f : Slots → Except Fault (α × Slots)) : W α :=
  Walk.act fun s => (f s.slots).map fun r => (r.1, { s with slots := r.2 })

theorem on_tables_result {α : Type} (f : Tables → Except Fault (α × Tables)) (s after : Globals) (a : α)
    (ran : (onTables f s).result = .ok (a, after)) :
    ∃ tables, f s.tables = .ok (a, tables) ∧ after = { s with tables := tables } := by
  obtain ⟨⟨b, tables⟩, found, same⟩ := (except_map_ok _ _ _).mp ran
  obtain ⟨rfl, rfl⟩ := Prod.mk.inj same
  exact ⟨tables, found, rfl⟩

theorem on_slots_result {α : Type} (f : Slots → Except Fault (α × Slots)) (s after : Globals) (a : α)
    (ran : (onSlots f s).result = .ok (a, after)) :
    ∃ slots, f s.slots = .ok (a, slots) ∧ after = { s with slots := slots } := by
  obtain ⟨⟨b, slots⟩, found, same⟩ := (except_map_ok _ _ _).mp ran
  obtain ⟨rfl, rfl⟩ := Prod.mk.inj same
  exact ⟨slots, found, rfl⟩

theorem final_on_tables {α : Type} (f : Tables → Except Fault (α × Tables)) (s after : Globals)
    (ran : Walk.final (onTables f) s = .ok after) :
    ∃ a tables, f s.tables = .ok (a, tables) ∧ after = { s with tables := tables } := by
  obtain ⟨⟨a, _⟩, done, rfl⟩ := (except_map_ok _ _ _).mp ran
  exact ⟨a, on_tables_result f s _ a done⟩

theorem final_on_slots {α : Type} (f : Slots → Except Fault (α × Slots)) (s after : Globals)
    (ran : Walk.final (onSlots f) s = .ok after) :
    ∃ a slots, f s.slots = .ok (a, slots) ∧ after = { s with slots := slots } := by
  obtain ⟨⟨a, _⟩, done, rfl⟩ := (except_map_ok _ _ _).mp ran
  exact ⟨a, on_slots_result f s _ a done⟩

structure Mm where
  totalVm : UInt64
  filePages : UInt64
  shmemPages : UInt64
  anonPages : UInt64
deriving DecidableEq

-- What procs_refresh reads of one task_struct. utime and stime are the values
-- thread_group_cputime_adjusted stores, cred names the object get_task_cred returns.
structure Task where
  pid : Pid
  comm : Comm
  prio : Int
  nice : Int
  state : UInt64
  exitState : Int
  utime : UInt64
  stime : UInt64
  cred : Nat
  stateC : UInt8
  cutime : UInt64
  cstime : UInt64
  numThreads : Int
  mm : Option Mm
deriving DecidableEq

-- One step of for_each_process: the task and how each kmalloc made for it would end.
-- A row that is handed out carries the uninitialised bytes it is made of.
structure Visit where
  task : Task
  array : Bool
  row : Option ProcInfo
  hst : Bool
deriving DecidableEq

-- One call of procs_refresh: the boot time it reads and the walk it makes.
structure Refresh where
  uptimeCur : Timespec
  visits : List Visit
deriving DecidableEq

end LinuxModule.SteTop
