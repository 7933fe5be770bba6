import LinuxModule.Base.Walk
import LinuxModule.Base.Heap
import LinuxModule.Base.Buckets

set_option autoImplicit false

namespace LinuxModule.ProcessCpuUsage

abbrev Pid := Int

-- 2^10 buckets, and whatever function hash_add and hash_for_each_possible use.
abbrev Table := Buckets 1024
abbrev Hash := Pid → Fin 1024

structure ProcInfo where
  pid : Pid
  cpuTime : UInt64
  comm : List UInt8
deriving DecidableEq

inductive Report where
  | delta (pid : Pid) (comm : List UInt8) (cpuTimeDelta : UInt64)
  | noData (pid : Pid)
deriving DecidableEq

inductive Fault where
  | badAddress
deriving DecidableEq, Repr

structure State where
  hashTableA : Table
  hashTableB : Table
  infos : Heap ProcInfo
  log : List Report

structure Task where
  pid : Pid
  utime : UInt64
  stime : UInt64
  comm : List UInt8
deriving DecidableEq

-- One step of for_each_process: the task and how the kmalloc made for it ends.
structure Visit where
  task : Task
  kmalloc : Bool
deriving DecidableEq

def readInfo (pos : Nat) (s : State) : Except Fault ProcInfo :=
  match s.infos.read pos with
  | some info => .ok info
  | none => .error .badAddress

def kfreeInfo (pos : Nat) (s : State) : Except Fault State :=
  match s.infos.free pos with
  | some infos => .ok { s with infos := infos }
  | none => .error .badAddress

def moveNode (hash : Hash) (posB : Nat) (s : State) : Except Fault State := do
  let info ← readInfo posB s
  .ok { s with
    hashTableB := s.hashTableB.remove posB
    hashTableA := s.hashTableA.insert (hash info.pid) posB }

-- The loop that both process_data and collect_cpu_usage have: move data from
-- hash_table_b to hash_table_a.
def moveBToA (hash : Hash) (s : State) : Except Fault State :=
  Buckets.forEachSafe State.hashTableB (moveNode hash) s

-- hash_for_each_possible over hash_table_b, up to the first node with this pid.
def findB (s : State) (pid : Pid) : List Nat → Except Fault (Option ProcInfo)
  | [] => .ok none
  | posB :: rest => do
      let info ← readInfo posB s
      if pid = info.pid then .ok (some info) else findB s pid rest

def reportOf (info : ProcInfo) : Option ProcInfo → Report
  | some later => .delta info.pid info.comm (later.cpuTime - info.cpuTime)
  | none => .noData info.pid

def processNode (hash : Hash) (posA : Nat) (s : State) : Except Fault State := do
  let info ← readInfo posA s
  let found ← findB s info.pid (s.hashTableB (hash info.pid))
  kfreeInfo posA { s with
    log := s.log ++ [reportOf info found]
    hashTableA := s.hashTableA.remove posA }

def processData (hash : Hash) (s : State) : Except Fault State := do
  let s ← Buckets.forEachSafe State.hashTableA (processNode hash) s
  moveBToA hash s

def collectTask (hash : Hash) (s : State) (visit : Visit) : State :=
  if visit.kmalloc then
    let task := visit.task
    { s with
      infos := s.infos.alloc ⟨task.pid, task.utime + task.stime, task.comm⟩
      hashTableB := s.hashTableB.insert (hash task.pid) s.infos.size }
  else s

def collectCpuUsage (hash : Hash) (visits : List Visit) (s : State) : Except Fault State := do
  let s ← moveBToA hash s
  .ok (visits.foldl (collectTask hash) s)

def loaded : State := ⟨Buckets.empty, Buckets.empty, Heap.empty, []⟩

def cpuUsageInit (hash : Hash) (first second : List Visit) (s : State) : Except Fault State := do
  let s := { s with hashTableA := Buckets.empty, hashTableB := Buckets.empty }
  let s ← collectCpuUsage hash first s
  let s ← collectCpuUsage hash second s
  processData hash s

def freeNode (info : Nat) (s : State) : Except Fault State :=
  kfreeInfo info { s with hashTableA := s.hashTableA.remove info }

def cpuUsageExit (s : State) : Except Fault State := Buckets.forEachSafe State.hashTableA freeNode s

theorem read_info_some (pos : Nat) (s : State) (info : ProcInfo) (access : s.infos.read pos = some info) :
    readInfo pos s = .ok info := by
  simp only [readInfo, access]

theorem kfree_info_live (pos : Nat) (s : State) (live : s.infos.Live pos) :
    kfreeInfo pos s = .ok { s with infos := s.infos.release pos live } := by
  simp only [kfreeInfo, Heap.free_live s.infos pos live]

end LinuxModule.ProcessCpuUsage
