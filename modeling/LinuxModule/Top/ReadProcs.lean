import LinuxModule.Top.State

set_option autoImplicit false

namespace LinuxModule.Top

open Stdio

-- An entry of a task directory. malloc and realloc are how those calls end, if they are
-- made for it.
structure Thread where
  dName : List UInt8
  stat : StatFile
  malloc : Option ProcInfo
  realloc : Bool
deriving DecidableEq

-- An entry of /proc. task is none when its task directory cannot be opened, curProc is
-- what the stack holds where cur_proc is.
structure Process where
  dName : List UInt8
  stat : StatFile
  cmdline : Option (List UInt8)
  status : Option (List UInt8)
  uninit : UInt32 × UInt32
  curProc : ProcInfo
  task : Option (List Thread)
  malloc : Option ProcInfo
  realloc : Bool
deriving DecidableEq

-- What one read_procs finds: /proc, the outcome of calloc, and /proc/stat.
structure Snapshot where
  proc : Option (List Process)
  calloc : Bool
  stat : Option (List UInt8)
deriving DecidableEq

-- isdigit(d_name[0])
def numeric (dName : List UInt8) : Bool :=
  match dName with
  | [] => false
  | b :: _ => Scanf.isdigit b

-- The cells that realloc adds are set to NULL at once.
def growProcs (realloc : Bool) (s : Globals) : Except Stop Globals := do
  if realloc then
    let (address, slots) ← procArray s.newProcs s
    match s.arrays.free address with
    | none => .error .badAddress
    | some arrays =>
        .ok { s with
          arrays := arrays.alloc (slots ++ List.replicate (2 * s.numNewProcs - slots.length) none)
          newProcs := some arrays.size
          numNewProcs := 2 * s.numNewProcs }
  else .error (.die "Could not expand procs array.\n")

def addProc (realloc : Bool) (procNum : Nat) (proc : Nat) (s : Globals) : Except Stop Globals := do
  let s ← if procNum ≥ s.numNewProcs then growProcs realloc s else .ok s
  setSlot procNum (some proc) s

def fillThread (pid : Int) (curProc : ProcInfo) (t : Thread) (proc : ProcInfo) : Except Stop ProcInfo := do
  let proc ← readStat t.stat { proc with pid := pid, tid := atoi t.dName }
  .ok { proc with name := curProc.name, uid := curProc.uid, gid := curProc.gid }

def readThread (pid : Int) (curProc : ProcInfo) (t : Thread) (at_ : Nat × Globals) : Except Stop (Nat × Globals) := do
  if numeric t.dName then
    let (proc, s) ← allocProc t.malloc at_.2
    let s ← updateProc proc (fillThread pid curProc t) s
    let s ← addProc t.realloc at_.1 proc s
    .ok (at_.1 + 1, s)
  else .ok at_

-- read_policy does nothing.
def fillProcess (p : Process) (proc : ProcInfo) : Except Stop ProcInfo := do
  let pid := atoi p.dName
  let proc ← readStat p.stat { proc with pid := pid, tid := pid }
  let proc := readCmdline p.cmdline proc
  let proc := readStatus p.status p.uninit proc
  .ok { proc with numThreads := 0 }

def countThread (proc : ProcInfo) (t : Thread) : ProcInfo :=
  if numeric t.dName then { proc with numThreads := proc.numThreads + 1 } else proc

def sharedProc (p : Process) : ProcInfo := readStatus p.status p.uninit (readCmdline p.cmdline p.curProc)

-- The record of a process whose task directory is gone is not kept anywhere.
def readProcess (threads : Bool) (at_ : Nat × Globals) (p : Process) : Except Stop (Nat × Globals) := do
  if numeric p.dName then
    if threads then
      match p.task with
      | none => .ok at_
      | some tasks => tasks.foldlM (fun at_ t => readThread (atoi p.dName) (sharedProc p) t at_) at_
    else
      let (proc, s) ← allocProc p.malloc at_.2
      let s ← updateProc proc (fillProcess p) s
      match p.task with
      | none => .ok (at_.1, s)
      | some tasks =>
          let s ← updateProc proc (fun info => .ok (tasks.foldl countThread info)) s
          let s ← addProc p.realloc at_.1 proc s
          .ok (at_.1 + 1, s)
  else .ok at_

def newArray (threads calloc : Bool) (s : Globals) : Globals :=
  let size := initProcs * (if threads then threadMult else 1)
  if calloc then
    { s with
      arrays := s.arrays.alloc (List.replicate size none)
      newProcs := some s.arrays.size
      numNewProcs := size }
  else { s with newProcs := none, numNewProcs := size }

-- for (i = proc_num; i < num_new_procs; i++) new_procs[i] = NULL;
def clearRest (procNum : Nat) (s : Globals) : Except Stop Globals :=
  (List.range' procNum (s.numNewProcs - procNum)).foldlM (fun s i => setSlot i none s) s

def readProcs (threads : Bool) (snap : Snapshot) (s : Globals) : Except Stop Globals := do
  match snap.proc with
  | none => .error (.die "Could not open /proc.\n")
  | some processes =>
      let s := newArray threads snap.calloc s
      match snap.stat with
      | none => .error (.die "Could not open /proc/stat.\n")
      | some text =>
          let s := { s with newCpu := sscanf cpuFormat text s.newCpu }
          let (procNum, s) ← processes.foldlM (readProcess threads) (0, s)
          clearRest procNum s

end LinuxModule.Top
