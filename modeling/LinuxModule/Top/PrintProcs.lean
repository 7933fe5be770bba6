import LinuxModule.Base.Qsort
import LinuxModule.Top.ReadProcs

set_option autoImplicit false

namespace LinuxModule.Top

-- A record in the array, with its pointer.
abbrev Entry := Nat × ProcInfo

def numcmp (a b : Int) : Int := if a < b then -1 else if a > b then 1 else 0

def procCmp (key : ProcInfo → Int) : Option Entry → Option Entry → Int := Qsort.nullsLast numcmp fun entry => key entry.2

-- numcmp takes long longs, which delta_time is converted to.
def cpuKey (info : ProcInfo) : Int := cLong info.deltaTime.toNat
def vssKey (info : ProcInfo) : Int := info.vss
def rssKey (info : ProcInfo) : Int := info.rss
def thrKey (info : ProcInfo) : Int := info.numThreads

def procCpuCmp : Option Entry → Option Entry → Int := procCmp cpuKey
def procVssCmp : Option Entry → Option Entry → Int := procCmp vssKey
def procRssCmp : Option Entry → Option Entry → Int := procCmp rssKey
def procThrCmp : Option Entry → Option Entry → Int := procCmp thrKey

-- What proc_cmp can point to.
inductive Column where
  | cpu
  | vss
  | rss
  | thr
deriving DecidableEq, Repr

def Column.cmp : Column → Option Entry → Option Entry → Int
  | .cpu => procCpuCmp
  | .vss => procVssCmp
  | .rss => procRssCmp
  | .thr => procThrCmp

structure Options where
  maxProcs : Int
  delay : Int
  iterations : Int
  column : Column
  threads : Bool
deriving DecidableEq

def searchProcs (pid tid : Int) (s : Globals) : List (Option Nat) → Except Stop (Option ProcInfo)
  | [] => .ok none
  | none :: rest => searchProcs pid tid s rest
  | some proc :: rest => do
      let info ← readProc s proc
      if info.pid = pid ∧ info.tid = tid then .ok (some info) else searchProcs pid tid s rest

def findOldProc (pid tid : Int) (s : Globals) : Except Stop (Option ProcInfo) := do
  let slots ← firstSlots s.oldProcs s.numOldProcs s
  searchProcs pid tid s slots

def withDeltas (old : Option ProcInfo) (info : ProcInfo) : ProcInfo :=
  let (deltaUtime, deltaStime) :=
    match old with
    | some before => (info.utime - before.utime, info.stime - before.stime)
    | none => (0, 0)
  { info with deltaUtime := deltaUtime, deltaStime := deltaStime, deltaTime := deltaUtime + deltaStime }

def deltaSlot (s : Globals) (slot : Option Nat) : Except Stop Globals :=
  match slot with
  | none => .ok s
  | some proc => do
      let info ← readProc s proc
      let old ← findOldProc info.pid info.tid s
      updateProc proc (fun info => .ok (withDeltas old info)) s

def CpuInfo.total (cpu : CpuInfo) : UInt64 :=
  cpu.utime + cpu.ntime + cpu.stime + cpu.itime + cpu.iowtime + cpu.irqtime + cpu.sirqtime

def readSlot (s : Globals) (slot : Option Nat) : Except Stop (Option Entry) :=
  match slot with
  | none => .ok none
  | some proc => (readProc s proc).map fun info => some (proc, info)

-- qsort(new_procs, num_new_procs, ...): the comparison reads the records behind the pointers.
def sortProcs (sort : Qsort (Option Entry)) (column : Column) (s : Globals) : Except Stop Globals := do
  let slots ← firstSlots s.newProcs s.numNewProcs s
  let entries ← slots.mapM (readSlot s)
  let (address, whole) ← procArray s.newProcs s
  let sorted := (sort.order column.cmp entries).map (Option.map Prod.fst)
  .ok { s with arrays := s.arrays.store address (sorted ++ whole.drop s.numNewProcs) }

-- The two lines of figures above the rows: percentages, and the differences behind them.
structure Header where
  user : Int
  system : Int
  iow : Int
  irq : Int
  diff : CpuInfo
  total : UInt64
deriving DecidableEq

-- A row of either mode: %5d %5d %3ld %c %5d %6ldK %6ldK %3s %-8.8s and the names. The user
-- column is the name the password file has for uid.
inductive Row where
  | process (pid : Int) (cpu : Int) (state : UInt8) (numThreads : Int) (vss rss : Int) (policy : List UInt8) (uid : UInt32)
      (name : List UInt8)
  | thread (pid tid : Int) (cpu : Int) (state : UInt8) (vss rss : Int) (policy : List UInt8) (uid : UInt32)
      (tname name : List UInt8)
deriving DecidableEq

structure Table where
  header : Header
  rows : List Row
deriving DecidableEq

def percentOf (part total : UInt64) : Int := cLong (part * 100 / total).toNat

def headerOf (new old : CpuInfo) : Header :=
  let total := new.total - old.total
  { user := percentOf ((new.utime + new.ntime) - (old.utime + old.ntime)) total
    system := percentOf (new.stime - old.stime) total
    iow := percentOf (new.iowtime - old.iowtime) total
    irq := percentOf ((new.irqtime + new.sirqtime) - (old.irqtime + old.sirqtime)) total
    diff := ⟨new.utime - old.utime, new.ntime - old.ntime, new.stime - old.stime, new.itime - old.itime,
      new.iowtime - old.iowtime, new.irqtime - old.irqtime, new.sirqtime - old.sirqtime⟩
    total := total }

def rowOf (threads : Bool) (pageSize : Int) (total : UInt64) (info : ProcInfo) : Row :=
  let cpu := percentOf info.deltaTime total
  let vss := info.vss.tdiv 1024
  let rss := (cLong (info.rss * pageSize)).tdiv 1024
  if threads then .thread info.pid info.tid cpu info.state vss rss info.policy info.uid info.tname info.name
  else
    .process info.pid cpu info.state info.numThreads vss rss info.policy info.uid
      (if info.name ≠ [] then info.name else info.tname)

def printRows (opts : Options) (pageSize : Int) (total : UInt64) (s : Globals) : Nat → List (Option Nat) → Except Stop (List Row)
  | _, [] => .ok []
  | _, none :: _ => .ok []
  | i, some proc :: rest =>
      if opts.maxProcs ≠ 0 ∧ (i : Int) ≥ opts.maxProcs then .ok []
      else do
        let info ← readProc s proc
        let rows ← printRows opts pageSize total s (i + 1) rest
        .ok (rowOf opts.threads pageSize total info :: rows)

def printProcs (opts : Options) (pageSize : Int) (sort : Qsort (Option Entry)) (s : Globals) :
    Except Stop (Table × Globals) := do
  let slots ← firstSlots s.newProcs s.numNewProcs s
  let s ← slots.foldlM deltaSlot s
  let total := s.newCpu.total - s.oldCpu.total
  let s ← sortProcs sort opts.column s
  if total = 0 then .error .divideByZero
  else
    let slots ← firstSlots s.newProcs s.numNewProcs s
    let rows ← printRows opts pageSize total s 0 slots
    .ok (⟨headerOf s.newCpu s.oldCpu, rows⟩, s)

def freeSlot (s : Globals) (slot : Option Nat) : Except Stop Globals :=
  match slot with
  | none => .ok s
  | some proc => freeProc s proc

def freeArray (array : Option Nat) (s : Globals) : Except Stop Globals :=
  match array with
  | none => .ok s
  | some address =>
      match s.arrays.free address with
      | none => .error .badAddress
      | some arrays => .ok { s with arrays := arrays }

def freeOldProcs (s : Globals) : Except Stop Globals := do
  let slots ← firstSlots s.oldProcs s.numOldProcs s
  let s ← slots.foldlM freeSlot s
  freeArray s.oldProcs s

-- The loop of main: the globals, and the variable iterations.
structure Main where
  globals : Globals
  iterations : Int

def keepOld (s : Globals) : Globals :=
  { s with oldProcs := s.newProcs, numOldProcs := s.numNewProcs, oldCpu := s.newCpu }

-- while ((iterations == -1) || (iterations-- > 0))
def goesOn (m : Main) (_ : Snapshot) : Prop := m.iterations = -1 ∨ 0 < m.iterations

instance (m : Main) (snap : Snapshot) : Decidable (goesOn m snap) := inferInstanceAs (Decidable (_ ∨ _))

def pass (opts : Options) (pageSize : Int) (sort : Qsort (Option Entry)) (m : Main) (snap : Snapshot) :
    Except Stop (Table × Main) := do
  let s ← readProcs opts.threads snap (keepOld m.globals)
  let (table, s) ← printProcs opts pageSize sort s
  let s ← freeOldProcs s
  .ok (table, ⟨s, if m.iterations = -1 then -1 else m.iterations - 1⟩)

-- The read_procs in front of the loop.
def startUp (opts : Options) (first : Snapshot) : Except Stop Main :=
  (readProcs opts.threads first initial).map fun s => ⟨s, opts.iterations⟩

end LinuxModule.Top
