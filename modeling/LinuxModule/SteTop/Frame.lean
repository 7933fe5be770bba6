import LinuxModule.SteTop.Refresh

set_option autoImplicit false

namespace LinuxModule.SteTop

def addCpu (sum : AllCpuTime) (kstat : KCpuStat UInt64) : AllCpuTime where
  user := sum.user + kstat.user
  system := sum.system + kstat.system
  nice := sum.nice + kstat.nice
  idle := sum.idle + kstat.idle
  iowait := sum.iowait + kstat.iowait
  irq := sum.irq + kstat.irq
  softirq := sum.softirq + kstat.softirq
  steal := sum.steal + kstat.steal

-- cpus are the counters of the CPUs that are online, in CPU order.
def updateCpuTimes (cpus : List (KCpuStat UInt64)) : W Unit :=
  Walk.modify fun s =>
    { s with
      oldAllCpuTime := s.newAllCpuTime
      newAllCpuTime := cpus.foldl addCpu AllCpuTime.zero }

def AllCpuTime.diff (new old : AllCpuTime) : AllCpuTime where
  user := new.user - old.user
  system := new.system - old.system
  nice := new.nice - old.nice
  idle := new.idle - old.idle
  iowait := new.iowait - old.iowait
  irq := new.irq - old.irq
  softirq := new.softirq - old.softirq
  steal := new.steal - old.steal

def AllCpuTime.sum (t : AllCpuTime) : UInt64 :=
  t.user + t.system + t.nice + t.idle + t.iowait + t.irq + t.softirq + t.steal

-- The eight per-mille figures, or nothing when no counter moved.
def printCpuUsageStatistics (new old : AllCpuTime) : Option AllCpuTime :=
  let d := new.diff old
  let totalDiff := d.sum
  if totalDiff ≠ 0 then
    let userPct := (1000 * d.user) / totalDiff
    let systemPct := (1000 * d.system) / totalDiff
    let nicePct := (1000 * d.nice) / totalDiff
    let iowaitPct := (1000 * d.iowait) / totalDiff
    let irqPct := (1000 * d.irq) / totalDiff
    let softirqPct := (1000 * d.softirq) / totalDiff
    let stealPct := (1000 * d.steal) / totalDiff
    let totalActiveUsage := userPct + systemPct + nicePct + iowaitPct + irqPct + softirqPct + stealPct
    some ⟨userPct, systemPct, nicePct, 1000 - totalActiveUsage, iowaitPct, irqPct, softirqPct, stealPct⟩
  else none

-- What si_meminfo, si_swapinfo and the page counters answer.
structure SysInfo where
  totalram : UInt64
  freeram : UInt64
  bufferram : UInt64
  memUnit : UInt64
  totalswap : UInt64
  freeswap : UInt64
  filePages : UInt64
  swapcachePages : UInt64
  slabReclaimable : UInt64
deriving DecidableEq

def SysInfo.kbMemTotal (si : SysInfo) : UInt64 := si.totalram * si.memUnit / 1024

-- The five numbers of ste_mem_usage: total, free, buffer/cache, swap total, swap free.
structure MemUsage where
  total : UInt64
  free : UInt64
  cache : UInt64
  swapTotal : UInt64
  swapFree : UInt64
deriving DecidableEq

def steMemUsage (si : SysInfo) : MemUsage :=
  let cached := si.filePages - si.swapcachePages - si.bufferram
  { total := si.totalram * si.memUnit / 1024 / 1024
    free := si.freeram * si.memUnit / 1024 / 1024
    cache := (si.bufferram + cached + si.slabReclaimable) * si.memUnit / 1024 / 1024
    swapTotal := si.totalswap * si.memUnit / 1024 / 1024
    swapFree := si.freeswap * si.memUnit / 1024 / 1024 }

structure RowLine where
  pid : Pid
  uid : UInt32
  priority : Int
  nice : Int
  virtualMem : UInt64
  resident : UInt64
  sharedMem : UInt64
  stateC : UInt8
  cpu : UInt64 × UInt64
  mem : UInt64 × UInt64
  comm : Comm
deriving DecidableEq

-- The %CPU column. et is signed and num_threads an int; both meet a u64 here.
def cpuColumn (et : Int) (info : ProcInfo) : UInt64 × UInt64 :=
  let permille := info.perCpuTime * 1000 / UInt64.ofInt et
  let cap := UInt64.ofInt (cInt (100 * info.numThreads))
  if permille / 10 ≥ cap then (cap, 0) else (permille / 10, permille % 10)

-- No machine reports a total memory of zero, so the division is left unguarded here too.
def memColumn (kbMemTotal : UInt64) (info : ProcInfo) : UInt64 × UInt64 :=
  let permille := info.resident * 1000 / kbMemTotal
  (permille / 10, permille % 10)

def rowLine (et : Int) (kbMemTotal : UInt64) (info : ProcInfo) : RowLine where
  pid := info.pid
  uid := info.uid
  priority := info.priority
  nice := info.nice
  virtualMem := info.virtualMem
  resident := info.resident
  sharedMem := info.sharedMem
  stateC := info.stateC
  cpu := cpuColumn et info
  mem := memColumn kbMemTotal info
  comm := info.comm

structure Shown where
  tasks : Nat
  counters : Counters
  cpu : Option AllCpuTime
  mem : MemUsage
  rows : List RowLine
deriving DecidableEq

def collect {α β : Type} (f : α → Except Fault β) : List α → Except Fault (List β)
  | [] => .ok []
  | a :: rest => do
      let b ← f a
      let bs ← collect f rest
      .ok (b :: bs)

def slotRow : Option Nat → Except Fault Nat
  | none => .error .nullPointer
  | some row => .ok row

def shownSlots (t : Slots) : Except Fault (List Nat) := do
  if t.total = 0 then .ok []
  else
    let (_, slots) ← slotArray t
    if slots.length < t.total then .error .outOfBounds else collect slotRow (slots.take t.total)

def shownRows (t : Slots) : Except Fault (List ProcInfo) := do
  let rows ← shownSlots t
  collect (fun row => readRow row t) rows

-- show(), less the swap areas it lists.
def showProcs (si : SysInfo) : W Shown := do
  Walk.modify fun s => { s with kbMemTotal := si.kbMemTotal }
  let s ← Walk.get
  let rows ← onSlots fun t => (shownRows t).map fun rows => (rows, t)
  pure
    { tasks := s.slots.total
      counters := s.counters
      cpu := printCpuUsageStatistics s.newAllCpuTime s.oldAllCpuTime
      mem := steMemUsage si
      rows := rows.map (rowLine s.et s.kbMemTotal) }

def compareProcInfo (p1 p2 : ProcInfo) : Int :=
  if p1.perCpuTime + p1.resident < p2.perCpuTime + p2.resident then 1
  else if p1.perCpuTime + p1.resident > p2.perCpuTime + p2.resident then -1
  else 0

-- The kernel's sort(), given the comparison and the elements in slot order: each
-- pointer with the row it points to. Whatever the comparison, it only swaps elements.
structure SortFn where
  order : (ProcInfo → ProcInfo → Int) → List (ProcInfo × Nat) → List (ProcInfo × Nat)
  permutes : ∀ cmp rows, (order cmp rows).Perm rows

-- sort(process_info, total, ...): the comparison reads the rows behind the pointers.
def sortSlots (sort : SortFn) (t : Slots) : Except Fault Slots := do
  if t.total = 0 then .ok t
  else
    let (address, slots) ← slotArray t
    let rows ← shownSlots t
    let infos ← collect (fun row => readRow row t) rows
    let sorted := (sort.order compareProcInfo (infos.zip rows)).map Prod.snd
    match t.arrays.write address (sorted.map some ++ slots.drop t.total) with
    | none => .error .badAddress
    | some arrays => .ok { t with arrays := arrays }

def sortRows (sort : SortFn) : W Unit := onSlots fun t => (sortSlots sort t).map fun t => ((), t)

-- The calls frame_make makes, each with what it reads from the kernel.
inductive Call where
  | updateCpuTimes (cpus : List (KCpuStat UInt64))
  | procsRefresh (r : Refresh)
  | sortRows (sort : SortFn)
  | showProcs (si : SysInfo)

def Call.run (hash : Hash) : Call → W (Option Shown)
  | .updateCpuTimes cpus => do
      SteTop.updateCpuTimes cpus
      pure none
  | .procsRefresh r => do
      SteTop.procsRefresh hash r
      pure none
  | .sortRows sort => do
      SteTop.sortRows sort
      pure none
  | .showProcs si => do
      let shown ← SteTop.showProcs si
      pure (some shown)

structure Frame where
  cpus : List (KCpuStat UInt64)
  refresh : Refresh
  laterCpus : List (KCpuStat UInt64)
  laterRefresh : Refresh
  sort : SortFn
  si : SysInfo

-- The msleep(100) stands between the two halves; it touches nothing of the module.
def Frame.calls (f : Frame) : List Call :=
  [.updateCpuTimes f.cpus, .procsRefresh f.refresh, .updateCpuTimes f.laterCpus, .procsRefresh f.laterRefresh,
    .sortRows f.sort, .showProcs f.si]

def runCalls (hash : Hash) (calls : List Call) : W Unit :=
  Walk.forEach calls fun call => do
    let _ ← call.run hash
    pure ()

def frameMake (hash : Hash) (f : Frame) : W Unit := runCalls hash f.calls

def freeSlot (t : Slots) (i : Nat) : Except Fault Slots := do
  let slot ← getSlot t i
  match slot with
  | none => .ok t
  | some row =>
      match t.rows.free row with
      | none => .error .badAddress
      | some rows => .ok { t with rows := rows }

-- Second loop of proc_stats_exit: for (i = 0; i < n_alloc; ++i).
def freeRows (t : Slots) : Except Fault Slots := (List.range t.nAlloc.toNat).foldlM freeSlot t

-- remove_proc_entry comes last and frees nothing of the module.
def procStatsExit : W Unit := do
  onTables fun t => (emptyOld t).map fun t => ((), t)
  onSlots fun t => (freeRows t).map fun t => ((), t)
  onSlots fun t => (kfreeArray t.processInfo t.arrays).map fun arrays => ((), { t with arrays := arrays })

end LinuxModule.SteTop
