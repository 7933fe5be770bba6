import LinuxModule.Top.Records
import LinuxModule.Top.StatLine

set_option autoImplicit false

namespace LinuxModule.Top

open Stdio Decimal

def blank : ProcInfo := ⟨none, 0, 0, 0, 0, [], [], 0, 0, 0, 0, 0, 0, 0, 0, 0, []⟩

-- What of a record is written on every reading. Nothing writes policy, and for a thread
-- nothing writes the count of threads.
def visible (threads : Bool) (info : ProcInfo) : ProcInfo :=
  { info with next := none, numThreads := if threads then 0 else info.numThreads, policy := [] }

def plain (threads : Bool) (info : ProcInfo) : ProcInfo :=
  { visible threads info with deltaUtime := 0, deltaStime := 0, deltaTime := 0 }

-- What is read does not depend on what the record held before.
def Fresh (threads : Bool) (fill : ProcInfo → Except Stop ProcInfo) : Prop :=
  ∃ info, fill blank = .ok info ∧ ∀ base, ∃ other, fill base = .ok other ∧ plain threads other = plain threads info

def Snapshot.items (threads : Bool) (snap : Snapshot) : List ProcInfo :=
  (snap.fills threads).filterMap fun fill => (fill blank).toOption

def ProcInfo.id (info : ProcInfo) : Int × Int := (info.pid, info.tid)

-- A reading in which everything asked for is there, and every process (or thread) is
-- listed once.
structure Faithful (threads : Bool) (snap : Snapshot) : Prop where
  serves : ServesSnapshot (fun _ => False) threads snap
  fresh : ∀ fill ∈ snap.fills threads, Fresh threads fill
  distinct : ((snap.items threads).map ProcInfo.id).Nodup
  cpu : ∀ cpu, snap.cpu cpu = snap.cpu noCpu

-- The first line of /proc/stat; `more` is what comes after the seventh figure.
def cpuText (cpu : CpuInfo) (more : List UInt8) : List UInt8 :=
  [99, 112, 117, 32] ++ (spaced [cpu.utime.toNat, cpu.ntime.toNat, cpu.stime.toNat, cpu.itime.toNat, cpu.iowtime.toNat,
    cpu.irqtime.toNat, cpu.sirqtime.toNat] ++ more)

theorem read_cpu_text (cpu before : CpuInfo) (more : List UInt8) (stops : Stops more) :
    sscanf cpuFormat (cpuText cpu more) before = cpu := by
  have spaces : ∀ rest : List UInt8, Stops (32 :: rest) := by
    intro rest b first
    obtain rfl := Option.some.inj first
    rfl
  have text : cpuText cpu more = 99 :: 112 :: 117 :: 32 :: 32 :: (decimal cpu.utime.toNat ++ (32 :: (decimal cpu.ntime.toNat ++
      (32 :: (decimal cpu.stime.toNat ++ (32 :: (decimal cpu.itime.toNat ++ (32 :: (decimal cpu.iowtime.toNat ++
        (32 :: (decimal cpu.irqtime.toNat ++ (32 :: (decimal cpu.sirqtime.toNat ++ more))))))))))))) := by
    simp [cpuText, spaced, signed]
  have two_spaces : ∀ (format : List (Directive CpuInfo)) (rest : List UInt8),
      sscanf (.space :: format) (32 :: 32 :: rest) before = sscanf (.space :: format) (32 :: rest) before := fun _ _ => rfl
  have word : ∀ rest, sscanf cpuFormat (99 :: 112 :: 117 :: rest) before = sscanf (cpuFormat.drop 3) rest before := fun _ => rfl
  rw [text, word, cpuFormat]
  change sscanf [.space, .unsigned _, .space, .unsigned _, .space, .unsigned _, .space, .unsigned _, .space, .unsigned _,
    .space, .unsigned _, .space, .unsigned _] _ before = cpu
  rw [two_spaces, scan_unsigned _ _ _ _ _ (spaces _), scan_unsigned _ _ _ _ _ (spaces _), scan_unsigned _ _ _ _ _ (spaces _),
    scan_unsigned _ _ _ _ _ (spaces _), scan_unsigned _ _ _ _ _ (spaces _), scan_unsigned _ _ _ _ _ (spaces _),
    scan_unsigned _ _ _ _ _ stops, sscanf_nil]

-- A stat file that can be opened, whose line fits.
def Readable (file : StatFile) : Prop := ∃ line : StatText, line.head.length < maxLine ∧ file.text = some line.text

theorem readable_reads (file : StatFile) (readable : Readable file) :
    ∃ line : StatText, ∀ proc, readStat file proc = .ok (line.parsed proc) := by
  obtain ⟨line, fits, text⟩ := readable
  refine ⟨line, fun proc => ?_⟩
  have same : file = ⟨some line.text, file.stack⟩ := by rw [← text]
  rw [same]
  exact read_stat_line line fits file.stack proc

theorem count_threads (tasks : List Thread) (info : ProcInfo) :
    tasks.foldl countThread info =
      { info with numThreads := info.numThreads + tasks.countP fun t => numeric t.dName } := by
  induction tasks generalizing info with
  | nil => simp
  | cons t tasks ih =>
      rw [List.foldl_cons, ih]
      by_cases named : numeric t.dName = true
      · simp [countThread, named]
        omega
      · simp [countThread, named]

theorem fill_thread_fresh (pid : Int) (curProc : ProcInfo) (t : Thread) (readable : Readable t.stat) :
    Fresh true (fillThread pid curProc t) := by
  obtain ⟨line, reads⟩ := readable_reads t.stat readable
  have filled : ∀ base, fillThread pid curProc t base = .ok { line.parsed { base with pid := pid, tid := atoi t.dName } with
      name := curProc.name, uid := curProc.uid, gid := curProc.gid } := by
    intro base
    rw [fillThread, reads]
    rfl
  exact ⟨_, filled blank, fun base => ⟨_, filled base, rfl⟩⟩

def nameOf (cmdline : List UInt8) : List UInt8 := (UserCopy.cstr ((fgets maxLine cmdline).getD [])).take (procNameLen - 1)

def idsOf (status : List UInt8) (uninit : UInt32 × UInt32) : UInt32 × UInt32 :=
  (fgetsAll maxLine [] status).foldl statusLine uninit

theorem read_cmdline_some (cmdline : List UInt8) (proc : ProcInfo) :
    readCmdline (some cmdline) proc = { proc with name := nameOf cmdline } := by
  by_cases none_ : UserCopy.cstr ((fgets maxLine cmdline).getD []) = []
  · simp [readCmdline, nameOf, none_]
  · simp [readCmdline, nameOf, none_]

theorem read_status_some (status : List UInt8) (uninit : UInt32 × UInt32) (proc : ProcInfo) :
    readStatus (some status) uninit proc = { proc with uid := (idsOf status uninit).1, gid := (idsOf status uninit).2 } := rfl

theorem fill_process_reads (p : Process) (cmdline status : List UInt8) (readable : Readable p.stat)
    (named : p.cmdline = some cmdline) (owned : p.status = some status) :
    ∃ line : StatText, ∀ base, fillProcess p base = .ok { line.parsed { base with pid := atoi p.dName, tid := atoi p.dName } with
      name := nameOf cmdline, uid := (idsOf status p.uninit).1, gid := (idsOf status p.uninit).2, numThreads := 0 } := by
  obtain ⟨line, reads⟩ := readable_reads p.stat readable
  refine ⟨line, fun base => ?_⟩
  simp only [fillProcess, reads, except_ok_bind, named, owned, read_cmdline_some, read_status_some]

theorem fill_process_fresh (p : Process) (tasks : List Thread) (cmdline status : List UInt8) (readable : Readable p.stat)
    (named : p.cmdline = some cmdline) (owned : p.status = some status) :
    Fresh false fun info => (fillProcess p info).map fun info => tasks.foldl countThread info := by
  obtain ⟨line, filled⟩ := fill_process_reads p cmdline status readable named owned
  refine ⟨_, congrArg (Except.map _) (filled blank), fun base => ⟨_, congrArg (Except.map _) (filled base), ?_⟩⟩
  simp only [count_threads]
  rfl

-- /proc as the kernel presents it, and memory that does not run out.
structure WellFormed (threads : Bool) (snap : Snapshot) : Prop where
  files : snap.proc ≠ none ∧ ∃ cpu more, snap.stat = some (cpuText cpu more) ∧ Stops more
  array : snap.calloc = true
  records : ∀ p ∈ snap.processes, p.malloc ≠ none ∧ p.realloc = true ∧
    ∀ tasks, p.task = some tasks → ∀ t ∈ tasks, t.malloc ≠ none ∧ t.realloc = true
  stats : ∀ p ∈ snap.processes, numeric p.dName = true →
    if threads then ∀ tasks, p.task = some tasks → ∀ t ∈ tasks, numeric t.dName = true → Readable t.stat
    else Readable p.stat ∧ p.cmdline ≠ none ∧ p.status ≠ none

theorem fresh_never_fails (threads : Bool) (fill : ProcInfo → Except Stop ProcInfo) (fresh : Fresh threads fill) (base : ProcInfo)
    (e : Stop) (failed : fill base = .error e) : False := by
  obtain ⟨_, _, any⟩ := fresh
  obtain ⟨_, done, _⟩ := any base
  cases failed.symm.trans done

theorem well_formed_serves (threads : Bool) (snap : Snapshot) (formed : WellFormed threads snap) :
    ServesSnapshot (fun _ => False) threads snap := by
  obtain ⟨⟨processes, _, _, stat, _⟩, array, records, stats⟩ := formed
  refine ⟨fun missing => ?_, fun no => by simp [array] at no, fun p member named => ?_⟩
  · rcases missing with no_proc | no_stat
    · exact absurd no_proc processes
    · cases stat.symm.trans no_stat
  · obtain ⟨malloc, realloc, each⟩ := records p member
    have readable := stats p member named
    cases threads with
    | true =>
        intro tasks task t inTasks numbered
        obtain ⟨malloc, realloc⟩ := each tasks task t inTasks
        have fresh := fill_thread_fresh (atoi p.dName) (sharedProc p) t (readable tasks task t inTasks numbered)
        exact ⟨fun no => absurd no (by simp [malloc, realloc]), fresh_never_fails true _ fresh⟩
    | false =>
        obtain ⟨stat, cmdline, status⟩ := readable
        obtain ⟨cmdline, named⟩ := Option.ne_none_iff_exists'.mp cmdline
        obtain ⟨status, owned⟩ := Option.ne_none_iff_exists'.mp status
        obtain ⟨line, filled⟩ := fill_process_reads p cmdline status stat named owned
        exact ⟨fun no => absurd no (by simp [malloc, realloc]), fun base e failed => by cases (filled base).symm.trans failed⟩

theorem well_formed_faithful (threads : Bool) (snap : Snapshot) (formed : WellFormed threads snap)
    (distinct : ((snap.items threads).map ProcInfo.id).Nodup) : Faithful threads snap := by
  refine ⟨well_formed_serves threads snap formed, fun fill member => ?_, distinct, fun cpu => ?_⟩
  · obtain ⟨p, inProc, fills⟩ := List.mem_flatMap.mp member
    unfold fillsOf at fills
    split at fills
    case isFalse => cases fills
    case isTrue named =>
      have readable := formed.stats p inProc named
      cases task : p.task with
      | none => simp [task] at fills
      | some tasks =>
          cases threads with
          | true =>
              simp only [task, if_true, threadFills, List.mem_map, List.mem_filter] at fills
              obtain ⟨t, ⟨inTasks, numbered⟩, rfl⟩ := fills
              exact fill_thread_fresh _ _ t (readable tasks task t inTasks numbered)
          | false =>
              simp only [task, Bool.false_eq_true, if_false, List.mem_singleton] at fills
              obtain ⟨stat, cmdline, status⟩ := readable
              obtain ⟨cmdline, named⟩ := Option.ne_none_iff_exists'.mp cmdline
              obtain ⟨status, owned⟩ := Option.ne_none_iff_exists'.mp status
              exact fills ▸ fill_process_fresh p tasks cmdline status stat named owned
  · obtain ⟨_, _, more, stat, stops⟩ := formed.files
    simp only [Snapshot.cpu, stat, Option.getD_some, read_cpu_text _ _ more stops]

def sampleProcess (name : UInt8) (utime : UInt64) (task : Option (List Thread)) : Process where
  dName := [name]
  stat := ⟨some (sampleLine utime).text, []⟩
  cmdline := some []
  status := some []
  uninit := (0, 0)
  curProc := blank
  task := task
  malloc := some blank
  realloc := true

-- Process 7 goes on, process 8 has ended by the time its threads are looked at.
def sampleSnapshot (utime : UInt64) : Snapshot where
  proc := some [sampleProcess 55 utime (some [⟨[46], ⟨none, []⟩, some blank, true⟩, ⟨[55], ⟨none, []⟩, some blank, true⟩]),
    sampleProcess 56 0 none]
  calloc := true
  stat := some (cpuText ⟨utime, 0, 0, 0, 0, 0, 0⟩ [10])

theorem sample_well_formed (utime : UInt64) (fits : (sampleLine utime).head.length < maxLine) :
    WellFormed false (sampleSnapshot utime) := by
  refine ⟨⟨Option.some_ne_none _, _, [10], rfl, fun b first => by obtain rfl := Option.some.inj first; decide⟩, rfl,
    fun p member => ?_, fun p member _ => ?_⟩
  · simp only [sampleSnapshot, Snapshot.processes, Option.getD_some, List.mem_cons, List.not_mem_nil, or_false] at member
    rcases member with rfl | rfl
    · refine ⟨Option.some_ne_none _, rfl, fun tasks task t inTasks => ?_⟩
      obtain rfl := Option.some.inj task
      simp only [List.mem_cons, List.not_mem_nil, or_false] at inTasks
      rcases inTasks with rfl | rfl <;> exact ⟨Option.some_ne_none _, rfl⟩
    · exact ⟨Option.some_ne_none _, rfl, fun tasks task => by cases task⟩
  · simp only [sampleSnapshot, Snapshot.processes, Option.getD_some, List.mem_cons, List.not_mem_nil, or_false] at member
    rcases member with rfl | rfl
    · exact ⟨⟨sampleLine utime, fits, rfl⟩, Option.some_ne_none _, Option.some_ne_none _⟩
    · exact ⟨⟨sampleLine 0, by decide +kernel, rfl⟩, Option.some_ne_none _, Option.some_ne_none _⟩

theorem samples_faithful : Faithful false (sampleSnapshot 5) ∧ Faithful false (sampleSnapshot 6) :=
  ⟨well_formed_faithful false _ (sample_well_formed 5 (by decide +kernel)) (by decide +kernel),
    well_formed_faithful false _ (sample_well_formed 6 (by decide +kernel)) (by decide +kernel)⟩

end LinuxModule.Top
