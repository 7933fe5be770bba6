import LinuxModule.Base.Scanf
import LinuxModule.Base.Kernel
import LinuxModule.Base.CInt

set_option autoImplicit false

namespace LinuxModule.ProcStat

open Scanf

def cpuInfoBufsize : Nat := 4096

-- The characters of "cpu".
def cpu : List UInt8 := [99, 112, 117]

-- "cpu%*d %lu %lu %lu %lu %lu %lu %lu %lu %lu %lu"
def cpuFormat : List Directive := cpu.map .literal ++ .suppressed :: numbers 10

def converted : List UInt64 → Option (KCpuStat UInt64)
  | [user, nice, system, idle, iowait, irq, softirq, steal, guest, guestNice] =>
      some ⟨user, nice, system, idle, iowait, irq, softirq, steal, guest, guestNice⟩
  | _ => none

inductive Message (R : Type) where
  | noMemory
  | cannotOpen (error : Int)
  | readFailed
  | usage (cpu : Nat) (figures : Option R)
deriving DecidableEq

-- What per_cpu_usage and load_softwdt do differently with a parsed line: what they keep of
-- it, and what they print of it and the values kept before (nothing, no update, or figures).
structure Monitor (S R : Type) where
  sample : KCpuStat UInt64 → S
  report : S → S → Option (Option R)

-- To the end of the line, and past its newline.
def nextLine (line : List UInt8) : Except Fault (List UInt8) := do
  let line ← skipWhile (fun b => b ≠ newline && b ≠ nul) line
  match line with
  | [] => .error .beyond
  | b :: rest => if b = newline then .ok rest else .ok (b :: rest)

namespace Monitor

variable {S R : Type} (m : Monitor S R)

def shown (cpu : Nat) (before now : S) : List (Message R) :=
  (m.report before now).toList.map (.usage cpu)

def store (prev : Nat → S) (cpu : Nat) (now : S) : Nat → S := fun other => if other = cpu then now else prev other

-- The for loop over the CPUs still ahead. The arrays have num_cpus cells each, and the loop
-- stays below that.
def cpuLoop : List Nat → List UInt8 → (Nat → S) → Except Fault (List (Message R) × (Nat → S))
  | [], _, prev => .ok ([], prev)
  | cpu :: rest, line, prev => do
      let values ← sscanf cpuFormat line
      match converted values with
      | none => cpuLoop rest line prev
      | some stat => do
          let now := m.sample stat
          let line ← nextLine line
          let (messages, next) ← cpuLoop rest line (store prev cpu now)
          .ok (m.shown cpu (prev cpu) now ++ messages, next)

theorem cpu_loop_cons (cpu : Nat) (rest : List Nat) (line : List UInt8) (prev : Nat → S) :
    m.cpuLoop (cpu :: rest) line prev = (do
      let values ← sscanf cpuFormat line
      match converted values with
      | none => m.cpuLoop rest line prev
      | some stat => do
          let line ← nextLine line
          let (messages, next) ← m.cpuLoop rest line (store prev cpu (m.sample stat))
          .ok (m.shown cpu (prev cpu) (m.sample stat) ++ messages, next)) := rfl

def parse (numCpus : Nat) (buf : List UInt8) (prev : Nat → S) : Except Fault (List (Message R) × (Nat → S)) := do
  let line ← nextLine buf
  m.cpuLoop (List.range numCpus) line prev

end Monitor

-- How one run fares with the kernel: the bytes kmalloc finds in the buffer, what filp_open
-- returns, and the bytes kernel_read delivers.
structure Services where
  kmalloc : Option (List UInt8)
  filpOpen : Except Int Unit
  kernelRead : Except Int (List UInt8)

-- The arrays, and what the module has not given back.
structure State (S : Type) where
  prev : Nat → S
  buffers : Nat
  files : Nat

def Monitor.calculateCpuUsage {S R : Type} (m : Monitor S R) (numCpus : Nat) (k : Services) (s : State S) :
    Except Fault (List (Message R) × State S) :=
  match k.kmalloc with
  | none => .ok ([.noMemory], s)
  | some contents =>
      let s := { s with buffers := s.buffers + 1 }
      match k.filpOpen with
      | .error error => .ok ([.cannotOpen error], s)
      | .ok () => do
          let s := { s with files := s.files + 1 }
          let (messages, prev) ←
            match k.kernelRead with
            | .error _ => .ok ([.readFailed], s.prev)
            | .ok [] => .ok ([.readFailed], s.prev)
            | .ok (b :: bytes) => m.parse numCpus ((b :: bytes) ++ contents.drop (b :: bytes).length) s.prev
          .ok (messages, { s with prev := prev, files := s.files - 1 })

-- (diff_total - diff_idle) as a percentage of diff_total, and what it is printed as.
def percent (part whole : UInt64) : Int := cLong (100 * part / whole).toNat

end ProcStat

namespace PerCpuUsage

structure Sample where
  idle : UInt64
  total : UInt64
deriving DecidableEq

def sample (stat : KCpuStat UInt64) : Sample := ⟨stat.idle, stat.user + stat.nice + stat.system + stat.idle⟩

def report (prev now : Sample) : Option (Option Int) :=
  let diffIdle := now.idle - prev.idle
  let diffTotal := now.total - prev.total
  if diffTotal ≠ 0 then some (some (ProcStat.percent (diffTotal - diffIdle) diffTotal)) else some none

def monitor : ProcStat.Monitor Sample Int := ⟨sample, report⟩

def calculateCpuUsage (numCpus : Nat) (k : ProcStat.Services) (s : ProcStat.State Sample) :
    Except Scanf.Fault (List (ProcStat.Message Int) × ProcStat.State Sample) :=
  monitor.calculateCpuUsage numCpus k s

end PerCpuUsage

namespace Softwdt.LoadSoftwdt

structure Sample where
  idle : UInt64
  total : UInt64
  interrupt : UInt64
deriving DecidableEq

def sample (stat : KCpuStat UInt64) : Sample where
  idle := stat.idle
  total := stat.user + stat.nice + stat.system + stat.idle + stat.iowait + stat.irq + stat.softirq + stat.steal +
    stat.guest + stat.guestNice
  interrupt := stat.irq + stat.softirq

-- The first line of a CPU is not reported.
def reportUsage (prev now : Sample) : Option (Option (Int × Int)) :=
  let diffIdle := now.idle - prev.idle
  let diffTotal := now.total - prev.total
  let diffInterruptTime := now.interrupt - prev.interrupt
  if prev.total ≠ 0 then
    if diffTotal ≠ 0 then
      some (some (ProcStat.percent (diffTotal - diffIdle) diffTotal, ProcStat.percent diffInterruptTime diffTotal))
    else some none
  else none

def monitor : ProcStat.Monitor Sample (Int × Int) := ⟨sample, reportUsage⟩

def calculateCpuUsage (numCpus : Nat) (k : ProcStat.Services) (s : ProcStat.State Sample) :
    Except Scanf.Fault (List (ProcStat.Message (Int × Int)) × ProcStat.State Sample) :=
  monitor.calculateCpuUsage numCpus k s

end Softwdt.LoadSoftwdt

namespace ProcStat

open Scanf

-- A line, up to its newline or NUL.
def Line (bytes : List UInt8) : Prop := ∀ b ∈ bytes, (b ≠ newline && b ≠ nul) = true

instance (bytes : List UInt8) : Decidable (Line bytes) := inferInstanceAs (Decidable (∀ b ∈ bytes, _))

theorem next_line_cut (bytes : List UInt8) (line : Line bytes) : nextLine bytes = .error .beyond := by
  rw [nextLine, skip_while_all _ bytes line]
  rfl

theorem next_line_newline (line rest : List UInt8) (whole : Line line) : nextLine (line ++ newline :: rest) = .ok rest := by
  rw [nextLine, skip_while_stops _ line newline rest whole (by decide)]
  rfl

theorem next_line_nul (line rest : List UInt8) (whole : Line line) : nextLine (line ++ nul :: rest) = .ok (nul :: rest) := by
  rw [nextLine, skip_while_stops _ line nul rest whole (by decide)]
  rfl

def Stop (b : UInt8) : Prop := b = newline ∨ b = nul

theorem stop_ends (b : UInt8) : Stop b ↔ (b ≠ newline && b ≠ nul) = false := by
  by_cases first : b = newline <;> by_cases second : b = nul <;> simp [Stop, first, second]

theorem line_cases (bytes : List UInt8) : Line bytes ∨
    ∃ line stop rest, bytes = line ++ stop :: rest ∧ Line line ∧ Stop stop := by
  rcases skip_while_splits (fun b => b ≠ newline && b ≠ nul) bytes with line | ⟨line, b, rest, split, whole, stop⟩
  · exact .inl line
  · exact .inr ⟨line, b, rest, split, whole, (stop_ends b).mpr stop⟩

theorem line_unique (line other : List UInt8) (b c : UInt8) (rest after : List UInt8)
    (same : line ++ b :: rest = other ++ c :: after) (whole : Line line) (stop : Stop b) (wholeOther : Line other)
    (stopOther : Stop c) : line = other ∧ b = c ∧ rest = after :=
  skip_while_unique _ line other b c rest after same whole ((stop_ends b).mp stop) wholeOther ((stop_ends c).mp stopOther)

theorem line_has_no_stop (line rest : List UInt8) (b : UInt8) (stop : Stop b) : ¬ Line (line ++ b :: rest) := by
  intro whole
  have here := whole b (by simp)
  rw [(stop_ends b).mp stop] at here
  cases here

-- The texts that end inside a CPU line, and those with a whole one in front.
inductive CpuCut : List UInt8 → Prop where
  | label (str : List UInt8) (start : str <+: cpu) : CpuCut str
  | word (word : List UInt8) (dark : Word word) : CpuCut (cpu ++ word)
  | numbers (word : List UInt8) (b : UInt8) (rest : List UInt8) (dark : Word word) (blank : isspace b = true)
      (cut : NumbersCut 10 (b :: rest)) : CpuCut (cpu ++ (word ++ b :: rest))

inductive CpuRead : List UInt8 → List UInt64 → Prop where
  | numbers (word : List UInt8) (b : UInt8) (rest : List UInt8) (values : List UInt64) (dark : Word word)
      (blank : isspace b = true) (read : NumbersRead 10 (b :: rest) values) : CpuRead (cpu ++ (word ++ b :: rest)) values

theorem scan_label (str : List UInt8) : sscanf cpuFormat (cpu ++ str) = sscanf (.suppressed :: numbers 10) str :=
  scan_literals cpu _ str

theorem scan_word (word : List UInt8) (b : UInt8) (rest : List UInt8) (dark : Word word) (blank : isspace b = true) :
    sscanf (.suppressed :: numbers 10) (word ++ b :: rest) = sscanf (numbers 10) (b :: rest) := by
  have stops := skip_while_stops (fun b => !isspace b && b ≠ nul) word b rest dark (by simp [blank])
  cases word with
  | nil =>
      simp only [List.nil_append] at stops ⊢
      simp only [sscanf_suppressed, if_neg (blank_is_not_nul b blank).1, stops, except_ok_bind]
  | cons first more =>
      have present : first ≠ nul := by simpa using (Bool.and_eq_true_iff.mp (List.forall_mem_cons.mp dark).1).2
      rw [List.cons_append] at stops ⊢
      simp only [sscanf_suppressed, if_neg present, stops, except_ok_bind]

theorem scan_word_cut (word : List UInt8) (dark : Word word) :
    sscanf (.suppressed :: numbers 10) word = .error .beyond := by
  have all := skip_while_all (fun b => !isspace b && b ≠ nul) word dark
  cases word with
  | nil => rfl
  | cons first more =>
      have present : first ≠ nul := by simpa using (Bool.and_eq_true_iff.mp (List.forall_mem_cons.mp dark).1).2
      simp only [sscanf_suppressed, if_neg present, all]
      rfl

theorem cpu_cut_scan (str : List UInt8) (cut : CpuCut str) : sscanf cpuFormat str = .error .beyond := by
  cases cut with
  | label str start =>
      by_cases whole : str = cpu
      · rw [whole, ← List.append_nil cpu, scan_label]
        rfl
      · exact scan_literals_cut cpu str _ start whole
  | word word dark => rw [scan_label, scan_word_cut word dark]
  | numbers word b rest dark blank cut => rw [scan_label, scan_word word b rest dark blank, numbers_cut_scan 10 _ cut]

theorem cpu_read_scan (str : List UInt8) (values : List UInt64) (read : CpuRead str values) :
    sscanf cpuFormat str = .ok values ∧ values.length = 10 := by
  cases read with
  | numbers word b rest values dark blank read =>
      rw [scan_label, scan_word word b rest dark blank]
      exact numbers_read_scan 10 _ values read

theorem cpu_cases (str : List UInt8) : CpuCut str ∨ (∃ values, CpuRead str values) ∨
    ∃ values, sscanf cpuFormat str = .ok values ∧ values.length ≠ 10 := by
  rcases literals_cases cpu str (.suppressed :: numbers 10) with ⟨rest, rfl⟩ | start | mismatch
  · rcases skip_while_splits (fun b => !isspace b && b ≠ nul) rest with dark | ⟨word, b, after, rfl, dark, stop⟩
    · exact .inl (.word rest dark)
    · by_cases blank : isspace b = true
      · rcases numbers_cases 10 b after with cut | ⟨values, read⟩ | ⟨values, scanned, few⟩
        · exact .inl (.numbers word b after dark blank cut)
        · exact .inr (.inl ⟨values, .numbers word b after values dark blank read⟩)
        · refine .inr (.inr ⟨values, ?_, Nat.ne_of_lt few⟩)
          rw [scan_label, scan_word word b after dark blank, scanned]
      · have ended : b = nul := by simpa [blank] using stop
        refine .inr (.inr ?_)
        rw [ended, scan_label]
        cases word with
        | nil => exact ⟨[], rfl, by decide⟩
        | cons first more =>
            have present : first ≠ nul := by simpa using (Bool.and_eq_true_iff.mp (List.forall_mem_cons.mp dark).1).2
            have stops := skip_while_stops (fun b => !isspace b && b ≠ nul) (first :: more) nul after dark (by decide)
            rw [List.cons_append] at stops ⊢
            refine ⟨[], ?_, by decide⟩
            simp only [sscanf_suppressed, if_neg present, stops, except_ok_bind]
            rfl
  · exact .inl (.label str start)
  · exact .inr (.inr ⟨[], mismatch, by decide⟩)

theorem converted_length (values : List UInt64) : (converted values).isSome = true ↔ values.length = 10 := by
  constructor
  · intro some_stat
    unfold converted at some_stat
    split at some_stat
    · rfl
    · cases some_stat
  · intro ten
    match values, ten with
    | [_, _, _, _, _, _, _, _, _, _], _ => rfl

end ProcStat
end LinuxModule
