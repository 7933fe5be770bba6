import LinuxModule.Base.Runs
import LinuxModule.Base.Words
import LinuxModule.CpuUsage.ProcStat
import Mathlib.Data.List.Chain

set_option autoImplicit false

namespace LinuxModule.AggregateLine

open Scanf

def bufSize : Nat := 256

-- "cpu %lu %lu %lu %lu"
def format : List Directive := ProcStat.cpu.map .literal ++ numbers 4

structure Times where
  user : UInt64
  nice : UInt64
  system : UInt64
  idle : UInt64
deriving DecidableEq

namespace Times

def zero : Times := ⟨0, 0, 0, 0⟩

def total (t : Times) : UInt64 := t.user + t.nice + t.system + t.idle

-- What sscanf does not convert stays as it was.
def store (t : Times) (values : List UInt64) : Times :=
  ⟨values.getD 0 t.user, values.getD 1 t.nice, values.getD 2 t.system, values.getD 3 t.idle⟩

end Times

-- What buf, user, nice, system and idle hold when the function is entered.
structure Stack where
  buf : List UInt8
  size : buf.length = bufSize
  times : Times
deriving DecidableEq

-- What kernel_read leaves in buf. It is given the size of it.
structure Reading where
  bytes : List UInt8
  fits : bytes.length ≤ bufSize
deriving DecidableEq

structure Services where
  filpOpen : Except Int Unit
  kernelRead : Except Int Reading

inductive Message where
  | cannotOpen (error : Int)
  | readFailed
  | usage (percent : Int)
  | noUpdate
deriving DecidableEq

structure State where
  prevIdle : UInt64
  prevTotal : UInt64
  files : Nat
deriving DecidableEq

def loaded : State := ⟨0, 0, 0⟩

def report (now : Times) (prevIdle prevTotal : UInt64) : Message :=
  let diffIdle := now.idle - prevIdle
  let diffTotal := now.total - prevTotal
  if diffTotal ≠ 0 then .usage (ProcStat.percent (diffTotal - diffIdle) diffTotal) else .noUpdate

def calculateCpuUsage (stack : Stack) (k : Services) (s : State) : Except Fault (Message × State) :=
  match k.filpOpen with
  | .error error => .ok (.cannotOpen error, s)
  | .ok () => do
      let s := { s with files := s.files + 1 }
      let (message, s) ←
        match k.kernelRead with
        | .error _ => .ok (.readFailed, s)
        | .ok reading =>
            if reading.bytes = [] then .ok (.readFailed, s)
            else do
              let values ← sscanf format (reading.bytes ++ stack.buf.drop reading.bytes.length)
              let now := stack.times.store values
              .ok (report now s.prevIdle s.prevTotal, { s with prevIdle := now.idle, prevTotal := now.total })
      .ok (message, { s with files := s.files - 1 })

-- The bytes that a run of the function has from the file, if it comes to have any.
def delivered (k : Services) : Option (List UInt8) :=
  match k.filpOpen, k.kernelRead with
  | .ok (), .ok reading => if reading.bytes = [] then none else some reading.bytes
  | _, _ => none

-- The first line of /proc/stat, at least as far as the byte behind its fourth number.
inductive Whole : List UInt8 → Times → Prop where
  | line (rest : List UInt8) (user nice system idle : UInt64) (read : NumbersRead 4 rest [user, nice, system, idle]) :
      Whole (ProcStat.cpu ++ rest) ⟨user, nice, system, idle⟩

theorem whole_scan (bytes more : List UInt8) (now : Times) (whole : Whole bytes now) :
    sscanf format (bytes ++ more) = .ok [now.user, now.nice, now.system, now.idle] := by
  cases whole with
  | line rest user nice system idle read =>
      rw [List.append_assoc, format, scan_literals]
      exact sscanf_more _ rest more _ (numbers_read_scan 4 rest _ read).1

theorem four_values (values : List UInt64) (four : values.length = 4) :
    ∃ user nice system idle, values = [user, nice, system, idle] := by
  match values, four with
  | [user, nice, system, idle], _ => exact ⟨user, nice, system, idle, rfl⟩

-- Otherwise the scan stops short of the fourth number, or some contents of the buffer take it past the end.
theorem not_whole_cases (bytes : List UInt8) (fits : bytes.length ≤ bufSize) (never : ∀ now, ¬ Whole bytes now) :
    (∃ values, sscanf format bytes = .ok values ∧ values.length < 4) ∨
      ∃ buf : List UInt8, buf.length = bufSize ∧ sscanf format (bytes ++ buf.drop bytes.length) = .error .beyond := by
  rcases literals_cases ProcStat.cpu bytes (numbers 4) with ⟨rest, rfl⟩ | start | mismatch
  · have cases_ : NumbersCut 4 rest ∨ ∃ values, sscanf (numbers 4) rest = .ok values ∧ values.length < 4 := by
      cases rest with
      | nil => exact .inl (.blank 3 [] (by simp [Blank]))
      | cons b rest =>
          rcases numbers_cases 4 b rest with cut | ⟨values, read⟩ | few
          · exact .inl cut
          · obtain ⟨user, nice, system, idle, rfl⟩ := four_values values (numbers_read_scan 4 _ values read).2
            exact absurd (.line _ user nice system idle read) (never _)
          · exact .inr few
    rcases cases_ with cut | ⟨values, scanned, few⟩
    · obtain ⟨filler, unfinished⟩ := numbers_cut_fill 4 rest cut
      refine .inr ⟨List.replicate bufSize filler, List.length_replicate, ?_⟩
      rw [List.drop_replicate, List.append_assoc, format, scan_literals]
      exact numbers_cut_scan 4 _ (unfinished _)
    · exact .inl ⟨values, by rw [format, scan_literals, scanned], few⟩
  · refine .inr ⟨ProcStat.cpu ++ List.replicate 253 32, by rw [List.length_append, List.length_replicate]; rfl, ?_⟩
    obtain ⟨missing, split⟩ := start
    have text : bytes ++ (ProcStat.cpu ++ List.replicate 253 32).drop bytes.length =
        ProcStat.cpu ++ List.replicate 253 32 := by
      rw [← split, List.append_assoc, List.drop_left]
    rw [text, format, scan_literals]
    refine numbers_cut_scan 4 _ (.blank 3 _ fun b member => ?_)
    rw [List.eq_of_mem_replicate member]
    decide +kernel
  · exact .inl ⟨[], mismatch, by decide⟩

-- What is printed by a run that has nothing from the file.
def refused (k : Services) : Message :=
  match k.filpOpen with
  | .error error => .cannotOpen error
  | .ok () => .readFailed

theorem nothing_delivered (stack : Stack) (k : Services) (s : State) (nothing : delivered k = none) :
    calculateCpuUsage stack k s = .ok (refused k, s) := by
  obtain ⟨filpOpen, kernelRead⟩ := k
  match filpOpen, kernelRead, nothing with
  | .error _, _, _ => rfl
  | .ok (), .error _, _ => rfl
  | .ok (), .ok reading, nothing =>
      by_cases empty : reading.bytes = []
      · simp only [calculateCpuUsage, if_pos empty]
        rfl
      · simp only [delivered, if_neg empty] at nothing
        cases nothing

theorem some_delivered (stack : Stack) (k : Services) (s : State) (bytes : List UInt8) (some_bytes : delivered k = some bytes) :
    bytes.length ≤ bufSize ∧
      calculateCpuUsage stack k s = (sscanf format (bytes ++ stack.buf.drop bytes.length)).map fun values =>
        (report (stack.times.store values) s.prevIdle s.prevTotal,
          ⟨(stack.times.store values).idle, (stack.times.store values).total, s.files⟩) := by
  obtain ⟨filpOpen, kernelRead⟩ := k
  match filpOpen, kernelRead, some_bytes with
  | .ok (), .ok reading, some_bytes =>
      by_cases empty : reading.bytes = []
      · simp only [delivered, if_pos empty] at some_bytes
        cases some_bytes
      · simp only [delivered, if_neg empty, Option.some_inj] at some_bytes
        subst some_bytes
        refine ⟨reading.fits, ?_⟩
        simp only [calculateCpuUsage, if_neg empty]
        cases sscanf format (reading.bytes ++ stack.buf.drop reading.bytes.length) <;> rfl

theorem whole_delivered (stack : Stack) (k : Services) (s : State) (bytes : List UInt8) (now : Times)
    (some_bytes : delivered k = some bytes) (whole : Whole bytes now) :
    calculateCpuUsage stack k s = .ok (report now s.prevIdle s.prevTotal, ⟨now.idle, now.total, s.files⟩) := by
  rw [(some_delivered stack k s bytes some_bytes).2, whole_scan bytes _ now whole]
  rfl

-- The fourth number is the last to be converted, so idle is what the stack held.
theorem few_values (t : Times) (values : List UInt64) (few : values.length < 4) : (t.store values).idle = t.idle := by
  have past : values.getD 3 t.idle = t.idle := by
    rw [List.getD_eq_getElem?_getD, List.getElem?_eq_none (Nat.le_of_lt_succ few), Option.getD_none]
  exact past

-- A run prints and keeps the same whatever it finds on the stack, and reads nothing past the buffer, if and
-- only if the bytes it is given hold the first line as far as it is scanned.
theorem stack_unread_iff (k : Services) (s : State) :
    (∃ message after, ∀ stack, calculateCpuUsage stack k s = .ok (message, after)) ↔
      ∀ bytes, delivered k = some bytes → ∃ now, Whole bytes now := by
  constructor
  · rintro ⟨message, after, same⟩ bytes some_bytes
    by_contra never
    have outcome := fun stack => some_delivered stack k s bytes some_bytes
    have zeros : (List.replicate bufSize (0 : UInt8)).length = bufSize := List.length_replicate
    rcases not_whole_cases bytes (outcome ⟨_, zeros, .zero⟩).1 (not_exists.mp never) with
      ⟨values, scanned, few⟩ | ⟨buf, size, faults⟩
    · -- Two stacks that differ in idle alone.
      have kept : ∀ idle, after.prevIdle = idle := by
        intro idle
        have here := (outcome ⟨_, zeros, ⟨0, 0, 0, idle⟩⟩).2
        rw [same, sscanf_more format bytes _ values scanned] at here
        rw [(Prod.mk.inj (Except.ok.inj here)).2]
        exact few_values _ values few
      exact absurd ((kept 0).symm.trans (kept 1)) (by decide)
    · have here := (outcome ⟨buf, size, .zero⟩).2
      rw [same, faults] at here
      cases here
  · intro whole
    cases found : delivered k with
    | none => exact ⟨_, _, fun stack => nothing_delivered stack k s found⟩
    | some bytes =>
        obtain ⟨now, line⟩ := whole bytes found
        exact ⟨_, _, fun stack => whole_delivered stack k s bytes now found line⟩

-- The times a run reads.
def sample (k : Services) : Option Times :=
  (delivered k).bind fun bytes =>
    match sscanf format bytes with
    | .ok [user, nice, system, idle] => some ⟨user, nice, system, idle⟩
    | _ => none

theorem sample_whole (k : Services) (bytes : List UInt8) (now : Times) (some_bytes : delivered k = some bytes)
    (whole : Whole bytes now) : sample k = some now := by
  have scanned := whole_scan bytes [] now whole
  rw [List.append_nil] at scanned
  rw [sample, some_bytes, Option.bind_some, scanned]

structure Tick where
  stack : Stack
  services : Services

def tick (s : State) (t : Tick) : Except Fault (Message × State) := calculateCpuUsage t.stack t.services s

-- What /proc/stat promises.
def Reliable (_ : State) (t : Tick) : Prop := ∀ bytes, delivered t.services = some bytes → ∃ now, Whole bytes now

def samples (ticks : List Tick) : List Times := ticks.filterMap fun t => sample t.services

-- Before the first sample prev_idle and prev_total are those of a machine that has just started.
def lastSample (ticks : List Tick) : Times := (samples ticks).getLast?.getD .zero

theorem last_sample_snoc (ticks : List Tick) (t : Tick) :
    lastSample (ticks ++ [t]) = (sample t.services).getD (lastSample ticks) := by
  cases found : sample t.services with
  | none => simp [lastSample, samples, found]
  | some now => simp [lastSample, samples, found]

def kept (before : Times) : State := ⟨before.idle, before.total, 0⟩

def printed (before : Times) (k : Services) : Message :=
  match sample k with
  | none => refused k
  | some now => report now before.idle before.total

theorem tick_kept (before : Times) (t : Tick) (reliable : Reliable (kept before) t) :
    tick (kept before) t = .ok (printed before t.services, kept ((sample t.services).getD before)) := by
  rw [tick, printed]
  cases found : delivered t.services with
  | none =>
      have nothing : sample t.services = none := by rw [sample, found, Option.bind_none]
      rw [nothing]
      exact nothing_delivered t.stack t.services _ found
  | some bytes =>
      obtain ⟨now, whole⟩ := reliable bytes found
      rw [sample_whole t.services bytes now found whole]
      exact whole_delivered t.stack t.services _ bytes now found whole

theorem run_kept (ticks : List Tick) (outs : List Message) (last : State) (run : Run tick Reliable loaded ticks outs last) :
    last = kept (lastSample ticks) := by
  refine Run.rule tick Reliable loaded (fun ticks _ last => last = kept (lastSample ticks)) rfl ?_ ticks outs last run
  rintro ticks outs middle t out after rfl reliable done
  rw [tick_kept _ t reliable] at done
  obtain ⟨-, rfl⟩ := Prod.mk.inj (Except.ok.inj done)
  rw [last_sample_snoc]

theorem run_prints (first rest : List Tick) (t : Tick) (outs : List Message) (last : State)
    (run : Run tick Reliable loaded (first ++ t :: rest) outs last) :
    outs[first.length]? = some (printed (lastSample first) t.services) := by
  obtain ⟨before, out, after, middle, next, rfl, same, earlier, reliable, done⟩ := Run.at_event _ _ _ _ _ _ _ _ run
  obtain rfl := run_kept first before middle earlier
  rw [tick_kept _ t reliable] at done
  obtain ⟨rfl, -⟩ := Prod.mk.inj (Except.ok.inj done)
  rw [← same, List.getElem?_append_right (Nat.le_refl _), Nat.sub_self]
  rfl

def Times.sum (t : Times) : Nat := t.user.toNat + t.nice.toNat + t.system.toNat + t.idle.toNat

def dTotal (before now : Times) : Nat := now.sum - before.sum
def dIdle (before now : Times) : Nat := now.idle.toNat - before.idle.toNat

-- The counters only go up, and their sum stays a word.
structure Follows (before now : Times) : Prop where
  user : before.user ≤ now.user
  nice : before.nice ≤ now.nice
  system : before.system ≤ now.system
  idle : before.idle ≤ now.idle
  fits : now.sum < 2 ^ 64

def exactReport (before now : Times) : Message :=
  if dTotal before now = 0 then .noUpdate
  else .usage (100 * (dTotal before now - dIdle before now) / dTotal before now : Nat)

theorem total_word (t : Times) (fits : t.sum < 2 ^ 64) : t.total.toNat = t.sum := by
  simp only [Times.sum] at fits ⊢
  simp only [Times.total, UInt64.toNat_add]
  omega

theorem percent_exact_iff (part whole : UInt64) (some_time : 0 < whole.toNat) (within : part.toNat ≤ whole.toNat) :
    ProcStat.percent part whole = (100 * part.toNat / whole.toNat : Nat) ↔ 100 * part.toNat < 2 ^ 64 := by
  have small : 100 * part.toNat / whole.toNat ≤ 100 :=
    Nat.div_le_of_le_mul (by rw [Nat.mul_comm]; exact Nat.mul_le_mul_right 100 within)
  have word : (100 * part / whole).toNat = 100 * part.toNat % 2 ^ 64 / whole.toNat := by
    rw [UInt64.toNat_div, UInt64.toNat_mul]
    rfl
  have less : 100 * part.toNat % 2 ^ 64 / whole.toNat ≤ 100 :=
    (Nat.div_le_div_right (Nat.mod_le _ _)).trans small
  have signed : ProcStat.percent part whole = (100 * part.toNat % 2 ^ 64 / whole.toNat : Nat) := by
    rw [ProcStat.percent, word]
    generalize 100 * part.toNat % 2 ^ 64 / whole.toNat = usage at less
    simp only [cLong, Int.bmod]
    omega
  rw [signed, Int.ofNat_inj]
  exact wrapped_quotient_iff (2 ^ 64) _ _ some_time (Nat.le_of_lt whole.toNat_lt)

theorem report_exact_iff (before now : Times) (follows : Follows before now) :
    report now before.idle before.total = exactReport before now ↔ 100 * (dTotal before now - dIdle before now) < 2 ^ 64 := by
  obtain ⟨user, nice, system, idle, fits⟩ := follows
  have idle_word := UInt64.toNat_sub_of_le _ _ idle
  rw [UInt64.le_iff_toNat_le] at user nice system idle
  have order : before.sum + (now.idle.toNat - before.idle.toNat) ≤ now.sum := by
    simp only [Times.sum]
    omega
  have before_total := total_word before (by omega)
  have now_total := total_word now fits
  have total_diff : (now.total - before.total).toNat = dTotal before now := by
    rw [UInt64.toNat_sub_of_le _ _ (by rw [UInt64.le_iff_toNat_le]; omega), now_total, before_total, dTotal]
  have idle_diff : (now.idle - before.idle).toNat = dIdle before now := idle_word
  have idle_within : dIdle before now ≤ dTotal before now := by
    unfold dIdle dTotal
    omega
  have busy : (now.total - before.total - (now.idle - before.idle)).toNat = dTotal before now - dIdle before now := by
    rw [UInt64.toNat_sub_of_le _ _ (by rw [UInt64.le_iff_toNat_le]; omega), total_diff, idle_diff]
  by_cases still : dTotal before now = 0
  · have zero : now.total - before.total = 0 := UInt64.toNat_inj.mp (total_diff.trans still)
    simp [report, zero, exactReport, still]
  · have moved : now.total - before.total ≠ 0 := by
      intro zero
      rw [zero] at total_diff
      exact still total_diff.symm
    have percent := percent_exact_iff (now.total - before.total - (now.idle - before.idle)) (now.total - before.total)
      (by omega) (by omega)
    rw [busy, total_diff] at percent
    rw [exactReport, if_neg still]
    simp only [report, if_pos moved, Message.usage.injEq]
    exact percent

def honest (before : Times) (k : Services) : Message :=
  match sample k with
  | none => refused k
  | some now => exactReport before now

theorem printed_honest_iff (before : Times) (k : Services) (follows : ∀ now ∈ sample k, Follows before now) :
    printed before k = honest before k ↔ ∀ now ∈ sample k, 100 * (dTotal before now - dIdle before now) < 2 ^ 64 := by
  rw [printed, honest]
  cases found : sample k with
  | none => simp
  | some now => simpa using report_exact_iff before now (follows now found)

theorem sample_follows (first rest : List Tick) (t : Tick)
    (grows : (Times.zero :: samples (first ++ t :: rest)).IsChain Follows) :
    ∀ now ∈ sample t.services, Follows (lastSample first) now := by
  intro now found
  have split : Times.zero :: samples (first ++ t :: rest) = (Times.zero :: samples first) ++ now :: samples rest := by
    simp [samples, Option.mem_def.mp found]
  rw [split, List.isChain_append] at grows
  exact grows.2.2 (lastSample first) (by rw [List.getLast?_cons]; rfl) now rfl

-- The line as /proc/stat has it, with two blanks behind its name.
theorem proc_stat_whole (user nice system idle : Numeral) (b : UInt8) (rest : List UInt8) (stop : isdigit b = false) :
    Whole (ProcStat.cpu ++ 32 :: (listed [user, nice, system, idle] ++ b :: rest))
      ⟨.ofNat user.value, .ofNat nice.value, .ofNat system.value, .ofNat idle.value⟩ :=
  .line _ _ _ _ _ (numbers_read_blank 3 _ _ 32 (by decide) (listed_read [user, nice, system, idle] b rest stop))

-- Ticks may fail to open or to read the file, in any order. Each of the others tells the share of the time since the
-- last one that was read.
theorem lines_exact_iff (ticks : List Tick) (outs : List Message) (last : State)
    (run : Run tick Reliable loaded ticks outs last) (grows : (Times.zero :: samples ticks).IsChain Follows) :
    last = kept (lastSample ticks) ∧ ∀ first t rest, ticks = first ++ t :: rest →
      (outs[first.length]? = some (honest (lastSample first) t.services) ↔
        ∀ now ∈ sample t.services, 100 * (dTotal (lastSample first) now - dIdle (lastSample first) now) < 2 ^ 64) := by
  refine ⟨run_kept ticks outs last run, ?_⟩
  rintro first t rest rfl
  rw [run_prints first rest t outs last run, Option.some_inj]
  exact printed_honest_iff _ _ (sample_follows first rest t grows)

def busyReading : Reading := ⟨ProcStat.cpu ++ [32, 32, 52, 32, 48, 32, 49, 32, 49, 53, 10], by decide⟩

def idleReading : Reading := ⟨ProcStat.cpu ++ [32, 32, 49, 52, 32, 48, 32, 49, 32, 50, 53, 10], by decide⟩

def tickWith (junk : UInt8) (left : Times) (filpOpen : Except Int Unit) (reading : Reading) : Tick :=
  ⟨⟨List.replicate bufSize junk, List.length_replicate, left⟩, filpOpen, .ok reading⟩

def busyTick : Tick := tickWith 57 .zero (.ok ()) busyReading
def refusedTick : Tick := tickWith 0 ⟨1, 2, 3, 4⟩ (.error (-2)) busyReading
def idleTick : Tick := tickWith 32 ⟨5, 6, 7, 8⟩ (.ok ()) idleReading

-- The second tick cannot open the file. The stack is never the same.
theorem lines_exact_ex : ∃ outs last, Run tick Reliable loaded [busyTick, refusedTick, idleTick] outs last ∧
    last = ⟨25, 40, 0⟩ ∧ outs[2]? = some (.usage 50) := by
  have busy : Whole busyReading.bytes ⟨4, 0, 1, 15⟩ :=
    proc_stat_whole ⟨[4], by decide⟩ ⟨[0], by decide⟩ ⟨[1], by decide⟩ ⟨[1, 5], by decide⟩ newline [] (by decide)
  have idle : Whole idleReading.bytes ⟨14, 0, 1, 25⟩ :=
    proc_stat_whole ⟨[1, 4], by decide⟩ ⟨[0], by decide⟩ ⟨[1], by decide⟩ ⟨[2, 5], by decide⟩ newline [] (by decide)
  have first : sample busyTick.services = some ⟨4, 0, 1, 15⟩ := sample_whole _ _ _ rfl busy
  have second : sample refusedTick.services = none := rfl
  have third : sample idleTick.services = some ⟨14, 0, 1, 25⟩ := sample_whole _ _ _ rfl idle
  have reliable : ∀ s, Reliable s busyTick ∧ Reliable s refusedTick ∧ Reliable s idleTick := by
    intro s
    refine ⟨?_, ?_, ?_⟩
    · intro bytes found
      obtain rfl := Option.some.inj found
      exact ⟨_, busy⟩
    · intro bytes found
      cases found
    · intro bytes found
      obtain rfl := Option.some.inj found
      exact ⟨_, idle⟩
  have run : Run tick Reliable loaded [busyTick, refusedTick, idleTick] _ _ :=
    .next [_, _] _ _ _ _ _ (.next [_] _ _ _ _ _
      (.next [] [] _ _ _ _ .start (reliable _).1 (tick_kept .zero busyTick (reliable _).1))
      (reliable _).2.1 (tick_kept _ refusedTick (reliable _).2.1))
      (reliable _).2.2 (tick_kept _ idleTick (reliable _).2.2)
  have read : samples [busyTick, refusedTick, idleTick] = [⟨4, 0, 1, 15⟩, ⟨14, 0, 1, 25⟩] := by
    simp [samples, first, second, third]
  have before : lastSample [busyTick, refusedTick] = ⟨4, 0, 1, 15⟩ := by
    simp [lastSample, samples, first, second]
  obtain ⟨ends, exact_⟩ := lines_exact_iff _ _ _ run (by
    rw [read]
    exact .cons_cons ⟨by decide, by decide, by decide, by decide, by decide⟩
      (.cons_cons ⟨by decide, by decide, by decide, by decide, by decide⟩ (.singleton _)))
  refine ⟨_, _, run, ?_, ?_⟩
  · rw [ends, lastSample, read]
    decide
  · refine ((exact_ [_, _] idleTick [] rfl).mpr ?_).trans ?_
    · rw [third, before]
      decide
    · rw [honest, third, before]
      decide

end LinuxModule.AggregateLine
