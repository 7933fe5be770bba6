import LinuxModule.SteTop.OnlineSums
import LinuxModule.Base.CInt
import LinuxModule.Base.Words
import Mathlib.Data.List.Forall2

set_option autoImplicit false

namespace LinuxModule.GetCpuUsage

open SteTop (Category AllCpuTime addCpu)

-- The counters of the possible CPUs, in CPU order.
abbrev Snapshot := List (KCpuStat UInt64)

-- What get_cpu_times returns through its pointers, and prev_idle and prev_total.
structure CpuTimes where
  idle : UInt64
  total : UInt64
deriving DecidableEq

def getCpuTimes (cpus : Snapshot) : CpuTimes :=
  let sum := cpus.foldl addCpu AllCpuTime.zero
  ⟨sum.idle, sum.user + sum.nice + sum.system + sum.idle + sum.iowait + sum.irq + sum.softirq + sum.steal⟩

def loaded : CpuTimes := ⟨0, 0⟩

-- usage is a long. Nothing is printed when delta_total is 0.
def getCpuUsage (cpus : Snapshot) (prev : CpuTimes) : Option Int × CpuTimes :=
  let now := getCpuTimes cpus
  let deltaIdle := now.idle - prev.idle
  let deltaTotal := now.total - prev.total
  if deltaTotal ≠ 0 then (some (cLong (100 * (deltaTotal - deltaIdle) / deltaTotal).toNat), now)
  else (none, now)

def calls (prev : CpuTimes) : List Snapshot → List (Option Int)
  | [] => []
  | cpus :: rest => (getCpuUsage cpus prev).1 :: calls (getCpuUsage cpus prev).2 rest

def sum (cpus : Snapshot) (c : Category) : Nat := (cpus.map fun k => (SteTop.counter k c).toNat).sum

def total (cpus : Snapshot) : Nat := (Category.all.map (sum cpus)).sum

def dTotal (before after : Snapshot) : Nat := total after - total before
def dIdle (before after : Snapshot) : Nat := sum after .idle - sum before .idle

structure Interval (before after : Snapshot) : Prop where
  kept : ∀ c, sum before c ≤ sum after c
  fits : total after < 2 ^ 64

-- The snapshots each call lies between. Before the first one nothing was counted.
def intervals (before : Snapshot) : List Snapshot → List (Snapshot × Snapshot)
  | [] => []
  | after :: rest => (before, after) :: intervals after rest

def Admissible (history : List Snapshot) : Prop := ∀ i ∈ intervals [] history, Interval i.1 i.2

structure Exact (before after : Snapshot) (usage : Int) : Prop where
  share : usage = (100 * (dTotal before after - dIdle before after) / dTotal before after : Nat)
  low : 0 ≤ usage
  high : usage ≤ 100

theorem sum_le_total (cpus : Snapshot) (c : Category) : sum cpus c ≤ total cpus := by
  have member : c ∈ Category.all := by cases c <;> decide
  exact List.le_sum_of_mem (List.mem_map_of_mem member)

theorem sum_word (cpus : Snapshot) (fits : total cpus < 2 ^ 64) (c : Category) :
    (SteTop.totals cpus).value c = sum cpus c := by
  rw [SteTop.totals_value]
  exact Nat.mod_eq_of_lt (Nat.lt_of_le_of_lt (sum_le_total cpus c) fits)

theorem idle_word (cpus : Snapshot) (fits : total cpus < 2 ^ 64) : (getCpuTimes cpus).idle.toNat = sum cpus .idle :=
  sum_word cpus fits .idle

theorem total_word (cpus : Snapshot) (fits : total cpus < 2 ^ 64) : (getCpuTimes cpus).total.toNat = total cpus := by
  have words := sum_word cpus fits
  have whole : (getCpuTimes cpus).total.toNat = (Category.all.map (SteTop.totals cpus).value).sum % 2 ^ 64 := by
    simp only [getCpuTimes, SteTop.totals, UInt64.toNat_add, Category.all, Category.active, AllCpuTime.value, AllCpuTime.get,
      List.map_cons, List.map_nil, List.sum_cons, List.sum_nil]
    omega
  rw [whole, funext words]
  exact Nat.mod_eq_of_lt fits

theorem idle_within (before after : Snapshot) (interval : Interval before after) :
    dIdle before after ≤ dTotal before after ∧ total before ≤ total after := by
  have kept := interval.kept
  have user := kept .user
  have system := kept .system
  have nice := kept .nice
  have idle := kept .idle
  have iowait := kept .iowait
  have irq := kept .irq
  have softirq := kept .softirq
  have steal := kept .steal
  simp only [dIdle, dTotal, total, Category.all, Category.active, List.map_cons, List.map_nil, List.sum_cons, List.sum_nil]
  omega

theorem deltas (before after : Snapshot) (interval : Interval before after) :
    ((getCpuTimes after).idle - (getCpuTimes before).idle).toNat = dIdle before after ∧
      ((getCpuTimes after).total - (getCpuTimes before).total).toNat = dTotal before after := by
  have ordered := (idle_within before after interval).2
  have fits := interval.fits
  have earlier : total before < 2 ^ 64 := by omega
  have idle := idle_word after fits
  have idle' := idle_word before earlier
  have whole := total_word after fits
  have whole' := total_word before earlier
  have kept := interval.kept .idle
  constructor
  · rw [UInt64.toNat_sub_of_le _ _ (UInt64.le_iff_toNat_le.mpr (by omega)), idle, idle']
    rfl
  · rw [UInt64.toNat_sub_of_le _ _ (UInt64.le_iff_toNat_le.mpr (by omega)), whole, whole']
    rfl

theorem product_word (before after : Snapshot) (interval : Interval before after) :
    (100 * (((getCpuTimes after).total - (getCpuTimes before).total) -
        ((getCpuTimes after).idle - (getCpuTimes before).idle))).toNat =
      100 * (dTotal before after - dIdle before after) % 2 ^ 64 := by
  obtain ⟨idle, whole⟩ := deltas before after interval
  have within := (idle_within before after interval).1
  rw [UInt64.toNat_mul, UInt64.toNat_sub_of_le _ _ (UInt64.le_iff_toNat_le.mpr (by omega)), whole, idle]
  rfl

theorem get_cpu_usage_prints (before after : Snapshot) (interval : Interval before after) :
    (getCpuUsage after (getCpuTimes before)).1 = if 0 < dTotal before after then
      some (cLong (100 * (dTotal before after - dIdle before after) % 2 ^ 64 / dTotal before after : Nat)) else none := by
  obtain ⟨_, whole⟩ := deltas before after interval
  have product := product_word before after interval
  by_cases moved : 0 < dTotal before after
  · have nonzero : (getCpuTimes after).total - (getCpuTimes before).total ≠ 0 := by
      intro zero
      rw [zero] at whole
      exact absurd whole (Nat.ne_of_lt moved)
    rw [if_pos moved, getCpuUsage]
    simp only [if_pos nonzero, UInt64.toNat_div, product, whole]
  · have zero : (getCpuTimes after).total - (getCpuTimes before).total = 0 := by
      apply UInt64.toNat_inj.mp
      rw [whole]
      exact Nat.eq_zero_of_not_pos moved
    rw [if_neg moved, getCpuUsage]
    simp only [zero, ne_eq, not_true_eq_false, if_false]

theorem percent_value (usage : Nat) (percent : usage ≤ 100) : cLong (usage : Nat) = usage := by
  simp only [cLong, Int.bmod]
  omega

theorem call_exact_iff (before after : Snapshot) (interval : Interval before after) :
    (∀ usage ∈ (getCpuUsage after (getCpuTimes before)).1, Exact before after usage) ↔
      100 * (dTotal before after - dIdle before after) < 2 ^ 64 := by
  have within := (idle_within before after interval).1
  have word : dTotal before after < 2 ^ 64 := Nat.lt_of_le_of_lt (Nat.sub_le _ _) interval.fits
  have bounded : 100 * (dTotal before after - dIdle before after) / dTotal before after ≤ 100 :=
    Nat.div_le_of_le_mul (by rw [Nat.mul_comm (dTotal before after)]; omega)
  rw [get_cpu_usage_prints before after interval]
  by_cases moved : 0 < dTotal before after
  · rw [if_pos moved]
    constructor
    · intro exact_
      by_contra overflows
      have smaller := wrapped_quotient_lt (2 ^ 64) _ _ moved (Nat.le_of_lt word) (Nat.le_of_not_lt overflows)
      have share := (exact_ _ rfl).share
      rw [percent_value _ (Nat.le_trans (Nat.le_of_lt smaller) bounded)] at share
      exact (Nat.ne_of_lt smaller) (Int.ofNat_inj.mp share)
    · intro fits usage member
      rw [Nat.mod_eq_of_lt fits, percent_value _ bounded] at member
      obtain rfl := Option.mem_some_iff.mp member
      exact ⟨rfl, Int.natCast_nonneg _, Int.ofNat_le.mpr bounded⟩
  · rw [if_neg moved]
    have still : dTotal before after - dIdle before after = 0 := by omega
    simp [still]

def AllExact (prev : CpuTimes) (before : Snapshot) (history : List Snapshot) : Prop :=
  List.Forall₂ (fun i printed => ∀ usage ∈ printed, Exact i.1 i.2 usage) (intervals before history) (calls prev history)

theorem get_cpu_usage_keeps (cpus : Snapshot) (prev : CpuTimes) : (getCpuUsage cpus prev).2 = getCpuTimes cpus := by
  by_cases moved : (getCpuTimes cpus).total - prev.total ≠ 0
  · rw [getCpuUsage]
    simp only [if_pos moved]
  · rw [getCpuUsage]
    simp only [if_neg moved]

theorem calls_exact_iff (before : Snapshot) (history : List Snapshot)
    (admissible : ∀ i ∈ intervals before history, Interval i.1 i.2) :
    AllExact (getCpuTimes before) before history ↔
      ∀ i ∈ intervals before history, 100 * (dTotal i.1 i.2 - dIdle i.1 i.2) < 2 ^ 64 := by
  induction history generalizing before with
  | nil => simp [AllExact, intervals, calls]
  | cons after rest ih =>
      obtain ⟨here, later⟩ := List.forall_mem_cons.mp admissible
      have call := call_exact_iff before after here
      have calls_after := ih after later
      rw [AllExact, intervals, calls, List.forall₂_cons, get_cpu_usage_keeps, List.forall_mem_cons]
      exact and_congr call calls_after

-- The module is loaded as if it had just seen no CPU at all.
theorem usages_exact_iff (history : List Snapshot) (admissible : Admissible history) :
    AllExact loaded [] history ↔ ∀ i ∈ intervals [] history, 100 * (dTotal i.1 i.2 - dIdle i.1 i.2) < 2 ^ 64 :=
  calls_exact_iff [] history admissible

def busy (cpus : Nat) (nanoseconds : UInt64) : Snapshot := List.replicate cpus ⟨nanoseconds, 0, 0, 0, 0, 0, 0, 0, 0, 0⟩

theorem busy_day_exact : AllExact loaded [] [busy 4 86400000000000, busy 4 86401000000000] := by
  refine (usages_exact_iff _ ?_).mpr (by decide +kernel)
  intro i member
  simp only [intervals, List.mem_cons, List.not_mem_nil, or_false] at member
  rcases member with rfl | rfl
  · exact ⟨fun c => by cases c <;> decide +kernel, by decide +kernel⟩
  · exact ⟨fun c => by cases c <;> decide +kernel, by decide +kernel⟩

-- Four CPUs busy for 2^56 nanoseconds each, a little over two years.
theorem busy_years_misreported : ¬ ∀ history, Admissible history → AllExact loaded [] history := by
  intro claimed
  have admissible : Admissible [busy 4 (2 ^ 56)] := by
    intro i member
    obtain rfl := List.mem_singleton.mp member
    exact ⟨fun c => by cases c <;> decide +kernel, by decide +kernel⟩
  have exact_ := claimed [busy 4 (2 ^ 56)] admissible
  have fits := (calls_exact_iff [] _ admissible).mp exact_ ([], busy 4 (2 ^ 56)) (by simp [intervals])
  exact absurd fits (by decide +kernel)

end LinuxModule.GetCpuUsage
