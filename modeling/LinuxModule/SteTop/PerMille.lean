import LinuxModule.SteTop.Frame
import LinuxModule.CpuUsage.CpuUsage3
import LinuxModule.Base.Shares
import Mathlib.Algebra.Order.BigOperators.Group.List

set_option autoImplicit false

namespace LinuxModule.SteTop

inductive Category where
  | user
  | system
  | nice
  | idle
  | iowait
  | irq
  | softirq
  | steal
deriving DecidableEq, Repr

def Category.active : List Category := [.user, .system, .nice, .iowait, .irq, .softirq, .steal]

def Category.all : List Category := .idle :: Category.active

def AllCpuTime.get (t : AllCpuTime) : Category → UInt64
  | .user => t.user
  | .system => t.system
  | .nice => t.nice
  | .idle => t.idle
  | .iowait => t.iowait
  | .irq => t.irq
  | .softirq => t.softirq
  | .steal => t.steal

theorem diff_get (new old : AllCpuTime) (c : Category) : (new.diff old).get c = new.get c - old.get c := by
  cases c <;> rfl

def AllCpuTime.value (t : AllCpuTime) (c : Category) : Nat := (t.get c).toNat

def increase (new old : AllCpuTime) (c : Category) : Nat := new.value c - old.value c

def totalIncrease (new old : AllCpuTime) : Nat := (Category.all.map (increase new old)).sum

def activeSum (t : AllCpuTime) : Nat := (Category.active.map t.value).sum

theorem sum_value (t : AllCpuTime) : t.sum.toNat = (Category.all.map t.value).sum % 2 ^ 64 := by
  simp only [AllCpuTime.sum, UInt64.toNat_add, Category.all, Category.active, AllCpuTime.value, AllCpuTime.get,
    List.map_cons, List.map_nil, List.sum_cons, List.sum_nil]
  omega

theorem diff_value (new old : AllCpuTime) (kept : ∀ c, old.value c ≤ new.value c) :
    (new.diff old).value = increase new old := by
  funext c
  rw [AllCpuTime.value, diff_get, UInt64.toNat_sub_of_le _ _ (UInt64.le_iff_toNat_le.mpr (kept c))]
  rfl

theorem diff_sum_value (new old : AllCpuTime) (kept : ∀ c, old.value c ≤ new.value c)
    (fits : totalIncrease new old < 2 ^ 64) : (new.diff old).sum.toNat = totalIncrease new old := by
  rw [sum_value, diff_value new old kept]
  exact Nat.mod_eq_of_lt fits

theorem increase_le_total (new old : AllCpuTime) (c : Category) : increase new old c ≤ totalIncrease new old := by
  have member : c ∈ Category.all := by cases c <;> decide
  exact List.le_sum_of_mem (List.mem_map_of_mem member)

theorem print_figures (new old : AllCpuTime) (moved : (new.diff old).sum ≠ 0) :
    ∃ p, printCpuUsageStatistics new old = some p ∧
      (∀ c, c ≠ .idle → p.get c = 1000 * (new.diff old).get c / (new.diff old).sum) ∧
      p.idle = 1000 - (p.user + p.system + p.nice + p.iowait + p.irq + p.softirq + p.steal) := by
  refine ⟨_, if_pos moved, fun c notIdle => ?_, rfl⟩
  cases c with
  | idle => exact absurd rfl notIdle
  | _ => rfl

theorem figure_value (d whole : UInt64) (fits : 1000 * d.toNat < 2 ^ 64) :
    (1000 * d / whole).toNat = 1000 * d.toNat / whole.toNat := by
  have product : (1000 * d).toNat = 1000 * d.toNat := by
    rw [UInt64.toNat_mul]
    exact Nat.mod_eq_of_lt fits
  rw [UInt64.toNat_div, product]

theorem idle_value (p : AllCpuTime) (fits : activeSum p ≤ 1000)
    (idle : p.idle = 1000 - (p.user + p.system + p.nice + p.iowait + p.irq + p.softirq + p.steal)) :
    p.value .idle = 1000 - activeSum p := by
  have active : (p.user + p.system + p.nice + p.iowait + p.irq + p.softirq + p.steal).toNat = activeSum p := by
    simp only [activeSum, Category.active, AllCpuTime.value, AllCpuTime.get, List.map_cons, List.map_nil, List.sum_cons,
      List.sum_nil, UInt64.toNat_add] at fits ⊢
    omega
  have below : p.user + p.system + p.nice + p.iowait + p.irq + p.softirq + p.steal ≤ 1000 :=
    UInt64.le_iff_toNat_le.mpr (active ▸ fits)
  rw [AllCpuTime.value, AllCpuTime.get, idle, UInt64.toNat_sub_of_le _ _ below, active]
  rfl

structure PerMille (new old p : AllCpuTime) : Prop where
  bounded : ∀ c, p.value c ≤ 1000
  complete : (Category.all.map p.value).sum = 1000
  active : ∀ c, c ≠ .idle → p.value c = 1000 * increase new old c / totalIncrease new old
  noWrap : activeSum p ≤ 1000 ∧ p.value .idle = 1000 - activeSum p
  idleLow : (1000 * increase new old .idle / totalIncrease new old : ℚ) ≤ p.value .idle
  idleHigh : (p.value .idle : ℚ) < 1000 * increase new old .idle / totalIncrease new old + 7

theorem print_per_mille (new old : AllCpuTime) (kept : ∀ c, old.value c ≤ new.value c)
    (moved : ∃ c, old.value c < new.value c) (fits : 1000 * totalIncrease new old < 2 ^ 64) :
    ∃ p, printCpuUsageStatistics new old = some p ∧ PerMille new old p := by
  have positive : 0 < totalIncrease new old := by
    obtain ⟨c, grew⟩ := moved
    exact Nat.lt_of_lt_of_le (Nat.sub_pos_of_lt grew) (increase_le_total new old c)
  have whole := diff_sum_value new old kept (by omega)
  have nonzero : (new.diff old).sum ≠ 0 := by
    intro zero
    rw [zero] at whole
    exact absurd whole (Nat.ne_of_lt positive)
  obtain ⟨p, printed, figures, idle⟩ := print_figures new old nonzero
  have active : ∀ c, c ≠ .idle → p.value c = 1000 * increase new old c / totalIncrease new old := by
    intro c notIdle
    have increased : ((new.diff old).get c).toNat = increase new old c := congrFun (diff_value new old kept) c
    have small := increase_le_total new old c
    rw [AllCpuTime.value, figures c notIdle, figure_value _ _ (by omega), increased, whole]
  have rounded : activeSum p = ((Category.active.map (increase new old)).map fun part =>
      1000 * part / totalIncrease new old).sum := by
    rw [activeSum, List.map_map]
    exact congrArg List.sum (List.map_congr_left fun c member => active c (by rintro rfl; revert member; decide))
  obtain ⟨below, low, high⟩ := remainder_near_share 1000 (totalIncrease new old) (increase new old .idle) positive
    (Category.active.map (increase new old)) (by simp [Category.active]) rfl
  rw [← rounded] at below low high
  have remainder := idle_value p below idle
  have complete : (Category.all.map p.value).sum = 1000 := by
    rw [Category.all, List.map_cons, List.sum_cons, remainder, ← activeSum]
    omega
  refine ⟨p, printed, fun c => ?_, complete, active, ⟨below, remainder⟩, by rw [remainder]; exact_mod_cast low, ?_⟩
  · have member : c ∈ Category.all := by cases c <;> decide
    exact complete ▸ List.le_sum_of_mem (List.mem_map_of_mem member)
  · rw [remainder]
    exact_mod_cast high

def totals (cpus : List (KCpuStat UInt64)) : AllCpuTime := cpus.foldl addCpu AllCpuTime.zero

theorem update_cpu_times_final (cpus : List (KCpuStat UInt64)) (s after : Globals)
    (ran : Walk.final (updateCpuTimes cpus) s = .ok after) :
    after.oldAllCpuTime = s.newAllCpuTime ∧ after.newAllCpuTime = totals cpus := by
  cases ran
  exact ⟨rfl, rfl⟩

theorem per_mille_figures (new old : AllCpuTime) (kept : ∀ c, old.value c ≤ new.value c)
    (moved : ∃ c, old.value c < new.value c) (fits : 1000 * totalIncrease new old < 2 ^ 64) :
    ∃ p, PerMille new old p ∧ printCpuUsageStatistics new old = some p ∧
      (∀ cpus s after, s.newAllCpuTime = old → totals cpus = new → Walk.final (updateCpuTimes cpus) s = .ok after →
        printCpuUsageStatistics after.newAllCpuTime after.oldAllCpuTime = some p) ∧
      ∀ first second, totals first = old → totals second = new → CpuUsage3.cpuUsageInit first second = some p := by
  obtain ⟨p, printed, figures⟩ := print_per_mille new old kept moved fits
  refine ⟨p, figures, printed, ?_, ?_⟩
  · intro cpus s after before now ran
    obtain ⟨sameOld, sameNew⟩ := update_cpu_times_final cpus s after ran
    rw [sameOld, sameNew, before, now, printed]
  · rintro first second rfl rfl
    exact printed

-- Seven parts that are rounded down by 7/8 each, all at the cost of idle.
def evenSplit : AllCpuTime := ⟨14, 14, 14, 15902, 14, 14, 14, 14⟩

theorem even_split_figures : ∃ p, PerMille evenSplit AllCpuTime.zero p ∧
    printCpuUsageStatistics evenSplit AllCpuTime.zero = some p ∧
    (∀ cpus s after, s.newAllCpuTime = AllCpuTime.zero → totals cpus = evenSplit →
      Walk.final (updateCpuTimes cpus) s = .ok after →
      printCpuUsageStatistics after.newAllCpuTime after.oldAllCpuTime = some p) ∧
    ∀ first second, totals first = AllCpuTime.zero → totals second = evenSplit →
      CpuUsage3.cpuUsageInit first second = some p :=
  per_mille_figures evenSplit AllCpuTime.zero (by intro c; cases c <;> decide) ⟨.user, by decide⟩ (by decide)

end LinuxModule.SteTop
