import LinuxModule.Softwdt.LoadSoftwdt2
import LinuxModule.Softwdt.Percent
import LinuxModule.CpuUsage.GetCpuUsage

set_option autoImplicit false

namespace LinuxModule.Softwdt

variable {w : Nat} {J : Type}

-- As account_guest_time does: guest time is user time too, guest_nice time nice time.
structure Accounted (before after : KCpuStat Nat) : Prop extends Grows before after where
  guestInUser : after.guest - before.guest ≤ after.user - before.user
  guestInNice : after.guestNice - before.guestNice ≤ after.nice - before.nice

-- The time that passed, which has no guest time of its own, and the guest time in it.
def dWhole (before after : KCpuStat Nat) : Nat :=
  (after.user - before.user) + (after.nice - before.nice) + (after.system - before.system) + (after.idle - before.idle) +
    (after.iowait - before.iowait) + (after.irq - before.irq) + (after.softirq - before.softirq) + (after.steal - before.steal)

def dGuest (before after : KCpuStat Nat) : Nat :=
  (after.guest - before.guest) + (after.guestNice - before.guestNice)

-- A machine with one CPU, as the watchdogs and get_cpu_usage see its counters.
def oneCpu (w : Nat) (jiffies : J) (k : KCpuStat Nat) : Env w J := ⟨jiffies, [0], fun _ => stored w k⟩

def oneCpuU64 (k : KCpuStat Nat) : GetCpuUsage.Snapshot :=
  [⟨.ofNat k.user, .ofNat k.nice, .ofNat k.system, .ofNat k.idle, .ofNat k.iowait, .ofNat k.irq, .ofNat k.softirq,
    .ofNat k.steal, .ofNat k.guest, .ofNat k.guestNice⟩]

def shownUsage (lines : List (CpuUsage w)) : List (Option Int) :=
  lines.map fun line => line.percent.map fun percent => percent.1.toInt

def softwdt3Usage (t1 t2 : J) (before after : KCpuStat Nat) (prev : LoadSoftwdt3.PrevCpuUsageStats w) :
    Except Fault (List (Option Int)) := do
  let (_, saved) ← LoadSoftwdt3.calculateCpuStats .collectTimings (oneCpu w t1 before) prev
  let (lines, _) ← LoadSoftwdt3.calculateCpuStats .calculateUsage (oneCpu w t2 after) saved
  .ok (shownUsage (lines.map (·.toCpuUsage)))

def softwdt2Usage (p : Platform J) (t1 t2 : J) (before after : KCpuStat Nat) (prev : PrevArrays w) :
    Except Fault (List (Option Int)) := do
  let saved ← LoadSoftwdt2.statisticsCpuTime p (oneCpu w t1 before) prev
  let lines ← LoadSoftwdt2.calculateCpuUsage p (oneCpu w t2 after) saved
  .ok (shownUsage lines)

def getCpuUsages (before after : KCpuStat Nat) (prev : GetCpuUsage.CpuTimes) : Option Int :=
  (GetCpuUsage.getCpuUsage (oneCpuU64 after) (GetCpuUsage.getCpuUsage (oneCpuU64 before) prev).2).1

theorem total_is_whole_and_guest (before after : KCpuStat Nat) (grows : Grows before after) :
    dTotal before after = dWhole before after + dGuest before after := by
  obtain ⟨user, nice, system, idle, iowait, irq, softirq, steal, guest, guestNice⟩ := grows
  simp only [dTotal, trueTotal, dWhole, dGuest]
  omega

theorem whole_positive_iff (before after : KCpuStat Nat) (accounted : Accounted before after) :
    0 < dWhole before after ↔ 0 < dTotal before after := by
  have inUser := accounted.guestInUser
  have inNice := accounted.guestInNice
  rw [total_is_whole_and_guest before after accounted.toGrows]
  simp only [dWhole, dGuest]
  omega

theorem idle_within_whole (before after : KCpuStat Nat) : dIdle before after ≤ dWhole before after := by
  simp only [dIdle, dWhole]
  omega

theorem watchdog_percent (before after : KCpuStat Nat) (grows : Grows before after) (moved : 0 < dTotal before after)
    (wide : 7 < w) (fits : 100 * dTotal before after < 2 ^ w) :
    (((cpuTimes (stored w after)).diff (cpuTimes (stored w before))).percent.map fun percent => percent.1.toInt) =
      some ((100 * (dTotal before after - dIdle before after) / dTotal before after : Nat) : Int) := by
  obtain ⟨usage, interrupt, printed, value, _, _, _, long⟩ := (percent_exact before after grows fits).figures moved
  rw [printed, Option.map_some, (long wide).1, value]

theorem softwdt3_usage (t1 t2 : J) (before after : KCpuStat Nat) (cell : CpuTimes w) (cells : List (CpuTimes w)) :
    softwdt3Usage t1 t2 before after (.live (cell :: cells)) =
      .ok [((cpuTimes (stored w after)).diff (cpuTimes (stored w before))).percent.map fun percent => percent.1.toInt] := rfl

theorem softwdt2_usage (p : Platform J) (one : p.possible = [0]) (t1 t2 : J) (before after : KCpuStat Nat)
    (idle total interrupt : BitVec w) (idles totals interrupts : List (BitVec w)) :
    softwdt2Usage p t1 t2 before after ⟨.live (idle :: idles), .live (total :: totals), .live (interrupt :: interrupts)⟩ =
      .ok [((cpuTimes (stored w after)).diff (cpuTimes (stored w before))).percent.map fun percent => percent.1.toInt] := by
  rw [softwdt2Usage, LoadSoftwdt2.statisticsCpuTime, one]
  simp only [LoadSoftwdt2.calculateCpuUsage, one]
  rfl

theorem get_cpu_times_diff (before after : KCpuStat Nat) (grows : Grows before after) :
    (GetCpuUsage.getCpuTimes (oneCpuU64 after)).idle - (GetCpuUsage.getCpuTimes (oneCpuU64 before)).idle =
        .ofNat (dIdle before after) ∧
      (GetCpuUsage.getCpuTimes (oneCpuU64 after)).total - (GetCpuUsage.getCpuTimes (oneCpuU64 before)).total =
        .ofNat (dWhole before after) := by
  have words : ∀ k : KCpuStat Nat, GetCpuUsage.getCpuTimes (oneCpuU64 k) = ⟨.ofNat k.idle,
      .ofNat (k.user + k.nice + k.system + k.idle + k.iowait + k.irq + k.softirq + k.steal)⟩ := by
    intro k
    simp [GetCpuUsage.getCpuTimes, oneCpuU64, SteTop.addCpu, SteTop.AllCpuTime.zero, UInt64.ofNat_add]
  obtain ⟨user, nice, system, idle, iowait, irq, softirq, steal, _, _⟩ := grows
  rw [words, words]
  refine ⟨(UInt64.ofNat_sub idle).symm, ?_⟩
  rw [← UInt64.ofNat_sub (by omega)]
  congr 1
  simp only [dWhole]
  omega

theorem get_cpu_usages_value (before after : KCpuStat Nat) (grows : Grows before after) (prev : GetCpuUsage.CpuTimes)
    (moved : 0 < dWhole before after) (fits : 100 * dWhole before after < 2 ^ 64) :
    getCpuUsages before after prev =
      some ((100 * (dWhole before after - dIdle before after) / dWhole before after : Nat) : Int) := by
  obtain ⟨idle, whole⟩ := get_cpu_times_diff before after grows
  have within := idle_within_whole before after
  have bounded : 100 * (dWhole before after - dIdle before after) / dWhole before after ≤ 100 :=
    Nat.div_le_of_le_mul (by rw [Nat.mul_comm (dWhole before after)]; omega)
  have short : dWhole before after < UInt64.size := Nat.lt_of_le_of_lt (Nat.le_mul_of_pos_left _ (by decide)) fits
  have word : (UInt64.ofNat (dWhole before after)).toNat = dWhole before after := UInt64.toNat_ofNat_of_lt' short
  have busy : (UInt64.ofNat (dWhole before after - dIdle before after)).toNat = dWhole before after - dIdle before after :=
    UInt64.toNat_ofNat_of_lt' (Nat.lt_of_le_of_lt (Nat.sub_le _ _) short)
  have hundred : (100 : UInt64).toNat = 100 := rfl
  have product : (100 * (UInt64.ofNat (dWhole before after - dIdle before after))).toNat =
      100 * (dWhole before after - dIdle before after) := by
    rw [UInt64.toNat_mul, busy, hundred]
    exact Nat.mod_eq_of_lt (by omega)
  have nonzero : UInt64.ofNat (dWhole before after) ≠ 0 := by
    intro zero
    rw [zero] at word
    exact absurd word (Nat.ne_of_lt moved)
  rw [getCpuUsages, GetCpuUsage.get_cpu_usage_keeps, GetCpuUsage.getCpuUsage]
  simp only [idle, whole, if_pos nonzero, ← UInt64.ofNat_sub within, UInt64.toNat_div, product, word,
    GetCpuUsage.percent_value _ bounded]

-- All three monitors print the same usage. The watchdogs' arrays may hold anything before
-- they collect, and get_cpu_usage may have been called before.
def Agree (w : Nat) (before after : KCpuStat Nat) : Prop :=
  ∀ (p : Platform Nat) (t1 t2 : Nat) (cell : CpuTimes w) (cells : List (CpuTimes w)) (idle total interrupt : BitVec w)
    (idles totals interrupts : List (BitVec w)) (prev : GetCpuUsage.CpuTimes), p.possible = [0] →
      softwdt3Usage t1 t2 before after (.live (cell :: cells)) = .ok [getCpuUsages before after prev] ∧
        softwdt2Usage p t1 t2 before after
          ⟨.live (idle :: idles), .live (total :: totals), .live (interrupt :: interrupts)⟩ =
            .ok [getCpuUsages before after prev]

theorem monitors_agree_iff (wide : 7 < w) (before after : KCpuStat Nat) (accounted : Accounted before after)
    (moved : 0 < dTotal before after) (fits : 100 * dTotal before after < 2 ^ w)
    (fitsU64 : 100 * dTotal before after < 2 ^ 64) :
    Agree w before after ↔ ∀ percent, ¬ (percent * dWhole before after < 100 * dIdle before after ∧
      100 * dIdle before after ≤ percent * (dWhole before after + dGuest before after)) := by
  have whole := (whole_positive_iff before after accounted).mpr moved
  have split := total_is_whole_and_guest before after accounted.toGrows
  rw [← busy_percent_same_iff _ _ _ whole (idle_within_whole before after), ← split]
  have shown := get_cpu_usages_value before after accounted.toGrows
  constructor
  · intro agree
    obtain ⟨third, _⟩ := agree ⟨[0], fun _ => 0⟩ 0 0 ⟨0, 0, 0⟩ [] 0 0 0 [] [] [] GetCpuUsage.loaded rfl
    rw [softwdt3_usage, watchdog_percent before after accounted.toGrows moved wide fits,
      shown GetCpuUsage.loaded whole (by omega)] at third
    have printed := (List.cons.inj (Except.ok.inj third)).1
    exact Int.ofNat_inj.mp (Option.some.inj printed)
  · intro same p t1 t2 cell cells idle total interrupt idles totals interrupts prev one
    rw [softwdt3_usage, softwdt2_usage p one, watchdog_percent before after accounted.toGrows moved wide fits,
      shown prev whole (by omega), same]
    exact ⟨rfl, rfl⟩

-- Half the time idle, half of it user time, none of it for a guest.
def asleep : KCpuStat Nat := ⟨0, 0, 0, 0, 0, 0, 0, 0, 0, 0⟩
def hostBusy : KCpuStat Nat := ⟨100, 0, 0, 100, 0, 0, 0, 0, 0, 0⟩
def guestBusy : KCpuStat Nat := ⟨100, 0, 0, 100, 0, 0, 0, 0, 100, 0⟩

theorem monitors_agree_without_guest : Agree 64 asleep hostBusy := by
  refine (monitors_agree_iff (by decide) asleep hostBusy ⟨?_, by decide, by decide⟩ (by decide) (by decide) (by decide)).mpr ?_
  · constructor <;> decide
  · intro percent
    simp only [dWhole, dGuest, dIdle, asleep, hostBusy]
    omega

theorem monitors_disagree_on_guest : ¬ ∀ before after, Accounted before after → 0 < dTotal before after →
    100 * dTotal before after < 2 ^ 64 → Agree 64 before after := by
  intro claimed
  have grows : Grows asleep guestBusy := by constructor <;> decide
  have agree := claimed asleep guestBusy ⟨grows, by decide, by decide⟩ (by decide) (by decide)
  obtain ⟨third, _⟩ := agree ⟨[0], fun _ => 0⟩ 0 0 ⟨0, 0, 0⟩ [] 0 0 0 [] [] [] GetCpuUsage.loaded rfl
  exact absurd third (by decide +kernel)

end LinuxModule.Softwdt
