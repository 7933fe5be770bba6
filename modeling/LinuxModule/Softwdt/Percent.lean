import LinuxModule.Softwdt.Hotplug

set_option autoImplicit false

namespace LinuxModule.Softwdt

variable {w : Nat} {J : Type}

-- A CPU's counters as they truly are, and as words of w bits keep them.
def stored (w : Nat) (k : KCpuStat Nat) : KCpuStat (BitVec w) where
  user := .ofNat w k.user
  nice := .ofNat w k.nice
  system := .ofNat w k.system
  idle := .ofNat w k.idle
  iowait := .ofNat w k.iowait
  irq := .ofNat w k.irq
  softirq := .ofNat w k.softirq
  steal := .ofNat w k.steal
  guest := .ofNat w k.guest
  guestNice := .ofNat w k.guestNice

def trueTotal (k : KCpuStat Nat) : Nat :=
  k.user + k.nice + k.system + k.idle + k.iowait + k.irq + k.softirq + k.steal + k.guest + k.guestNice

def trueInterrupt (k : KCpuStat Nat) : Nat := k.irq + k.softirq

structure Grows (before after : KCpuStat Nat) : Prop where
  user : before.user ≤ after.user
  nice : before.nice ≤ after.nice
  system : before.system ≤ after.system
  idle : before.idle ≤ after.idle
  iowait : before.iowait ≤ after.iowait
  irq : before.irq ≤ after.irq
  softirq : before.softirq ≤ after.softirq
  steal : before.steal ≤ after.steal
  guest : before.guest ≤ after.guest
  guestNice : before.guestNice ≤ after.guestNice

def dTotal (before after : KCpuStat Nat) : Nat := trueTotal after - trueTotal before
def dIdle (before after : KCpuStat Nat) : Nat := after.idle - before.idle
def dInterrupt (before after : KCpuStat Nat) : Nat := trueInterrupt after - trueInterrupt before

theorem stored_times (k : KCpuStat Nat) :
    cpuTimes (stored w k) = ⟨.ofNat w k.idle, .ofNat w (trueTotal k), .ofNat w (trueInterrupt k)⟩ := by
  simp only [cpuTimes, stored, trueTotal, trueInterrupt, BitVec.ofNat_add]

theorem of_nat_sub (a b : Nat) (le : b ≤ a) : BitVec.ofNat w a - BitVec.ofNat w b = BitVec.ofNat w (a - b) := by
  obtain ⟨more, rfl⟩ := Nat.exists_eq_add_of_le le
  rw [BitVec.ofNat_add, Nat.add_sub_cancel_left, BitVec.add_comm, BitVec.add_sub_cancel]

-- However often the words have wrapped, their differences are the true ones modulo 2^w.
theorem stored_diff (before after : KCpuStat Nat) (grows : Grows before after) :
    (cpuTimes (stored w after)).diff (cpuTimes (stored w before)) =
      ⟨.ofNat w (dIdle before after), .ofNat w (dTotal before after), .ofNat w (dInterrupt before after)⟩ := by
  obtain ⟨user, nice, system, idle, iowait, irq, softirq, steal, guest, guestNice⟩ := grows
  have total : trueTotal before ≤ trueTotal after := by
    simp only [trueTotal]
    omega
  have interrupt : trueInterrupt before ≤ trueInterrupt after := Nat.add_le_add irq softirq
  rw [stored_times, stored_times]
  simp only [CpuTimes.diff, of_nat_sub _ _ idle, of_nat_sub _ _ total, of_nat_sub _ _ interrupt, dIdle, dTotal, dInterrupt]

theorem interrupt_outside_idle (before after : KCpuStat Nat) (grows : Grows before after) :
    dInterrupt before after + dIdle before after ≤ dTotal before after := by
  obtain ⟨user, nice, system, idle, iowait, irq, softirq, steal, guest, guestNice⟩ := grows
  simp only [dInterrupt, dIdle, dTotal, trueTotal, trueInterrupt]
  omega

theorem total_still_iff (before after : KCpuStat Nat) (grows : Grows before after) :
    dTotal before after = 0 ↔ after = before := by
  constructor
  · intro still
    obtain ⟨user, nice, system, idle, iowait, irq, softirq, steal, guest, guestNice⟩ := grows
    cases before
    cases after
    simp only [dTotal, trueTotal] at *
    congr <;> omega
  · rintro rfl
    exact Nat.sub_self _

structure ExactPercent (before after : KCpuStat Nat) (percent : Option (BitVec w × BitVec w)) : Prop where
  figures : 0 < dTotal before after → ∃ usage interrupt, percent = some (usage, interrupt) ∧
    usage.toNat = 100 * (dTotal before after - dIdle before after) / dTotal before after ∧
    interrupt.toNat = 100 * dInterrupt before after / dTotal before after ∧
    interrupt.toNat ≤ usage.toNat ∧ usage.toNat ≤ 100 ∧
    -- Both are printed as longs, and a long of more than seven bits holds 100.
    (7 < w → usage.toInt = usage.toNat ∧ interrupt.toInt = interrupt.toNat)
  silent : percent = none ↔ after = before

theorem share_value (part whole : Nat) (within : part ≤ whole) (fits : 100 * whole < 2 ^ w) :
    ((100 * BitVec.ofNat w part) / BitVec.ofNat w whole).toNat = 100 * part / whole := by
  have product : 100 * BitVec.ofNat w part = BitVec.ofNat w (100 * part) := (BitVec.ofNat_mul ..).symm
  rw [product, BitVec.toNat_udiv, BitVec.toNat_ofNat, BitVec.toNat_ofNat, Nat.mod_eq_of_lt (by omega),
    Nat.mod_eq_of_lt (by omega)]

theorem long_value (wide : 7 < w) (x : BitVec w) (small : x.toNat ≤ 100) : x.toInt = x.toNat := by
  have room : 2 ^ 8 ≤ 2 ^ w := Nat.pow_le_pow_right (by decide) wide
  rw [BitVec.toInt_eq_toNat_cond, if_pos (by omega)]

theorem percent_words (idle total interrupt : Nat) (within : idle ≤ total) (fits : 100 * total < 2 ^ w) :
    CpuTimes.percent (w := w) ⟨.ofNat w idle, .ofNat w total, .ofNat w interrupt⟩ =
      if 0 < total then
        some (100 * .ofNat w (total - idle) / .ofNat w total, 100 * .ofNat w interrupt / .ofNat w total)
      else none := by
  have zero : BitVec.ofNat w total = 0 ↔ total = 0 := by
    rw [← BitVec.toNat_inj, BitVec.toNat_ofNat, Nat.mod_eq_of_lt (by omega)]
    rfl
  rw [CpuTimes.percent, BitVec.mul_comm (.ofNat w interrupt), of_nat_sub _ _ within]
  by_cases positive : 0 < total
  · rw [if_pos positive, if_pos (fun same => absurd (zero.mp same) (by omega))]
  · rw [if_neg positive, if_neg (fun moved => moved (zero.mpr (by omega)))]

theorem percent_exact (before after : KCpuStat Nat) (grows : Grows before after)
    (fits : 100 * dTotal before after < 2 ^ w) :
    ExactPercent before after ((cpuTimes (stored w after)).diff (cpuTimes (stored w before))).percent := by
  have outside := interrupt_outside_idle before after grows
  rw [stored_diff before after grows, percent_words _ _ _ (by omega) fits]
  constructor
  · intro positive
    have usage := share_value (w := w) (dTotal before after - dIdle before after) (dTotal before after) (by omega) fits
    have interrupt := share_value (w := w) (dInterrupt before after) (dTotal before after) (by omega) fits
    have ordered : 100 * dInterrupt before after / dTotal before after ≤
        100 * (dTotal before after - dIdle before after) / dTotal before after := Nat.div_le_div_right (by omega)
    have bounded : 100 * (dTotal before after - dIdle before after) / dTotal before after ≤ 100 :=
      Nat.div_le_of_le_mul (by omega)
    exact ⟨_, _, if_pos positive, usage, interrupt, by omega, by omega,
      fun wide => ⟨long_value wide _ (by omega), long_value wide _ (by omega)⟩⟩
  · rw [← total_still_iff before after grows]
    by_cases positive : 0 < dTotal before after
    · rw [if_pos positive]
      simp [Nat.ne_of_gt positive]
    · rw [if_neg positive]
      simp [Nat.eq_zero_of_not_pos positive]

namespace LoadSoftwdt3

theorem stats_loop_live (op : CpuMetricOperation) (kcpustat : Nat → KCpuStat (BitVec w)) (cpus : List Nat) (cpu : Nat)
    (member : cpu ∈ cpus) (prev next : PrevCpuUsageStats w) (lines : List (UsageLine w))
    (done : cpuStatsLoop op kcpustat cpus prev = .ok (lines, next)) : ∃ cells, prev = .live cells := by
  cases cpus with
  | nil => cases member
  | cons first rest =>
      obtain ⟨saved, read, _⟩ := (except_bind_ok _ _ _).mp done
      cases prev with
      | null => cases read
      | freed => cases read
      | live cells => exact ⟨cells, rfl⟩

theorem calculate_usage_range (kcpustat : Nat → KCpuStat (BitVec w)) (cpus : List Nat) (cells : List (CpuTimes w))
    (lines : List (UsageLine w)) (next : PrevCpuUsageStats w)
    (done : cpuStatsLoop .calculateUsage kcpustat cpus (.live cells) = .ok (lines, next)) :
    lines = cpus.map (usageLine kcpustat cells) := by
  have range : InRange cpus cells := by
    induction cpus generalizing lines with
    | nil => simp [InRange]
    | cons cpu rest ih =>
        obtain ⟨saved, read, done⟩ := (except_bind_ok _ _ _).mp done
        obtain ⟨⟨later, after⟩, ran, same⟩ := (except_bind_ok _ _ _).mp done
        have bound : cpu < cells.length := by
          by_contra outside
          rw [Block.read, List.getElem?_eq_none (by omega)] at read
          cases read
        cases same
        exact List.forall_mem_cons.mpr ⟨bound, ih later ran⟩
  rw [calculate_usage_live kcpustat cpus cells range] at done
  cases done
  rfl

theorem percentages_exact (first second : Env w J) (cpu : Nat) (before after : KCpuStat Nat) (grows : Grows before after)
    (fits : 100 * dTotal before after < 2 ^ w) (storedFirst : first.kcpustat cpu = stored w before)
    (storedSecond : second.kcpustat cpu = stored w after) (prev saved last : PrevCpuUsageStats w)
    (none_yet lines : List (UsageLine w)) (onlineFirst : cpu ∈ first.online) (onlineSecond : cpu ∈ second.online)
    (collected : calculateCpuStats .collectTimings first prev = .ok (none_yet, saved))
    (calculated : calculateCpuStats .calculateUsage second saved = .ok (lines, last)) :
    (∃ line ∈ lines, line.cpu = cpu) ∧ ∀ line ∈ lines, line.cpu = cpu → ExactPercent before after line.percent := by
  obtain ⟨cells, rfl⟩ := stats_loop_live _ _ _ cpu onlineFirst prev saved none_yet collected
  obtain ⟨range, rfl⟩ := collect_timings_range _ _ _ none_yet saved collected
  rw [calculate_usage_range _ _ _ lines last calculated]
  refine ⟨⟨_, List.mem_map_of_mem onlineSecond, rfl⟩, fun line member same => ?_⟩
  obtain ⟨shown, _, rfl⟩ := List.mem_map.mp member
  obtain rfl : shown = cpu := same
  have sample := collect_at first.kcpustat first.online cells shown (range shown onlineFirst)
  rw [if_pos onlineFirst, storedFirst] at sample
  have percent : (usageLine second.kcpustat (collect first.kcpustat first.online cells) shown).percent =
      ((cpuTimes (stored w after)).diff (cpuTimes (stored w before))).percent := by
    rw [← storedSecond]
    simp only [usageLine, usage, List.getD_eq_getElem?_getD, sample, Option.getD_some]
  rw [percent]
  exact percent_exact before after grows fits

-- In words of eight bits: the user time wraps from 255 to 0, the total from 511 to 1.
def atWrap : KCpuStat Nat := ⟨255, 0, 0, 256, 0, 0, 0, 0, 0, 0⟩
def pastWrap : KCpuStat Nat := ⟨256, 0, 0, 256, 0, 1, 0, 0, 0, 0⟩

theorem wrapped_percentages_exact : ∃ (lines : List (UsageLine 8)), (∃ line ∈ lines, line.cpu = 0) ∧
    ∀ line ∈ lines, line.cpu = 0 → ExactPercent atWrap pastWrap line.percent :=
  ⟨_, percentages_exact (J := Nat) ⟨0, [0], fun _ => stored 8 atWrap⟩ ⟨4000, [0], fun _ => stored 8 pastWrap⟩ 0 atWrap
    pastWrap ⟨by decide, by decide, by decide, by decide, by decide, by decide, by decide, by decide, by decide, by decide⟩
    (by decide) rfl rfl (.live [⟨0, 0, 0⟩]) _ _ _ _ (by decide) (by decide) rfl rfl⟩

end LoadSoftwdt3
end LinuxModule.Softwdt
