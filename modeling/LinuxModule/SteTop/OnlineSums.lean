import LinuxModule.SteTop.PerMille

set_option autoImplicit false

namespace LinuxModule.SteTop

def counter (k : KCpuStat UInt64) : Category → UInt64
  | .user => k.user
  | .system => k.system
  | .nice => k.nice
  | .idle => k.idle
  | .iowait => k.iowait
  | .irq => k.irq
  | .softirq => k.softirq
  | .steal => k.steal

theorem fold_cpus_get (cpus : List (KCpuStat UInt64)) (start : AllCpuTime) (c : Category) :
    (cpus.foldl addCpu start).get c = (cpus.map fun k => counter k c).foldl (· + ·) (start.get c) := by
  induction cpus generalizing start with
  | nil => rfl
  | cons k rest ih =>
      rw [List.foldl_cons, ih, List.map_cons, List.foldl_cons]
      cases c <;> rfl

theorem totals_value (cpus : List (KCpuStat UInt64)) (c : Category) :
    (totals cpus).value c = (cpus.map fun k => (counter k c).toNat).sum % 2 ^ 64 := by
  have zero : AllCpuTime.zero.get c = 0 := by cases c <;> rfl
  rw [totals, AllCpuTime.value, fold_cpus_get, uint64_fold_add, zero, List.map_map]
  simp only [UInt64.toNat_zero, Nat.zero_add]
  rfl

-- What a machine shows to successive calls of update_cpu_times: at call n the CPUs that
-- are online, and the counters of every CPU.
structure Machine where
  possible : List Nat
  online : Nat → Nat → Bool
  kcpustat : Nat → Nat → KCpuStat UInt64

namespace Machine

def onlineCpus (m : Machine) (n : Nat) : List Nat := m.possible.filter (m.online n)

def totals (m : Machine) (n : Nat) : AllCpuTime := SteTop.totals ((m.onlineCpus n).map (m.kcpustat n))

def updates (m : Machine) (n : Nat) : W Unit :=
  Walk.forEach (List.range n) fun i => updateCpuTimes ((m.onlineCpus i).map (m.kcpustat i))

def time (m : Machine) (n : Nat) (c : Category) (cpu : Nat) : Nat := (counter (m.kcpustat n cpu) c).toNat

def NonDecreasing (m : Machine) : Prop := ∀ n cpu c, m.time n c cpu ≤ m.time (n + 1) c cpu

def onlineTime (m : Machine) (n : Nat) (c : Category) : Nat := ((m.onlineCpus n).map (m.time n c)).sum

-- No total passes a multiple of 2^64 between call n and the next one.
def NoCarry (m : Machine) (n : Nat) : Prop := ∀ c, m.onlineTime n c / 2 ^ 64 = m.onlineTime (n + 1) c / 2 ^ 64

def cpuIncrease (m : Machine) (n : Nat) (c : Category) : Nat :=
  (m.possible.map fun cpu => m.time (n + 1) c cpu - m.time n c cpu).sum

-- The differences formed after call n + 1, its predecessor being call n.
def Follows (m : Machine) (n : Nat) : Prop :=
  ∀ s after, Walk.final (m.updates (n + 2)) s = .ok after → ∀ c,
    after.oldAllCpuTime.value c ≤ after.newAllCpuTime.value c ∧
      (after.newAllCpuTime.diff after.oldAllCpuTime).value c ≤ m.cpuIncrease n c

theorem updates_run (m : Machine) (n : Nat) (s : Globals) : ∃ after, Walk.final (m.updates n) s = .ok after := by
  induction n with
  | zero => exact ⟨s, rfl⟩
  | succ n ih =>
      obtain ⟨middle, ran⟩ := ih
      rw [updates, List.range_succ]
      exact ⟨_, (Walk.final_for_each_append _ _ _ s _).mpr ⟨middle, ran, rfl⟩⟩

theorem updates_last_two (m : Machine) (n : Nat) (s after : Globals) (ran : Walk.final (m.updates (n + 2)) s = .ok after) :
    after.oldAllCpuTime = m.totals n ∧ after.newAllCpuTime = m.totals (n + 1) := by
  rw [updates, List.range_succ, List.range_succ, List.append_assoc] at ran
  obtain ⟨middle, _, last⟩ := (Walk.final_for_each_append _ _ _ s after).mp ran
  cases last
  exact ⟨rfl, rfl⟩

theorem totals_time (m : Machine) (n : Nat) (c : Category) :
    (m.totals n).value c = m.onlineTime n c % 2 ^ 64 := by
  rw [totals, totals_value, List.map_map]
  rfl

theorem follows_iff (m : Machine) (n : Nat) :
    m.Follows n ↔ ∀ c, (m.totals n).value c ≤ (m.totals (n + 1)).value c ∧
      ((m.totals (n + 1)).diff (m.totals n)).value c ≤ m.cpuIncrease n c := by
  constructor
  · intro follows
    obtain ⟨after, ran⟩ := m.updates_run (n + 2) initial
    obtain ⟨old, new⟩ := m.updates_last_two n initial after ran
    rw [← old, ← new]
    exact follows initial after ran
  · intro holds s after ran
    obtain ⟨old, new⟩ := m.updates_last_two n s after ran
    rw [old, new]
    exact holds

end Machine

theorem sum_le_of_le (cpus : List Nat) (before after : Nat → Nat) (kept : ∀ cpu, before cpu ≤ after cpu) :
    (cpus.map before).sum ≤ (cpus.map after).sum ∧
      (cpus.map after).sum - (cpus.map before).sum = (cpus.map fun cpu => after cpu - before cpu).sum := by
  induction cpus with
  | nil => simp
  | cons cpu rest ih =>
      have here := kept cpu
      simp only [List.map_cons, List.sum_cons]
      omega

theorem sum_filter_le (cpus : List Nat) (mask : Nat → Bool) (f : Nat → Nat) :
    ((cpus.filter mask).map f).sum ≤ (cpus.map f).sum :=
  (List.filter_sublist.map f).sum_le_sum fun _ _ => Nat.zero_le _

theorem same_online_follows (m : Machine) (n : Nat) (kept : m.NonDecreasing) (carry : m.NoCarry n)
    (same : ∀ cpu ∈ m.possible, m.online n cpu = m.online (n + 1) cpu) : m.Follows n := by
  have sameCpus : m.onlineCpus n = m.onlineCpus (n + 1) := List.filter_congr same
  refine (m.follows_iff n).mpr fun c => ?_
  have quotient := carry c
  obtain ⟨below, difference⟩ := sum_le_of_le (m.onlineCpus n) (m.time n c) (m.time (n + 1) c) fun cpu => kept n cpu c
  have later : ((m.onlineCpus n).map (m.time (n + 1) c)).sum = m.onlineTime (n + 1) c := by
    rw [Machine.onlineTime, sameCpus]
  have sooner : ((m.onlineCpus n).map (m.time n c)).sum = m.onlineTime n c := rfl
  rw [later, sooner] at below difference
  have ordered : (m.totals n).value c ≤ (m.totals (n + 1)).value c := by
    rw [m.totals_time, m.totals_time]
    omega
  refine ⟨ordered, ?_⟩
  rw [AllCpuTime.value, diff_get, UInt64.toNat_sub_of_le _ _ (UInt64.le_iff_toNat_le.mpr ordered)]
  calc (m.totals (n + 1)).value c - (m.totals n).value c
      = m.onlineTime (n + 1) c - m.onlineTime n c := by
        rw [m.totals_time, m.totals_time]
        omega
    _ = ((m.onlineCpus n).map fun cpu => m.time (n + 1) c cpu - m.time n c cpu).sum := difference
    _ ≤ m.cpuIncrease n c := sum_filter_le _ _ _

-- One tick of user time on one CPU, and nothing ever moves.
def oneTick (possible : List Nat) (online : Nat → Nat → Bool) (busy : Nat) : Machine where
  possible := possible
  online := online
  kcpustat := fun _ cpu => ⟨if cpu = busy then 1 else 0, 0, 0, 0, 0, 0, 0, 0, 0, 0⟩

theorem tick_sum (cpus : List Nat) (distinct : cpus.Nodup) (busy : Nat) :
    (cpus.map fun cpu => if cpu = busy then 1 else 0).sum = if busy ∈ cpus then 1 else 0 := by
  induction cpus with
  | nil => rfl
  | cons cpu rest ih =>
      obtain ⟨fresh, others⟩ := List.nodup_cons.mp distinct
      rw [List.map_cons, List.sum_cons, ih others]
      by_cases here : cpu = busy
      · subst here
        simp [fresh]
      · simp [here, Ne.symm here]

theorem one_tick_time (possible : List Nat) (online : Nat → Nat → Bool) (busy n : Nat) (c : Category) :
    (oneTick possible online busy).time n c = fun cpu => if c = .user ∧ cpu = busy then 1 else 0 := by
  funext cpu
  by_cases here : cpu = busy <;> cases c <;> simp [Machine.time, oneTick, counter, here]

theorem one_tick_user (possible : List Nat) (distinct : possible.Nodup) (online : Nat → Nat → Bool) (busy : Nat)
    (member : busy ∈ possible) (n : Nat) :
    (oneTick possible online busy).onlineTime n .user = if online n busy then 1 else 0 := by
  have cpus : (oneTick possible online busy).onlineCpus n = possible.filter (online n) := rfl
  rw [Machine.onlineTime, cpus, one_tick_time]
  simp only [true_and, tick_sum _ (distinct.filter _)]
  simp [member]

theorem one_tick_no_carry (possible : List Nat) (distinct : possible.Nodup) (online : Nat → Nat → Bool) (busy : Nat)
    (member : busy ∈ possible) (n : Nat) : (oneTick possible online busy).NoCarry n := by
  have small : ∀ n c, (oneTick possible online busy).onlineTime n c < 2 ^ 64 := by
    intro n c
    cases c with
    | user =>
        rw [one_tick_user possible distinct online busy member]
        split <;> omega
    | _ => simp [Machine.onlineTime, one_tick_time]
  intro c
  rw [Nat.div_eq_of_lt (small n c), Nat.div_eq_of_lt (small (n + 1) c)]

theorem one_tick_follows (possible : List Nat) (distinct : possible.Nodup) (online : Nat → Nat → Bool) (busy n : Nat)
    (member : busy ∈ possible) (follows : (oneTick possible online busy).Follows n) :
    online n busy = online (n + 1) busy := by
  obtain ⟨ordered, bounded⟩ := (Machine.follows_iff _ n).mp follows .user
  have still : (oneTick possible online busy).cpuIncrease n .user = 0 := by simp [Machine.cpuIncrease, Machine.time, oneTick]
  rw [AllCpuTime.value, diff_get, UInt64.toNat_sub_of_le _ _ (UInt64.le_iff_toNat_le.mpr ordered), still] at bounded
  have same : (Machine.totals (oneTick possible online busy) n).value .user =
      (Machine.totals (oneTick possible online busy) (n + 1)).value .user :=
    Nat.le_antisymm ordered (Nat.sub_eq_zero_iff_le.mp (Nat.le_zero.mp bounded))
  rw [Machine.totals_time, Machine.totals_time, one_tick_user possible distinct online busy member,
    one_tick_user possible distinct online busy member] at same
  cases before : online n busy <;> cases after : online (n + 1) busy <;> simp_all

theorem totals_follow_iff (possible : List Nat) (distinct : possible.Nodup) (online : Nat → Nat → Bool) (n : Nat) :
    (∀ kcpustat, Machine.NonDecreasing ⟨possible, online, kcpustat⟩ → Machine.NoCarry ⟨possible, online, kcpustat⟩ n →
      Machine.Follows ⟨possible, online, kcpustat⟩ n) ↔ ∀ cpu ∈ possible, online n cpu = online (n + 1) cpu := by
  constructor
  · intro follows cpu member
    refine one_tick_follows possible distinct online cpu n member (follows _ ?_ ?_)
    · exact fun _ _ _ => Nat.le_refl _
    · exact one_tick_no_carry possible distinct online cpu member n
  · intro same kcpustat kept carry
    exact same_online_follows ⟨possible, online, kcpustat⟩ n kept carry same

def secondLeaves : Nat → Nat → Bool := fun n cpu => cpu = 0 || n = 0

theorem two_cpus_follow_later : Machine.Follows (oneTick [0, 1] secondLeaves 1) 1 :=
  (totals_follow_iff [0, 1] (by decide) secondLeaves 1).mpr (by decide) _ (fun _ _ _ => Nat.le_refl _)
    (one_tick_no_carry [0, 1] (by decide) secondLeaves 1 (by decide) 1)

theorem offline_cpu_breaks_totals : ¬ ∀ (m : Machine) (n : Nat), m.NonDecreasing → m.Follows n := by
  intro claimed
  have follows := claimed (oneTick [0, 1] secondLeaves 1) 0 fun _ _ _ => Nat.le_refl _
  exact absurd (one_tick_follows [0, 1] (by decide) _ 1 0 (by decide) follows) (by decide)

end LinuxModule.SteTop
