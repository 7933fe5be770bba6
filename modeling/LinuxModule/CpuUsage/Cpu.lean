import LinuxModule.Base.Words

set_option autoImplicit false

namespace LinuxModule.Cpu

def pass (idleTime prevIdleTime : UInt64) : Option UInt64 × UInt64 :=
  if prevIdleTime ≠ 0 then (some (100 - (idleTime - prevIdleTime) * 100 / 1000000), idleTime)
  else (none, idleTime)

-- The loop of cpu_usage until kthread_should_stop, from what get_cpu_idle_time_us returns in each pass.
def cpuUsage (prevIdleTime : UInt64) : List UInt64 → List (Option UInt64)
  | [] => []
  | idleTime :: rest => (pass idleTime prevIdleTime).1 :: cpuUsage (pass idleTime prevIdleTime).2 rest

-- A pass as it really goes: the microseconds since the pass before it read the idle
-- time, and the idle time it reads itself.
structure Pass where
  elapsed : Nat
  idleTime : UInt64
deriving DecidableEq

structure Timed (prevIdleTime : UInt64) (p : Pass) : Prop where
  slept : 1000000 ≤ p.elapsed
  grows : prevIdleTime ≤ p.idleTime
  within : p.idleTime.toNat - prevIdleTime.toNat ≤ p.elapsed

def EachPass (P : UInt64 → Pass → Prop) (prevIdleTime : UInt64) : List Pass → Prop
  | [] => True
  | p :: rest => P prevIdleTime p ∧ EachPass P p.idleTime rest

def InRange (printed : List (Option UInt64)) : Prop := ∀ line ∈ printed, ∀ usage ∈ line, usage.toNat ≤ 100

-- A pass after the first that printed, and the idle increase it prints 100 minus the
-- hundredths of a second of: below 1.01 s. The product of both is taken modulo 2^64.
def Punctual (prevIdleTime : UInt64) (p : Pass) : Prop :=
  prevIdleTime ≠ 0 → (p.idleTime.toNat - prevIdleTime.toNat) * 100 % 2 ^ 64 < 101000000

instance (prevIdleTime : UInt64) (p : Pass) : Decidable (Punctual prevIdleTime p) := inferInstanceAs (Decidable (_ → _))

theorem idle_share (prevIdleTime : UInt64) (p : Pass) (grows : prevIdleTime ≤ p.idleTime) :
    ((p.idleTime - prevIdleTime) * 100 / 1000000).toNat =
      (p.idleTime.toNat - prevIdleTime.toNat) * 100 % 2 ^ 64 / 1000000 := by
  rw [UInt64.toNat_div, UInt64.toNat_mul, UInt64.toNat_sub_of_le _ _ grows]
  rfl

theorem pass_in_range_iff (prevIdleTime : UInt64) (p : Pass) (timed : Timed prevIdleTime p) :
    (∀ usage ∈ (pass p.idleTime prevIdleTime).1, usage.toNat ≤ 100) ↔ Punctual prevIdleTime p := by
  by_cases started : prevIdleTime ≠ 0
  · have whole := wrapped_difference_iff 100 ((p.idleTime - prevIdleTime) * 100 / 1000000)
    have hundred : (100 : UInt64).toNat = 100 := rfl
    rw [UInt64.le_iff_toNat_le, idle_share prevIdleTime p timed.grows, hundred] at whole
    rw [pass, if_pos started, Punctual, imp_iff_right started]
    simp only [Option.mem_some_iff, forall_eq']
    rw [whole]
    omega
  · rw [pass, if_neg started]
    simp [Punctual, started]

theorem passes_in_range_iff (prevIdleTime : UInt64) (passes : List Pass) (timed : EachPass Timed prevIdleTime passes) :
    InRange (cpuUsage prevIdleTime (passes.map (·.idleTime))) ↔ EachPass Punctual prevIdleTime passes := by
  induction passes generalizing prevIdleTime with
  | nil => simp [InRange, cpuUsage, EachPass]
  | cons p rest ih =>
      obtain ⟨here, later⟩ := timed
      have kept : (pass p.idleTime prevIdleTime).2 = p.idleTime := by
        rw [pass]
        split <;> rfl
      rw [List.map_cons, cpuUsage, kept, InRange, List.forall_mem_cons]
      exact and_congr (pass_in_range_iff prevIdleTime p here) (ih p.idleTime later)

theorem usage_in_range_iff (first : UInt64) (passes : List Pass) (timed : EachPass Timed first passes) :
    InRange (cpuUsage 0 (first :: passes.map (·.idleTime))) ↔ EachPass Punctual first passes := by
  rw [← passes_in_range_iff first passes timed]
  simp [InRange, cpuUsage, pass]

theorem idle_second_in_range : InRange (cpuUsage 0 [5000000, 6003900]) :=
  (usage_in_range_iff 5000000 [⟨1004000, 6003900⟩] ⟨⟨by decide, by decide, by decide⟩, trivial⟩).mpr
    ⟨by decide, trivial⟩

-- The thread sleeps 20 ms too long on an idle CPU: 100 - 101 is printed.
theorem oversleep_wraps : ¬ ∀ first passes, EachPass Timed first passes →
    InRange (cpuUsage 0 (first :: passes.map (·.idleTime))) := by
  intro claimed
  have timed : EachPass Timed 5000000 [⟨1020000, 6015000⟩] := ⟨⟨by decide, by decide, by decide⟩, trivial⟩
  have inRange := claimed _ _ timed
  exact absurd (inRange (some 18446744073709551615) (by decide) _ rfl) (by decide)

end LinuxModule.Cpu
