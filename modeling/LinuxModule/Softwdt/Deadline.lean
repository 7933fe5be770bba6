import LinuxModule.Base.Watchdog
import LinuxModule.Softwdt.Timeouts
import Mathlib.Algebra.Order.Ring.Nat

set_option autoImplicit false

namespace LinuxModule.Softwdt

variable {w : Nat} {J P L : Type}

def Firing.tick : Firing w J → Tick J
  | .feed env => .feed env.jiffies
  | .timeout env => .timeout env.jiffies

theorem tick_now (e : Firing w J) : e.tick.now = e.env.jiffies := by
  cases e <;> rfl

theorem tick_is_timeout (e : Firing w J) : e.tick.isTimeout = e.isTimeout := by
  cases e <;> rfl

-- The feed work runs at or after it is due, the timer callback at or after the expiry.
def timedGuard [LE J] (m : Module J P) : Firing w J → Prop
  | .feed env => ∃ due, m.monitor.delayedWork = some due ∧ due ≤ env.jiffies
  | .timeout env => m.monitor.timer.pending = true ∧ m.monitor.timer.expires ≤ env.jiffies

def Overdue (m : Module Nat P) (slack now : Nat) : Prop :=
  ∃ due, m.monitor.delayedWork = some due ∧ due + slack ≤ now

def promptGuard (slack : Nat) (m : Module Nat P) (e : Firing w Nat) : Prop :=
  timedGuard m e ∧ (e.isTimeout = false → ¬ Overdue m slack e.env.jiffies)

instance (m : Module Nat P) (e : Firing w Nat) : Decidable (timedGuard m e) :=
  match e with
  | .feed env => decidable_of_iff (∃ due ∈ m.monitor.delayedWork, due ≤ env.jiffies) Iff.rfl
  | .timeout _ => inferInstanceAs (Decidable (_ ∧ _))

instance (m : Module Nat P) (slack now : Nat) : Decidable (Overdue m slack now) :=
  decidable_of_iff (∃ due ∈ m.monitor.delayedWork, due + slack ≤ now) Iff.rfl

instance (slack : Nat) (m : Module Nat P) (e : Firing w Nat) : Decidable (promptGuard slack m e) :=
  inferInstanceAs (Decidable (_ ∧ (_ → _)))

def LoadMonitor.watchdog (m : LoadMonitor J) : Watchdog J where
  armed := if m.timer.pending then some m.timer.expires else none
  queued := m.delayedWork

def Watches (kickTime : UInt32) (m : Module J P) (d : Watchdog J) : Prop :=
  m.monitor.kickTime = kickTime ∧ m.monitor.watchdog = d

theorem timed_in_time [LE J] (m : Module J P) (e : Firing w J) (timed : timedGuard m e) :
    Watchdog.inTime m.monitor.watchdog e.tick := by
  cases e with
  | feed env => exact timed
  | timeout env => exact ⟨m.monitor.timer.expires, if_pos timed.1, timed.2⟩

theorem prompt_armed (slack : Nat) (m : Module Nat P) (e : Firing w Nat) (allowed : promptGuard slack m e) :
    armedGuard m e := by
  cases e with
  | feed env => trivial
  | timeout env => exact allowed.1.1

theorem on_schedule (period delay : Nat) (shorter : delay < period) (m : Module Nat P) (now : Nat)
    (prompt : ¬ Overdue m (period - delay) now) : Watchdog.OnSchedule period delay m.monitor.watchdog now := by
  intro due queued
  have slack : ¬ due + (period - delay) ≤ now := fun late => prompt ⟨due, queued, late⟩
  omega

theorem prompt_in_time (period delay : Nat) (shorter : delay < period) (m : Module Nat P) (e : Firing w Nat)
    (allowed : promptGuard (period - delay) m e) : Watchdog.prompt period delay m.monitor.watchdog e.tick := by
  refine ⟨timed_in_time m e allowed.1, fun feed => ?_⟩
  rw [tick_is_timeout] at feed
  rw [tick_now]
  exact on_schedule period delay shorter m e.env.jiffies (allowed.2 feed)

section Refinement

variable [Add J] (d : Driver w J P L) (p : Platform J) (delay : UInt32) (policy : Policy)
  (follows : Follows d p delay policy) (always : ∀ count, policy.rearms count = true) (kickTime : UInt32)

include follows always

theorem fire_watches (m next : Module J P) (e : Firing w J) (out : Output L) (dog : Watchdog J)
    (watches : Watches kickTime m dog) (done : d.fire m e = .ok (out, next)) :
    ∃ after, Watchdog.step (p.msecsToJiffies delay) (p.msecsToJiffies kickTime) dog e.tick = .ok ((), after) ∧
      Watches kickTime next after := by
  obtain ⟨kick, rfl⟩ := watches
  cases e with
  | feed env =>
      refine ⟨_, rfl, ?_⟩
      rw [Watches, follows.feed env _ out next done]
      exact ⟨kick, by simp [LoadMonitor.watchdog, LoadMonitor.afterFeed, kick]⟩
  | timeout env =>
      refine ⟨_, rfl, ?_⟩
      rw [Watches, (follows.timeout env _ out next done).1]
      exact ⟨kick, by simp [LoadMonitor.watchdog, LoadMonitor.afterTimeout, always]⟩

theorem run_watches (guard : Module J P → Firing w J → Prop) (dogGuard : Watchdog J → Tick J → Prop)
    (allowed : ∀ m e, guard m e → dogGuard m.monitor.watchdog e.tick) (start : Module J P)
    (kick : start.monitor.kickTime = kickTime) (evs : List (Firing w J)) (outs : List (Output L)) (m : Module J P)
    (run : Run d.fire guard start evs outs m) :
    ∃ units, Run (Watchdog.step (p.msecsToJiffies delay) (p.msecsToJiffies kickTime)) dogGuard start.monitor.watchdog
      (evs.map Firing.tick) units m.monitor.watchdog := by
  obtain ⟨units, dog, dogRun, _, same⟩ := Run.simulates d.fire guard
    (Watchdog.step (p.msecsToJiffies delay) (p.msecsToJiffies kickTime)) dogGuard Firing.tick (Watches kickTime) start
    start.monitor.watchdog ⟨kick, rfl⟩ (by
      intro middle now e out after watches guarded done
      obtain ⟨next, stepped, still⟩ := fire_watches d p delay policy follows always kickTime middle after e out now watches done
      exact ⟨watches.2 ▸ allowed middle e guarded, (), next, stepped, still⟩) evs outs m run
  exact ⟨units, same ▸ dogRun⟩

end Refinement

theorem timeouts_tick (evs : List (Firing w J)) : (evs.map Firing.tick).countP Tick.isTimeout = timeouts evs := by
  rw [List.countP_map, timeouts]
  exact congrArg (fun f => evs.countP f) (funext tick_is_timeout)

theorem init_off (p : Platform J) [Add J] (jiffies : J) (wqOk taskWqOk prevOk : Bool) :
    (LoadSoftwdt3.init p w jiffies wqOk taskWqOk prevOk).2.monitor.watchdog.armed = none ∧
      (LoadSoftwdt3.init p w jiffies wqOk taskWqOk prevOk).2.monitor.kickTime = 2000 ∧
      (LoadSoftwdt3.init p w jiffies wqOk taskWqOk prevOk).2.monitor.timeoutCount = 0 := by
  cases wqOk <;> cases taskWqOk <;> cases prevOk <;> exact ⟨rfl, rfl, rfl⟩

theorem no_false_alarm (p : Platform Nat) (w jiffies : Nat) (wqOk taskWqOk prevOk : Bool)
    (shorter : p.msecsToJiffies 2000 < p.msecsToJiffies 4000) :
    (∀ evs env outs m, Run (LoadSoftwdt3.driver (w := w) p).fire timedGuard
      (LoadSoftwdt3.init p w jiffies wqOk taskWqOk prevOk).2 (evs ++ [.timeout env]) outs m →
      ∃ e, evs.getLast? = some e ∧ e.env.jiffies + p.msecsToJiffies 4000 ≤ env.jiffies) ∧
    ∀ evs outs m now, Run (LoadSoftwdt3.driver (w := w) p).fire
      (promptGuard (p.msecsToJiffies 4000 - p.msecsToJiffies 2000))
      (LoadSoftwdt3.init p w jiffies wqOk taskWqOk prevOk).2 evs outs m →
      (evs.Pairwise fun e later => e.env.jiffies ≤ later.env.jiffies) → (∀ e ∈ evs, e.env.jiffies ≤ now) →
      ¬ Overdue m (p.msecsToJiffies 4000 - p.msecsToJiffies 2000) now →
      timeouts evs = 0 ∧ m.monitor.timeoutCount = 0 := by
  obtain ⟨off, kick, fresh⟩ := init_off (w := w) p jiffies wqOk taskWqOk prevOk
  have watched := run_watches (LoadSoftwdt3.driver (w := w) p) p _ _ (LoadSoftwdt3.follows p) (fun _ => rfl) 2000
  constructor
  · intro evs env outs m run
    obtain ⟨units, dogRun⟩ := watched timedGuard Watchdog.inTime timed_in_time _ kick _ outs m run
    rw [List.map_append] at dogRun
    obtain ⟨tick, latest, passed⟩ := Watchdog.timeout_after_period _ _ _ off _ env.jiffies units _ dogRun
    rw [List.getLast?_map] at latest
    obtain ⟨e, last, rfl⟩ := Option.map_eq_some_iff.mp latest
    rw [tick_now] at passed
    exact ⟨e, last, passed⟩
  · intro evs outs m now run clock passed prompt
    obtain ⟨units, dogRun⟩ := watched _ (Watchdog.prompt _ _) (prompt_in_time _ _ shorter) _ kick _ outs m run
    have quiet := Watchdog.prompt_never_times_out _ _ _ off _ units _ dogRun
      (by simpa [List.pairwise_map, tick_now] using clock) now (by simpa [tick_now] using passed)
      (on_schedule _ _ shorter m now prompt)
    rw [timeouts_tick] at quiet
    have armed := Run.weaken _ _ armedGuard (prompt_armed _) _ m evs outs run
    refine ⟨quiet, ?_⟩
    rw [count_timeouts _ p _ _ (LoadSoftwdt3.follows p) _ fresh evs outs m armed, quiet]
    rfl

theorem prompt_feeds_no_alarm : ∃ outs m, Run (LoadSoftwdt3.driver (w := 64) twoCpus).fire (promptGuard 2000)
    (LoadSoftwdt3.init twoCpus 64 0 true true true).2 [.feed (idleEnv 0), .feed (idleEnv 2001)] outs m ∧
    m.monitor.timeoutCount = 0 := by
  have computed : (Run.eval (LoadSoftwdt3.driver (w := 64) twoCpus).fire (promptGuard 2000)
      (LoadSoftwdt3.init twoCpus 64 0 true true true).2 [.feed (idleEnv 0), .feed (idleEnv 2001)]).any
      (fun result => decide (¬ Overdue result.2 2000 2001)) = true := by decide +kernel
  obtain ⟨⟨outs, m⟩, ran, prompt⟩ := (Option.any_eq_true _ _).mp computed
  have run := Run.eval_run _ _ _ m _ outs ran
  have quiet := (no_false_alarm twoCpus 64 0 true true true (by decide)).2 _ outs m 2001 run
    (by simp [idleEnv, Firing.env]) (by simp [idleEnv, Firing.env]) (of_decide_eq_true prompt)
  exact ⟨outs, m, run, quiet.2⟩

end LinuxModule.Softwdt
