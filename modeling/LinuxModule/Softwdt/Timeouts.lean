import LinuxModule.Softwdt.LoadSoftwdt
import LinuxModule.Softwdt.LoadSoftwdt3
import Mathlib.Algebra.Group.Nat.Defs

set_option autoImplicit false

namespace LinuxModule.Softwdt

variable {w : Nat} {J P L : Type} [Add J]

def timeouts (evs : List (Firing w J)) : Nat := evs.countP Firing.isTimeout

omit [Add J] in
theorem timeouts_append (before after : List (Firing w J)) :
    timeouts (before ++ after) = timeouts before + timeouts after := List.countP_append

theorem follows_fire (d : Driver w J P L) (p : Platform J) (delay : UInt32) (policy : Policy)
    (follows : Follows d p delay policy) (m next : Module J P) (e : Firing w J) (out : Output L)
    (done : d.fire m e = .ok (out, next)) :
    next.monitor.timeoutCount = m.monitor.timeoutCount + UInt32.ofNat (timeouts [e]) ∧
      next.monitor.timer = if e.isTimeout = false ∨ policy.rearms next.monitor.timeoutCount then
        ⟨true, e.env.jiffies + p.msecsToJiffies delay⟩ else { m.monitor.timer with pending := false } := by
  cases e with
  | feed env =>
      rw [follows.feed env _ out next done]
      simp [LoadMonitor.afterFeed, timeouts, Firing.isTimeout, Firing.env]
  | timeout env =>
      rw [(follows.timeout env _ out next done).1]
      simp [LoadMonitor.afterTimeout, timeouts, Firing.isTimeout, Firing.env]

theorem count_timeouts (d : Driver w J P L) (p : Platform J) (delay : UInt32) (policy : Policy)
    (follows : Follows d p delay policy) (start : Module J P) (fresh : start.monitor.timeoutCount = 0)
    (evs : List (Firing w J)) (outs : List (Output L)) (m : Module J P) (run : Run d.fire armedGuard start evs outs m) :
    m.monitor.timeoutCount = UInt32.ofNat (timeouts evs) := by
  refine Run.rule d.fire armedGuard start (fun evs _ m => m.monitor.timeoutCount = UInt32.ofNat (timeouts evs))
    (by simpa [timeouts] using fresh) ?_ evs outs m run
  intro evs outs middle e out after counted _ done
  rw [(follows_fire d p delay policy follows middle after e out done).1, counted, timeouts_append,
    UInt32.ofNat_add]

-- Armed once the handler of each event has finished, up to the end of this run.
def ArmedThroughout (d : Driver w J P L) (start : Module J P) (evs : List (Firing w J)) : Prop :=
  ∀ first rest outs middle, evs = first ++ rest → first ≠ [] → Run d.fire armedGuard start first outs middle →
    middle.monitor.timer.pending = true

theorem keep_try_few (n : Nat) (few : n ≤ 10) : keepTry (UInt32.ofNat n) = true := by
  have table : ∀ k, k < 11 → keepTry (UInt32.ofNat k) = true := by decide
  exact table n (Nat.lt_succ_of_le few)

-- The eleventh count falls between the two branches.
theorem armed_iff_few_timeouts (d : Driver w J P L) (p : Platform J) (delay : UInt32)
    (follows : Follows d p delay keepTryPolicy) (start : Module J P) (fresh : start.monitor.timeoutCount = 0)
    (evs : List (Firing w J)) (outs : List (Output L)) (m : Module J P) (run : Run d.fire armedGuard start evs outs m) :
    ArmedThroughout d start evs ↔ timeouts evs ≤ 10 := by
  constructor
  · intro armed
    by_contra many
    obtain ⟨first, e, rest, split, hit, count⟩ := count_passes Firing.isTimeout evs 10 (by simpa [timeouts] using many)
    have whole : evs = (first ++ [e]) ++ rest := by simp [split]
    obtain ⟨outsFirst, middle, prefix_⟩ := Run.before _ _ _ (first ++ [e]) rest outs m (whole ▸ run)
    obtain ⟨_, out, before, _, _, _, done⟩ := Run.last_step _ _ _ _ _ _ _ prefix_
    have eleven : middle.monitor.timeoutCount = UInt32.ofNat 11 := by
      rw [count_timeouts d p delay _ follows start fresh _ _ _ prefix_, timeouts_append]
      simp [timeouts, count, hit]
    have timer := (follows_fire d p delay _ follows before middle e out done).2
    rw [eleven, hit, if_neg (by decide)] at timer
    have still := armed (first ++ [e]) rest outsFirst middle whole (by simp) prefix_
    rw [timer] at still
    cases still
  · rintro few first rest outsFirst middle rfl some_event prefix_
    obtain ⟨before, e, rfl⟩ := (List.eq_nil_or_concat first).resolve_left some_event
    obtain ⟨_, out, earlier, _, _, _, done⟩ := Run.last_step _ _ _ _ before e _ (by simpa using prefix_)
    have timer := (follows_fire d p delay _ follows earlier middle e out done).2
    have counted := count_timeouts d p delay _ follows start fresh _ _ _ prefix_
    rw [timeouts_append] at few
    have rearms : keepTryPolicy.rearms middle.monitor.timeoutCount = true := by
      rw [counted]
      exact keep_try_few _ (by omega)
    rw [timer, if_pos (.inr rearms)]

def KeepsTrying (d : Driver w J P L) (start : Module J P) : Prop :=
  ∀ evs outs m, Run d.fire armedGuard start evs outs m → (ArmedThroughout d start evs ↔ timeouts evs ≤ 10)

theorem keeps_trying_ten_times (p : Platform J) (w : Nat) (jiffies : J) :
    KeepsTrying (LoadSoftwdt.driver (w := w) p) (LoadSoftwdt.init p w jiffies true true true true).2 ∧
      KeepsTrying (LoadSoftwdt2.driver (w := w) p) (LoadSoftwdt2.init p w jiffies true true true true true).2 :=
  ⟨armed_iff_few_timeouts _ p _ (LoadSoftwdt.follows p) _ rfl, armed_iff_few_timeouts _ p _ (LoadSoftwdt2.follows p) _ rfl⟩

def twoCpus : Platform Nat := ⟨[0, 1], UInt32.toNat⟩

def idleEnv (jiffies : Nat) : Env 64 Nat := ⟨jiffies, [0, 1], fun _ => ⟨0, 0, 0, 0, 0, 0, 0, 0, 0, 0⟩⟩

instance {w : Nat} {J P : Type} (m : Module J P) (e : Firing w J) : Decidable (armedGuard m e) :=
  match e with
  | .feed _ => inferInstanceAs (Decidable True)
  | .timeout _ => inferInstanceAs (Decidable (_ = _))

-- One feed, then a feed task that stays away for eleven timeouts.
def stalled : List (Firing 64 Nat) :=
  .feed (idleEnv 0) :: (List.range 11).map fun k => .timeout (idleEnv (12000 * (k + 1)))

omit [Add J] in
theorem disarmed_at_end (d : Driver w J P L) (start : Module J P) (evs : List (Firing w J)) (some_event : evs ≠ [])
    (off : (Run.eval d.fire armedGuard start evs).map (fun result => result.2.monitor.timer.pending) = some false) :
    ¬ ArmedThroughout d start evs := by
  intro armed
  obtain ⟨⟨outs, m⟩, computed, pending⟩ := Option.map_eq_some_iff.mp off
  have still := armed evs [] outs m (by simp) some_event (Run.eval_run _ _ _ _ _ _ computed)
  simp [still] at pending

theorem stalled_silences :
    ¬ ArmedThroughout (LoadSoftwdt.driver (w := 64) twoCpus) (LoadSoftwdt.init twoCpus 64 0 true true true true).2 stalled ∧
      ¬ ArmedThroughout (LoadSoftwdt2.driver (w := 64) twoCpus)
        (LoadSoftwdt2.init twoCpus 64 0 true true true true true).2 stalled :=
  ⟨disarmed_at_end _ _ _ (by simp [stalled]) (by decide +kernel),
    disarmed_at_end _ _ _ (by simp [stalled]) (by decide +kernel)⟩

section Cadence

end Cadence

end LinuxModule.Softwdt
