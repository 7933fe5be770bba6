import LinuxModule.Base.Runs
import Mathlib.Algebra.Order.Monoid.Defs

set_option autoImplicit false

namespace LinuxModule

-- A watchdog that every event arms anew: when it goes off, and when the feed it
-- waits for is due.
structure Watchdog (J : Type) where
  armed : Option J
  queued : Option J

inductive Tick (J : Type) where
  | feed (now : J)
  | timeout (now : J)

def Tick.now {J : Type} : Tick J → J
  | .feed now => now
  | .timeout now => now

def Tick.isTimeout {J : Type} : Tick J → Bool
  | .feed _ => false
  | .timeout _ => true

namespace Watchdog

variable {J : Type}

def step [Add J] (period delay : J) (d : Watchdog J) : Tick J → Except Empty (Unit × Watchdog J)
  | .feed now => .ok ((), ⟨some (now + period), some (now + delay)⟩)
  | .timeout now => .ok ((), ⟨some (now + period), d.queued⟩)

def inTime [LE J] (d : Watchdog J) : Tick J → Prop
  | .feed now => ∃ due, d.queued = some due ∧ due ≤ now
  | .timeout now => ∃ expiry, d.armed = some expiry ∧ expiry ≤ now

-- The queued feed is less than period - delay behind.
def OnSchedule [Add J] [LT J] (period delay : J) (d : Watchdog J) (now : J) : Prop :=
  ∀ due, d.queued = some due → now + delay < due + period

def prompt [Add J] [LE J] [LT J] (period delay : J) (d : Watchdog J) (e : Tick J) : Prop :=
  inTime d e ∧ (e.isTimeout = false → OnSchedule period delay d e.now)

theorem armed_by_last [Add J] (period delay : J) (guard : Watchdog J → Tick J → Prop) (start : Watchdog J)
    (off : start.armed = none) (evs : List (Tick J)) (outs : List Unit) (last : Watchdog J)
    (run : Run (step period delay) guard start evs outs last) :
    last.armed = evs.getLast?.map fun e => e.now + period := by
  refine Run.rule (step period delay) guard start (fun evs _ last => last.armed = evs.getLast?.map fun e => e.now + period)
    off ?_ evs outs last run
  intro evs outs middle e out after _ _ done
  rw [List.getLast?_concat]
  cases e <;> cases done <;> rfl

theorem timeout_after_period [Add J] [LE J] (period delay : J) (start : Watchdog J) (off : start.armed = none)
    (evs : List (Tick J)) (now : J) (outs : List Unit) (last : Watchdog J)
    (run : Run (step period delay) inTime start (evs ++ [.timeout now]) outs last) :
    ∃ e, evs.getLast? = some e ∧ e.now + period ≤ now := by
  obtain ⟨before, _, middle, _, earlier, ⟨expiry, armed, passed⟩, _⟩ := Run.last_step _ _ _ _ _ _ _ run
  rw [armed_by_last period delay inTime start off evs before middle earlier] at armed
  obtain ⟨e, latest, rfl⟩ := Option.map_eq_some_iff.mp armed
  exact ⟨e, latest, passed⟩

variable [AddCommMonoid J] [LinearOrder J] [IsOrderedCancelAddMonoid J]

-- On schedule at the end means on schedule all along: nothing but a feed changes what
-- is queued, so the induction moves the end back to each event in turn.
theorem prompt_run (period delay : J) (start : Watchdog J) (off : start.armed = none) (evs : List (Tick J))
    (outs : List Unit) (last : Watchdog J) (run : Run (step period delay) (prompt period delay) start evs outs last)
    (clock : evs.Pairwise fun e later => e.now ≤ later.now) (now : J) (passed : ∀ e ∈ evs, e.now ≤ now)
    (schedule : OnSchedule period delay last now) :
    (∀ e ∈ evs, e.isTimeout = false) ∧
      (last.armed = none ∨ ∃ t, last.armed = some (t + period) ∧ last.queued = some (t + delay)) := by
  induction run generalizing now with
  | start => exact ⟨by simp, .inl off⟩
  | next evs outs middle e out after _ allowed done ih =>
      have ordered := List.pairwise_append.mp clock
      have until_now : e.now ≤ now := passed e (by simp)
      have still : OnSchedule period delay middle e.now := by
        cases e with
        | feed t => exact allowed.2 rfl
        | timeout t =>
            cases done
            exact fun due queued => lt_of_le_of_lt (add_le_add_left until_now delay) (schedule due queued)
      obtain ⟨quiet, timer⟩ := ih ordered.1 e.now (fun d member => ordered.2.2 d member e (by simp)) still
      cases e with
      | feed t =>
          cases done
          refine ⟨?_, .inr ⟨t, rfl, rfl⟩⟩
          intro d member
          rcases List.mem_append.mp member with earlier | newest
          · exact quiet d earlier
          · rw [List.mem_singleton.mp newest]
            rfl
      | timeout t =>
          obtain ⟨expiry, armed, expired⟩ := allowed.1
          rcases timer with disarmed | ⟨fed, set, queued⟩
          · rw [disarmed] at armed
            cases armed
          · obtain rfl : fed + period = expiry := Option.some.inj (set.symm.trans armed)
            have early : t + delay < fed + period + delay := by
              have behind := still _ queued
              rwa [add_right_comm] at behind
            exact absurd expired (not_le_of_gt (lt_of_add_lt_add_right early))

theorem prompt_never_times_out (period delay : J) (start : Watchdog J) (off : start.armed = none) (evs : List (Tick J))
    (outs : List Unit) (last : Watchdog J) (run : Run (step period delay) (prompt period delay) start evs outs last)
    (clock : evs.Pairwise fun e later => e.now ≤ later.now) (now : J) (passed : ∀ e ∈ evs, e.now ≤ now)
    (schedule : OnSchedule period delay last now) : evs.countP Tick.isTimeout = 0 := by
  rw [List.countP_eq_zero]
  intro e member
  simp [(prompt_run period delay start off evs outs last run clock now passed schedule).1 e member]

end Watchdog
end LinuxModule
