import LinuxModule.CpuUsage.Attribution
import LinuxModule.Softwdt.LoadSoftwdt
import LinuxModule.Softwdt.Teardown
import LinuxModule.Softwdt.UsageWork

set_option autoImplicit false

namespace LinuxModule.Softwdt.LoadSoftwdt

variable {J : Type}

-- load_watchdog_exit.
inductive Teardown where
  | stop (step : ExitStep (PrevArrays 64))
  | flushWork

def exit : List Teardown :=
  [.stop .delTimerSync, .stop .cancelDelayedWorkSync, .stop .destroyWorkqueue, .flushWork,
    .stop (.kfree PrevArrays.kfreeIdle), .stop (.kfree PrevArrays.kfreeTotal), .stop (.kfree PrevArrays.kfreeInterrupt)]

inductive Event (J : Type) where
  | fire (firing : Firing 64 J)
  | usage (k : ProcStat.Services)
  | exit

section Machine

variable [Add J] (p : Platform J)

-- The kernel takes the usage work off its queue before it runs.
def step (s : Unloading J (PrevArrays 64)) : Event J → Except Fault (Unit × Unloading J (PrevArrays 64))
  | .fire firing => do
      let (_, current) ← (driver p).fire s.current firing
      .ok ((), { s with current := current })
  | .usage k =>
      match monitor.lines s.current.numCpus k with
      | .error _ => .error .outOfBounds
      | .ok lines => do
          let prev ← touchLines lines s.current.prev
          .ok ((), { s with current := { s.current with
            monitor := { s.current.monitor with taskWork := false }
            prev := prev } })
  | .exit =>
      match exit[s.pc]? with
      | none => .ok ((), s)
      | some (.stop step) => do
          let current ← step.run s.current
          .ok ((), ⟨current, s.pc + 1⟩)
      | some .flushWork => .ok ((), { s with pc := s.pc + 1 })

-- flush_work returns when the work it waits for has run.
def enabled (s : Unloading J (PrevArrays 64)) : Event J → Prop
  | .fire (.feed _) => s.current.monitor.delayedWork.isSome = true
  | .fire (.timeout _) => s.current.monitor.timer.pending = true
  | .usage _ => s.current.monitor.taskWork = true
  | .exit => s.pc < exit.length ∧ (s.pc = 3 → s.current.monitor.taskWork = false)

-- No event that can happen now would queue on a destroyed workqueue, or touch or free an
-- array that has been freed.
def Harmless (s : Unloading J (PrevArrays 64)) : Prop :=
  ∀ e fault, enabled s e → step p s e = .error fault → fault ≠ .destroyedQueue ∧ fault ≠ .afterFree

end Machine

-- Any event but a feed between del_timer_sync and cancel_delayed_work_sync.
def InTime (s : Unloading J (PrevArrays 64)) : Event J → Prop
  | .fire (.feed _) => s.pc ≠ 1
  | _ => True

variable [Add J] (p : Platform J)

theorem feed_task_ok (env : Env 64 J) (m next : Module J (PrevArrays 64)) (out : Output Unit)
    (done : feedTask p env m = .ok (out, next)) :
    next = { m with monitor := m.monitor.afterFeed p defaultTimeout env.jiffies } := by
  obtain ⟨kicked, ran, rfl⟩ := feed_with_ok p (fun m => .ok (kick p env m)) env m next out done
  cases ran
  rfl

theorem feed_task_error (env : Env 64 J) (m : Module J (PrevArrays 64)) (fault : Fault)
    (failed : feedTask p env m = .error fault) : Blame m.monitor.wq False fault := by
  rcases feed_with_error p (fun m => .ok (kick p env m)) env m False fault failed with kicking | ⟨kicked, ran, blame⟩
  · cases kicking
  · cases ran
    exact blame

theorem timeout_ok (env : Env 64 J) (m next : Module J (PrevArrays 64)) (out : Output Unit)
    (done : timeout p env m = .ok (out, next)) :
    next = { m with monitor := m.monitor.afterTimeout p defaultTimeout keepTryPolicy env.jiffies } := by
  have monitor := ((follows p).timeout env m out next done).1
  have rest : next.numCpus = m.numCpus ∧ next.prev = m.prev := by
    cases due : keepTry (m.monitor.timeoutCount + 1) with
    | false =>
        rw [timeout, keep_trying_not_due _ m.countTimeout due] at done
        cases done
        exact ⟨rfl, rfl⟩
    | true =>
        rw [timeout, keep_trying_due _ m.countTimeout due] at done
        obtain ⟨_, _, same⟩ := (except_bind_ok _ _ _).mp done
        cases same
        exact ⟨rfl, rfl⟩
  rw [← monitor, ← rest.1, ← rest.2]

-- The usage work goes to the kernel's own queue, which takes it at any time.
theorem timeout_runs (env : Env 64 J) (m : Module J (PrevArrays 64)) (system : m.monitor.taskWq = .system) :
    ∃ out next, timeout p env m = .ok (out, next) := by
  cases due : keepTry (m.monitor.timeoutCount + 1) with
  | false => exact ⟨_, _, by rw [timeout, keep_trying_not_due _ m.countTimeout due]⟩
  | true =>
      rw [timeout, keep_trying_due _ m.countTimeout due]
      simp [reportAndKick, LoadMonitor.queueWork, Module.countTimeout, system, Queue.accept]

theorem feed_step (env : Env 64 J) (s after : Unloading J (PrevArrays 64)) (done : step p s (.fire (.feed env)) = .ok ((), after)) :
    after = { s with current := { s.current with
      monitor := { s.current.monitor with delayedWork := none }.afterFeed p defaultTimeout env.jiffies } } := by
  obtain ⟨⟨out, current⟩, ran, same⟩ := (except_bind_ok _ _ _).mp done
  cases same
  rw [feed_task_ok p env _ current out ran]

theorem timeout_step (env : Env 64 J) (s after : Unloading J (PrevArrays 64))
    (done : step p s (.fire (.timeout env)) = .ok ((), after)) :
    after = { s with current := { s.current with
      monitor := { s.current.monitor with timer := { s.current.monitor.timer with pending := false } }.afterTimeout p
        defaultTimeout keepTryPolicy env.jiffies } } := by
  obtain ⟨⟨out, current⟩, ran, same⟩ := (except_bind_ok _ _ _).mp done
  cases same
  rw [timeout_ok p env _ current out ran]

theorem usage_step (k : ProcStat.Services) (s after : Unloading J (PrevArrays 64)) (done : step p s (.usage k) = .ok ((), after)) :
    ∃ lines prev, touchLines lines s.current.prev = .ok prev ∧
      after = { s with current := { s.current with monitor := { s.current.monitor with taskWork := false }, prev := prev } } := by
  rw [step] at done
  cases read : monitor.lines s.current.numCpus k with
  | error _ =>
      rw [read] at done
      cases done
  | ok lines =>
      rw [read] at done
      obtain ⟨prev, touched, same⟩ := (except_bind_ok _ _ _).mp done
      cases same
      exact ⟨lines, prev, touched, rfl⟩

theorem kfree_stop_ok (s after : Unloading J (PrevArrays 64)) (release : PrevArrays 64 → Except Fault (PrevArrays 64))
    (at_ : exit[s.pc]? = some (.stop (.kfree release))) (done : step p s .exit = .ok ((), after)) :
    ∃ prev, release s.current.prev = .ok prev ∧ after = ⟨{ s.current with prev := prev }, s.pc + 1⟩ := by
  rw [step, at_] at done
  obtain ⟨current, ran, same⟩ := (except_bind_ok _ _ _).mp done
  obtain ⟨prev, freed, rest⟩ := (except_bind_ok _ _ _).mp ran
  cases rest
  cases same
  exact ⟨prev, freed, rfl⟩

-- Everything a step of load_watchdog_exit can do, by its place in the function.
theorem exit_step (s after : Unloading J (PrevArrays 64)) (allowed : enabled s .exit) (done : step p s .exit = .ok ((), after)) :
    (s.pc = 0 ∧ after = ⟨{ s.current with monitor := { s.current.monitor with
      timer := { s.current.monitor.timer with pending := false } } }, 1⟩) ∨
    (s.pc = 1 ∧ after = ⟨{ s.current with monitor := { s.current.monitor with delayedWork := none } }, 2⟩) ∨
    (s.pc = 2 ∧ ∃ wq, after = ⟨{ s.current with monitor := { s.current.monitor with wq := wq } }, 3⟩) ∨
    (s.pc = 3 ∧ s.current.monitor.taskWork = false ∧ after = ⟨s.current, 4⟩) ∨
    (s.pc = 4 ∧ ∃ idle, s.current.prev.idle.kfree = .ok idle ∧
      after = ⟨{ s.current with prev := { s.current.prev with idle := idle } }, 5⟩) ∨
    (s.pc = 5 ∧ ∃ total, after = ⟨{ s.current with prev := { s.current.prev with total := total } }, 6⟩) ∨
    (s.pc = 6 ∧ ∃ interrupt, after = ⟨{ s.current with prev := { s.current.prev with interrupt := interrupt } }, 7⟩) := by
  obtain ⟨current, pc⟩ := s
  obtain ⟨bound, flushed⟩ := allowed
  match pc with
  | 0 =>
      cases done
      exact .inl ⟨rfl, rfl⟩
  | 1 =>
      cases done
      exact .inr (.inl ⟨rfl, rfl⟩)
  | 2 =>
      obtain ⟨_, ran, same⟩ := (except_bind_ok _ _ _).mp done
      obtain ⟨wq, _, rest⟩ := (except_bind_ok _ _ _).mp ran
      cases rest
      cases same
      exact .inr (.inr (.inl ⟨rfl, wq, rfl⟩))
  | 3 =>
      cases done
      exact .inr (.inr (.inr (.inl ⟨rfl, flushed rfl, rfl⟩)))
  | 4 =>
      obtain ⟨_, freed, rfl⟩ := kfree_stop_ok p ⟨current, 4⟩ after PrevArrays.kfreeIdle rfl done
      obtain ⟨idle, gone, same⟩ := (except_bind_ok _ _ _).mp freed
      cases same
      exact .inr (.inr (.inr (.inr (.inl ⟨rfl, idle, gone, rfl⟩))))
  | 5 =>
      obtain ⟨_, freed, rfl⟩ := kfree_stop_ok p ⟨current, 5⟩ after PrevArrays.kfreeTotal rfl done
      obtain ⟨total, _, same⟩ := (except_bind_ok _ _ _).mp freed
      cases same
      exact .inr (.inr (.inr (.inr (.inr (.inl ⟨rfl, total, rfl⟩)))))
  | 6 =>
      obtain ⟨_, freed, rfl⟩ := kfree_stop_ok p ⟨current, 6⟩ after PrevArrays.kfreeInterrupt rfl done
      obtain ⟨interrupt, _, same⟩ := (except_bind_ok _ _ _).mp freed
      cases same
      exact .inr (.inr (.inr (.inr (.inr (.inr ⟨rfl, interrupt, rfl⟩)))))
  | n + 7 => exact absurd bound (by simp [exit])

theorem kfree_error {α : Type} (b : Block α) (fault : Fault) (failed : b.kfree = .error fault) :
    fault = .afterFree ∧ b = .freed := by
  cases b with
  | null => cases failed
  | live cells => cases failed
  | freed => exact ⟨(Except.error.inj failed).symm, rfl⟩

theorem destroy_error (q : Queue) (fault : Fault) (failed : q.destroy = .error fault) :
    fault ≠ .afterFree ∧ (fault = .destroyedQueue → q = .destroyed) := by
  cases q with
  | null =>
      cases failed
      simp
  | destroyed =>
      cases failed
      simp
  | live => cases failed
  | system => cases failed

theorem stop_error (s : Unloading J (PrevArrays 64)) (stop : ExitStep (PrevArrays 64)) (at_ : exit[s.pc]? = some (.stop stop))
    (fault : Fault) (failed : step p s .exit = .error fault) : stop.run s.current = .error fault := by
  rw [step, at_] at failed
  rcases (except_bind_error _ _ _).mp failed with failed | ⟨_, _, impossible⟩
  · exact failed
  · cases impossible

theorem kfree_stop_error (s : Unloading J (PrevArrays 64)) (release : PrevArrays 64 → Except Fault (PrevArrays 64))
    (at_ : exit[s.pc]? = some (.stop (.kfree release))) (fault : Fault) (failed : step p s .exit = .error fault) :
    release s.current.prev = .error fault := by
  rcases (except_bind_error _ _ _).mp (stop_error p s _ at_ fault failed) with failed | ⟨_, _, impossible⟩
  · exact failed
  · cases impossible

theorem kfree_prev_error {α : Type} (b : Block α) (after : Block α → PrevArrays 64) (fault : Fault)
    (failed : (b.kfree >>= fun block => Except.ok (after block)) = .error fault) : fault = .afterFree ∧ b = .freed := by
  rcases (except_bind_error _ _ _).mp failed with failed | ⟨_, _, impossible⟩
  · exact kfree_error b fault failed
  · cases impossible

-- It stumbles over what has been destroyed or freed before.
theorem exit_step_error (s : Unloading J (PrevArrays 64)) (fault : Fault) (failed : step p s .exit = .error fault) :
    (fault = .destroyedQueue → s.pc = 2 ∧ s.current.monitor.wq = .destroyed) ∧
    (fault = .afterFree → s.pc = 4 ∧ s.current.prev.idle = .freed ∨ s.pc = 5 ∧ s.current.prev.total = .freed ∨
      s.pc = 6 ∧ s.current.prev.interrupt = .freed) := by
  obtain ⟨current, pc⟩ := s
  match pc with
  | 0 => cases failed
  | 1 => cases failed
  | 2 =>
      have stopped := stop_error p ⟨current, 2⟩ .destroyWorkqueue rfl fault failed
      rcases (except_bind_error _ _ _).mp stopped with destroying | ⟨_, _, impossible⟩
      · obtain ⟨unfreed, queue⟩ := destroy_error _ fault destroying
        exact ⟨fun blamed => ⟨rfl, queue blamed⟩, fun blamed => absurd blamed unfreed⟩
      · cases impossible
  | 3 => cases failed
  | 4 =>
      have stopped := kfree_stop_error p ⟨current, 4⟩ PrevArrays.kfreeIdle rfl fault failed
      obtain ⟨rfl, gone⟩ := kfree_prev_error current.prev.idle _ fault stopped
      exact ⟨fun blamed => (by cases blamed), fun _ => .inl ⟨rfl, gone⟩⟩
  | 5 =>
      have stopped := kfree_stop_error p ⟨current, 5⟩ PrevArrays.kfreeTotal rfl fault failed
      obtain ⟨rfl, gone⟩ := kfree_prev_error current.prev.total _ fault stopped
      exact ⟨fun blamed => (by cases blamed), fun _ => .inr (.inl ⟨rfl, gone⟩)⟩
  | 6 =>
      have stopped := kfree_stop_error p ⟨current, 6⟩ PrevArrays.kfreeInterrupt rfl fault failed
      obtain ⟨rfl, gone⟩ := kfree_prev_error current.prev.interrupt _ fault stopped
      exact ⟨fun blamed => (by cases blamed), fun _ => .inr (.inr ⟨rfl, gone⟩)⟩
  | n + 7 => cases failed

-- What load_watchdog_exit has undone by now.
structure Torn (s : Unloading J (PrevArrays 64)) : Prop where
  taskWq : s.current.monitor.taskWq = .system
  wq : s.current.monitor.wq = .destroyed → 3 ≤ s.pc
  idle : s.current.prev.idle = .freed → 5 ≤ s.pc
  total : s.current.prev.total = .freed → 6 ≤ s.pc
  interrupt : s.current.prev.interrupt = .freed → 7 ≤ s.pc
  delayedWork : 2 ≤ s.pc → s.current.monitor.delayedWork = none

omit [Add J] in
theorem torn_feeds (s : Unloading J (PrevArrays 64)) (torn : Torn s) (queued : s.current.monitor.delayedWork.isSome = true) :
    s.pc < 2 := by
  by_contra late
  rw [torn.delayedWork (Nat.le_of_not_lt late)] at queued
  cases queued

theorem torn_step (s after : Unloading J (PrevArrays 64)) (torn : Torn s) (e : Event J) (allowed : enabled s e)
    (done : step p s e = .ok ((), after)) : Torn after := by
  cases e with
  | fire firing =>
      cases firing with
      | feed env =>
          have early := torn_feeds s torn allowed
          rw [feed_step p env s after done]
          exact ⟨torn.taskWq, torn.wq, torn.idle, torn.total, torn.interrupt, fun late => absurd late (Nat.not_le_of_lt early)⟩
      | timeout env =>
          rw [timeout_step p env s after done]
          exact ⟨torn.taskWq, torn.wq, torn.idle, torn.total, torn.interrupt, torn.delayedWork⟩
  | usage k =>
      obtain ⟨lines, prev, touched, rfl⟩ := usage_step p k s after done
      rcases touch_ok lines s.current.prev prev touched with rfl | ⟨_, _, _, _, _, _, _, rfl⟩
      · exact ⟨torn.taskWq, torn.wq, torn.idle, torn.total, torn.interrupt, torn.delayedWork⟩
      · exact ⟨torn.taskWq, torn.wq, fun gone => (by cases gone), fun gone => (by cases gone), fun gone => (by cases gone),
          torn.delayedWork⟩
  | exit =>
      obtain ⟨taskWq, wq, idle, total, interrupt, delayedWork⟩ := torn
      rcases exit_step p s after allowed done with
        ⟨pc, rfl⟩ | ⟨pc, rfl⟩ | ⟨pc, _, rfl⟩ | ⟨pc, _, rfl⟩ | ⟨pc, _, _, rfl⟩ | ⟨pc, _, rfl⟩ | ⟨pc, _, rfl⟩ <;>
      constructor <;> grind

-- What it has stopped by now, as long as no feed comes late.
structure Calm (s : Unloading J (PrevArrays 64)) : Prop where
  timer : 1 ≤ s.pc → s.current.monitor.timer.pending = false
  taskWork : 4 ≤ s.pc → s.current.monitor.taskWork = false

theorem calm_step (s after : Unloading J (PrevArrays 64)) (torn : Torn s) (calm : Calm s) (e : Event J) (inTime : InTime s e)
    (allowed : enabled s e) (done : step p s e = .ok ((), after)) : Calm after := by
  cases e with
  | fire firing =>
      have start : s.pc = 0 := by
        cases firing with
        | feed env =>
            have early := torn_feeds s torn allowed
            have outside : s.pc ≠ 1 := inTime
            omega
        | timeout env =>
            by_contra begun
            have armed : s.current.monitor.timer.pending = true := allowed
            rw [calm.timer (Nat.pos_of_ne_zero begun)] at armed
            cases armed
      have same : after.pc = 0 := by
        cases firing with
        | feed env =>
            rw [feed_step p env s after done]
            exact start
        | timeout env =>
            rw [timeout_step p env s after done]
            exact start
      exact ⟨fun begun => absurd begun (by omega), fun late => absurd late (by omega)⟩
  | usage k =>
      obtain ⟨lines, prev, _, rfl⟩ := usage_step p k s after done
      exact ⟨calm.timer, fun _ => rfl⟩
  | exit =>
      obtain ⟨timer, taskWork⟩ := calm
      rcases exit_step p s after allowed done with
        ⟨pc, rfl⟩ | ⟨pc, rfl⟩ | ⟨pc, _, rfl⟩ | ⟨pc, _, rfl⟩ | ⟨pc, _, _, rfl⟩ | ⟨pc, _, rfl⟩ | ⟨pc, _, rfl⟩ <;>
      constructor <;> grind

theorem feed_harmless (s : Unloading J (PrevArrays 64)) (torn : Torn s) (env : Env 64 J) (fault : Fault)
    (allowed : enabled s (.fire (.feed env))) (failed : step p s (.fire (.feed env)) = .error fault) :
    fault ≠ .destroyedQueue ∧ fault ≠ .afterFree := by
  rcases (except_bind_error _ _ _).mp failed with failed | ⟨_, _, impossible⟩
  · obtain ⟨queue, freed⟩ := feed_task_error p env _ fault failed
    have early := torn_feeds s torn allowed
    refine ⟨fun blamed => ?_, fun blamed => freed blamed⟩
    have late := torn.wq (queue blamed)
    omega
  · cases impossible

theorem timeout_harmless (s : Unloading J (PrevArrays 64)) (torn : Torn s) (env : Env 64 J) :
    ∃ after, step p s (.fire (.timeout env)) = .ok ((), after) := by
  obtain ⟨out, next, ran⟩ := timeout_runs p env
    { s.current with monitor := { s.current.monitor with timer := { s.current.monitor.timer with pending := false } } } torn.taskWq
  have fired : (driver p).fire s.current (.timeout env) = .ok (out, next) := ran
  exact ⟨{ s with current := next }, by rw [step, fired]; rfl⟩

theorem calm_harmless (s : Unloading J (PrevArrays 64)) (torn : Torn s) (calm : Calm s) : Harmless p s := by
  intro e fault allowed failed
  cases e with
  | fire firing =>
      cases firing with
      | feed env => exact feed_harmless p s torn env fault allowed failed
      | timeout env =>
          obtain ⟨after, done⟩ := timeout_harmless p s torn env
          cases done.symm.trans failed
  | usage k =>
      have early : s.pc < 4 := by
        by_contra late
        have queued : s.current.monitor.taskWork = true := allowed
        rw [calm.taskWork (Nat.le_of_not_lt late)] at queued
        cases queued
      rw [step] at failed
      cases read : monitor.lines s.current.numCpus k with
      | error _ =>
          rw [read] at failed
          cases failed
          simp
      | ok lines =>
          rw [read] at failed
          rcases (except_bind_error _ _ _).mp failed with failed | ⟨_, _, impossible⟩
          · obtain ⟨queue, freed⟩ := touch_error lines s.current.prev fault failed
            refine ⟨fun blamed => absurd (queue blamed) (by simp), fun blamed => ?_⟩
            rcases freed blamed with gone | gone | gone
            · have late := torn.idle gone
              omega
            · have late := torn.total gone
              omega
            · have late := torn.interrupt gone
              omega
          · cases impossible
  | exit =>
      obtain ⟨queue, freed⟩ := exit_step_error p s fault failed
      refine ⟨fun blamed => ?_, fun blamed => ?_⟩
      · obtain ⟨pc, gone⟩ := queue blamed
        have late := torn.wq gone
        omega
      · rcases freed blamed with ⟨pc, gone⟩ | ⟨pc, gone⟩ | ⟨pc, gone⟩
        · have late := torn.idle gone
          omega
        · have late := torn.total gone
          omega
        · have late := torn.interrupt gone
          omega

-- A module whose init has returned 0.
def loaded (jiffies : J) (idleOk totalOk interruptOk : Bool) : Unloading J (PrevArrays 64) :=
  ⟨(init p 64 jiffies true idleOk totalOk interruptOk).2, 0⟩

theorem torn_loaded (jiffies : J) (idleOk totalOk interruptOk : Bool) : Torn (loaded p jiffies idleOk totalOk interruptOk) := by
  constructor
  all_goals
    unfold loaded init
    split_ifs <;> simp [LoadMonitor.fresh, kzalloc_not_freed]

theorem calm_loaded (jiffies : J) (idleOk totalOk interruptOk : Bool) : Calm (loaded p jiffies idleOk totalOk interruptOk) :=
  ⟨fun begun => absurd begun (by simp [loaded]), fun late => absurd late (by simp [loaded])⟩

instance (s : Unloading J (PrevArrays 64)) (e : Event J) : Decidable (enabled s e) :=
  match e with
  | .fire (.feed _) => inferInstanceAs (Decidable (_ = _))
  | .fire (.timeout _) => inferInstanceAs (Decidable (_ = _))
  | .usage _ => inferInstanceAs (Decidable (_ = _))
  | .exit => inferInstanceAs (Decidable (_ ∧ _))

instance (s : Unloading J (PrevArrays 64)) (e : Event J) : Decidable (InTime s e) :=
  match e with
  | .fire (.feed _) => inferInstanceAs (Decidable (_ ≠ _))
  | .fire (.timeout _) => isTrue trivial
  | .usage _ => isTrue trivial
  | .exit => isTrue trivial

-- Whatever the work and the timer do, in any order with the steps of load_watchdog_exit: if
-- no feed comes between del_timer_sync and cancel_delayed_work_sync, nothing that is freed or
-- destroyed is used, and nothing is left behind that could run.
theorem exit_in_time_harmless (jiffies : J) (idleOk totalOk interruptOk : Bool) (evs : List (Event J)) (outs : List Unit)
    (s : Unloading J (PrevArrays 64)) (run : Run (step p) enabled (loaded p jiffies idleOk totalOk interruptOk) evs outs s)
    (inTime : Run.Always (step p) enabled (loaded p jiffies idleOk totalOk interruptOk) InTime evs) :
    Harmless p s ∧ (s.pc = exit.length → s.Quiet) := by
  obtain ⟨torn, calm⟩ : Torn s ∧ Calm s :=
    Run.always_invariant _ _ _ InTime (fun s => Torn s ∧ Calm s)
      ⟨torn_loaded p jiffies idleOk totalOk interruptOk, calm_loaded p jiffies idleOk totalOk interruptOk⟩
      (fun middle e _ after ⟨torn, calm⟩ inTime allowed done =>
        ⟨torn_step p middle after torn e allowed done, calm_step p middle after torn calm e inTime allowed done⟩) evs outs s run
      inTime
  refine ⟨calm_harmless p s torn calm, fun returned => ?_⟩
  have late : s.pc = 7 := returned
  exact ⟨calm.timer (by omega), torn.delayedWork (by omega), calm.taskWork (by omega)⟩

-- The first feed, and then the whole of load_watchdog_exit.
def unloaded : List (Event Nat) := .fire (.feed (idleEnv 0)) :: List.replicate 7 .exit

theorem exit_in_time_harmless_ex : ∃ outs s, Run (step twoCpus) enabled (loaded twoCpus 0 true true true) unloaded outs s ∧
    s.pc = exit.length ∧ Harmless twoCpus s ∧ s.Quiet := by
  obtain ⟨⟨outs, s⟩, computed, returned⟩ := Option.map_eq_some_iff.mp
    (by decide +kernel : (Run.eval (step twoCpus) enabled (loaded twoCpus 0 true true true) unloaded).map (fun r => r.2.pc) =
      some 7)
  have run := Run.eval_run _ _ _ _ _ _ computed
  obtain ⟨harmless, quiet⟩ := exit_in_time_harmless twoCpus 0 true true true unloaded outs s run
    (Run.check_always _ _ _ _ _ (by decide +kernel))
  exact ⟨outs, s, run, returned, harmless, quiet returned⟩

end LinuxModule.Softwdt.LoadSoftwdt
