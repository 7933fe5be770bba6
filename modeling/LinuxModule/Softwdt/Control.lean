import LinuxModule.Softwdt.Monitor

set_option autoImplicit false

namespace LinuxModule.Softwdt

structure Policy where
  reports : UInt32 → Bool
  rearms : UInt32 → Bool

variable {w : Nat} {J P L : Type}

-- timer->expires is set, the timer is not started.
def unarmed [Add J] (p : Platform J) (jiffies : J) (delay : UInt32) : Timer J := ⟨false, jiffies + p.msecsToJiffies delay⟩

-- memset, timer_init and kick_time, the start of every init.
def LoadMonitor.fresh (timer : Timer J) (kickTime : UInt32) (taskWq : Queue) : LoadMonitor J where
  kickTime := kickTime
  delayedWork := none
  wq := .null
  timer := timer
  timeoutCount := 0
  taskWork := false
  taskWq := taskWq

-- The feed work is the same in every version but for its kick.
def feedWith [Add J] (p : Platform J) (kick : Module J P → Except Fault (Module J P)) (env : Env w J) (m : Module J P) :
    Except Fault (Output L × Module J P) := do
  let m ← kick m
  let monitor ← m.monitor.queueDelayedWork (env.jiffies + p.msecsToJiffies m.monitor.kickTime)
  .ok (⟨none, [0]⟩, { m with monitor := monitor })

theorem feed_with_ok [Add J] (p : Platform J) (kick : Module J P → Except Fault (Module J P)) (env : Env w J)
    (m next : Module J P) (out : Output L) (done : feedWith p kick env m = .ok (out, next)) :
    ∃ kicked, kick m = .ok kicked ∧ next = { kicked with
      monitor := { kicked.monitor with
        delayedWork := some (kicked.monitor.delayedWork.getD (env.jiffies + p.msecsToJiffies kicked.monitor.kickTime)) } } := by
  obtain ⟨kicked, ran, rest⟩ := (except_bind_ok _ _ _).mp done
  obtain ⟨monitor, queued, same⟩ := (except_bind_ok _ _ _).mp rest
  cases same
  exact ⟨kicked, ran, by rw [LoadMonitor.queue_delayed_work_ok _ _ _ queued]⟩

theorem feed_with_error [Add J] (p : Platform J) (kick : Module J P → Except Fault (Module J P)) (env : Env w J)
    (m : Module J P) (freed : Prop) (fault : Fault)
    (failed : feedWith (L := L) p kick env m = .error fault) :
    kick m = .error fault ∨ ∃ kicked, kick m = .ok kicked ∧ Blame kicked.monitor.wq freed fault := by
  rcases (except_bind_error _ _ _).mp failed with kicking | ⟨kicked, ran, failed⟩
  · exact .inl kicking
  · rcases (except_bind_error _ _ _).mp failed with queueing | ⟨_, _, impossible⟩
    · exact .inr ⟨kicked, ran, LoadMonitor.queue_delayed_work_error _ _ _ _ queueing⟩
    · cases impossible

namespace LoadMonitor

variable [Add J]

def afterFeed (p : Platform J) (delay : UInt32) (now : J) (m : LoadMonitor J) : LoadMonitor J :=
  { m with
    timer := ⟨true, now + p.msecsToJiffies delay⟩
    delayedWork := some (m.delayedWork.getD (now + p.msecsToJiffies m.kickTime)) }

def afterTimeout (p : Platform J) (delay : UInt32) (policy : Policy) (now : J) (m : LoadMonitor J) : LoadMonitor J :=
  { m with
    timeoutCount := m.timeoutCount + 1
    taskWork := m.taskWork || policy.reports (m.timeoutCount + 1)
    timer := if policy.rearms (m.timeoutCount + 1) then ⟨true, now + p.msecsToJiffies delay⟩ else m.timer }

end LoadMonitor

-- What the handlers of a version do to the kernel objects.
structure Follows [Add J] (d : Driver w J P L) (p : Platform J) (delay : UInt32) (policy : Policy) : Prop where
  feed : ∀ env m out next, d.feedTask env m = .ok (out, next) →
    next.monitor = m.monitor.afterFeed p delay env.jiffies
  timeout : ∀ env m out next, d.timeout env m = .ok (out, next) →
    next.monitor = m.monitor.afterTimeout p delay policy env.jiffies ∧
      out.report.isSome = policy.reports (m.monitor.timeoutCount + 1)

-- A handler stumbles over a destroyed queue or a freed array only where there is one,
-- and it frees nothing itself.
structure Careful (d : Driver w J P L) (freed : P → Prop) : Prop where
  feedKeeps : ∀ env m out next, d.feedTask env m = .ok (out, next) → (freed next.prev ↔ freed m.prev)
  timeoutKeeps : ∀ env m out next, d.timeout env m = .ok (out, next) → (freed next.prev ↔ freed m.prev)
  feedBlames : ∀ env m fault, d.feedTask env m = .error fault → Blame m.monitor.wq (freed m.prev) fault
  timeoutBlames : ∀ env m fault, d.timeout env m = .error fault → Blame m.monitor.taskWq (freed m.prev) fault

end LinuxModule.Softwdt
