import LinuxModule.Softwdt.LoadSoftwdt2

set_option autoImplicit false

namespace LinuxModule.Softwdt.LoadSoftwdt

def defaultTimeout : UInt32 := 12000
def defaultKickTime : UInt32 := 10000

variable {w : Nat} {J : Type} [Add J] (p : Platform J)

def kick (env : Env w J) (m : Module J (PrevArrays w)) : Module J (PrevArrays w) :=
  { m with monitor := m.monitor.modTimer (env.jiffies + p.msecsToJiffies defaultTimeout) }

-- The usage is calculated later, by the work item schedule_work puts on the system queue.
def reportAndKick (env : Env w J) (m : Module J (PrevArrays w)) :
    Except Fault (Output Unit × Module J (PrevArrays w)) := do
  let monitor ← m.monitor.queueWork
  .ok (⟨some (), []⟩, kick p env { m with monitor := monitor })

def timeout (env : Env w J) (m : Module J (PrevArrays w)) : Except Fault (Output Unit × Module J (PrevArrays w)) :=
  keepTrying (reportAndKick p env) m.countTimeout

def feedTask (env : Env w J) (m : Module J (PrevArrays w)) : Except Fault (Output Unit × Module J (PrevArrays w)) :=
  feedWith p (fun m => .ok (kick p env m)) env m

def timerInit (jiffies : J) (delay : UInt32) : Timer J := unarmed p jiffies delay

def init (w : Nat) (jiffies : J) (wqOk idleOk totalOk interruptOk : Bool) : Int × Module J (PrevArrays w) :=
  let monitor := LoadMonitor.fresh (timerInit p jiffies defaultTimeout) defaultKickTime .system
  if wqOk then
    let monitor := { monitor with wq := .live }
    let numCpus := p.possible.length
    let prev : PrevArrays w := ⟨kzallocCpus w numCpus idleOk, kzallocCpus w numCpus totalOk, kzallocCpus w numCpus interruptOk⟩
    if idleOk && totalOk && interruptOk then (0, ⟨{ monitor with delayedWork := some jiffies }, numCpus, prev⟩)
    else (0, ⟨monitor, numCpus, prev⟩)
  else (-1, ⟨monitor, 0, ⟨.null, .null, .null⟩⟩)

def driver : Driver w J (PrevArrays w) Unit := ⟨feedTask p, timeout p⟩

theorem follows : Follows (driver (w := w) p) p defaultTimeout keepTryPolicy where
  feed env m out next done := by
    obtain ⟨kicked, ran, rfl⟩ := feed_with_ok p (fun m => .ok (kick p env m)) env m next out done
    cases ran
    rfl
  timeout env m out next done := by
    change _ ∧ out.report.isSome = keepTry (m.monitor.timeoutCount + 1)
    cases due : keepTry (m.monitor.timeoutCount + 1) with
    | false =>
        have stays : timeout p env m = .ok (out, next) := done
        rw [timeout, keep_trying_not_due _ m.countTimeout due] at stays
        cases stays
        simp [LoadMonitor.afterTimeout, Module.countTimeout, keepTryPolicy, due]
    | true =>
        have reports : timeout p env m = .ok (out, next) := done
        rw [timeout, keep_trying_due _ m.countTimeout due] at reports
        obtain ⟨monitor, queued, same⟩ := (except_bind_ok _ _ _).mp reports
        cases same
        rw [LoadMonitor.queue_work_ok _ _ queued]
        simp [LoadMonitor.afterTimeout, LoadMonitor.modTimer, Module.countTimeout, kick, keepTryPolicy, due]

end LinuxModule.Softwdt.LoadSoftwdt
