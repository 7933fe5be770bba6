import LinuxModule.Softwdt.Control

set_option autoImplicit false

namespace LinuxModule.Softwdt

-- prev_idle, prev_total and prev_interrupt of the first two versions.
structure PrevArrays (w : Nat) where
  idle : Block (BitVec w)
  total : Block (BitVec w)
  interrupt : Block (BitVec w)
deriving DecidableEq

variable {w : Nat} {J : Type}

def PrevArrays.read (prev : PrevArrays w) (cpu : Nat) : Except Fault (CpuTimes w) := do
  let idle ← prev.idle.read cpu
  let total ← prev.total.read cpu
  let interrupt ← prev.interrupt.read cpu
  .ok ⟨idle, total, interrupt⟩

def PrevArrays.write (prev : PrevArrays w) (cpu : Nat) (now : CpuTimes w) : Except Fault (PrevArrays w) := do
  let idle ← prev.idle.write cpu now.idle
  let total ← prev.total.write cpu now.total
  let interrupt ← prev.interrupt.write cpu now.interrupt
  .ok ⟨idle, total, interrupt⟩

def PrevArrays.kfreeIdle (prev : PrevArrays w) : Except Fault (PrevArrays w) := do
  let idle ← prev.idle.kfree
  .ok { prev with idle := idle }

def PrevArrays.kfreeTotal (prev : PrevArrays w) : Except Fault (PrevArrays w) := do
  let total ← prev.total.kfree
  .ok { prev with total := total }

def PrevArrays.kfreeInterrupt (prev : PrevArrays w) : Except Fault (PrevArrays w) := do
  let interrupt ← prev.interrupt.kfree
  .ok { prev with interrupt := interrupt }

def PrevArrays.Freed (prev : PrevArrays w) : Prop :=
  prev.idle = .freed ∨ prev.total = .freed ∨ prev.interrupt = .freed

theorem prev_arrays_read_error (prev : PrevArrays w) (cpu : Nat) (queue : Queue) (fault : Fault)
    (failed : prev.read cpu = .error fault) : Blame queue prev.Freed fault := by
  rcases (except_bind_error _ _ _).mp failed with idle | ⟨_, _, failed⟩
  · exact (block_read_error _ _ queue _ idle).imp_right fun blamed gone => .inl (blamed gone)
  · rcases (except_bind_error _ _ _).mp failed with total | ⟨_, _, failed⟩
    · exact (block_read_error _ _ queue _ total).imp_right fun blamed gone => .inr (.inl (blamed gone))
    · rcases (except_bind_error _ _ _).mp failed with interrupt | ⟨_, _, impossible⟩
      · exact (block_read_error _ _ queue _ interrupt).imp_right fun blamed gone => .inr (.inr (blamed gone))
      · cases impossible

theorem prev_arrays_write_ok (prev next : PrevArrays w) (cpu : Nat) (now : CpuTimes w)
    (done : prev.write cpu now = .ok next) :
    ∃ idle total interrupt, prev = ⟨.live idle, .live total, .live interrupt⟩ ∧
      next = ⟨.live (idle.set cpu now.idle), .live (total.set cpu now.total), .live (interrupt.set cpu now.interrupt)⟩ ∧
      cpu < idle.length ∧ cpu < total.length ∧ cpu < interrupt.length := by
  obtain ⟨idleBlock, idleStored, done⟩ := (except_bind_ok _ _ _).mp done
  obtain ⟨totalBlock, totalStored, done⟩ := (except_bind_ok _ _ _).mp done
  obtain ⟨interruptBlock, interruptStored, same⟩ := (except_bind_ok _ _ _).mp done
  obtain ⟨idle, idleLive, rfl, idleBound⟩ := block_write_ok _ _ _ _ idleStored
  obtain ⟨total, totalLive, rfl, totalBound⟩ := block_write_ok _ _ _ _ totalStored
  obtain ⟨interrupt, interruptLive, rfl, interruptBound⟩ := block_write_ok _ _ _ _ interruptStored
  cases prev
  cases idleLive
  cases totalLive
  cases interruptLive
  exact ⟨idle, total, interrupt, rfl, (Except.ok.inj same).symm, idleBound, totalBound, interruptBound⟩

theorem prev_arrays_write_error (prev : PrevArrays w) (cpu : Nat) (now : CpuTimes w) (queue : Queue) (fault : Fault)
    (failed : prev.write cpu now = .error fault) : Blame queue prev.Freed fault := by
  rcases (except_bind_error _ _ _).mp failed with idle | ⟨_, _, failed⟩
  · exact (block_write_error _ _ _ queue _ idle).imp_right fun blamed gone => .inl (blamed gone)
  · rcases (except_bind_error _ _ _).mp failed with total | ⟨_, _, failed⟩
    · exact (block_write_error _ _ _ queue _ total).imp_right fun blamed gone => .inr (.inl (blamed gone))
    · rcases (except_bind_error _ _ _).mp failed with interrupt | ⟨_, _, impossible⟩
      · exact (block_write_error _ _ _ queue _ interrupt).imp_right fun blamed gone => .inr (.inr (blamed gone))
      · cases impossible

def kzallocCpus (w numCpus : Nat) (ok : Bool) : Block (BitVec w) :=
  if ok then .live (List.replicate numCpus 0) else .null

-- The shape of the first two versions' timeout: the same body in two branches, and
-- nothing at the other counts.
def keepTrying {P L : Type} (body : Module J P → Except Fault (Output L × Module J P)) (m : Module J P) :
    Except Fault (Output L × Module J P) :=
  let count := m.monitor.timeoutCount
  if count < 10 then body m
  else if count % 10 = 0 then body m
  else .ok (⟨none, []⟩, m)

def keepTry (count : UInt32) : Bool := count < 10 || count % 10 = 0

def keepTryPolicy : Policy := ⟨keepTry, keepTry⟩

theorem keep_trying_due {P L : Type} (body : Module J P → Except Fault (Output L × Module J P)) (m : Module J P)
    (due : keepTry m.monitor.timeoutCount = true) : keepTrying body m = body m := by
  by_cases few : m.monitor.timeoutCount < 10
  · rw [keepTrying, if_pos few]
  · have tenth : m.monitor.timeoutCount % 10 = 0 := by
      have either : m.monitor.timeoutCount < 10 ∨ m.monitor.timeoutCount % 10 = 0 := by simpa [keepTry] using due
      exact either.resolve_left few
    rw [keepTrying, if_neg few, if_pos tenth]

theorem keep_trying_not_due {P L : Type} (body : Module J P → Except Fault (Output L × Module J P)) (m : Module J P)
    (idle : keepTry m.monitor.timeoutCount = false) : keepTrying body m = .ok (⟨none, []⟩, m) := by
  have neither : ¬ m.monitor.timeoutCount < 10 ∧ ¬ m.monitor.timeoutCount % 10 = 0 := by simpa [keepTry] using idle
  rw [keepTrying, if_neg neither.1, if_neg neither.2]

namespace LoadSoftwdt2

def defaultTimeout : UInt32 := 4000
def defaultKickTime : UInt32 := 2000

abbrev Out (w : Nat) := Output (List (CpuUsage w))

def statisticsLoop (kcpustat : Nat → KCpuStat (BitVec w)) : List Nat → PrevArrays w → Except Fault (PrevArrays w)
  | [], prev => .ok prev
  | cpu :: rest, prev => do
      let prev ← prev.write cpu (cpuTimes (kcpustat cpu))
      statisticsLoop kcpustat rest prev

def usageLoop (kcpustat : Nat → KCpuStat (BitVec w)) (prev : PrevArrays w) : List Nat → Except Fault (List (CpuUsage w))
  | [] => .ok []
  | cpu :: rest => do
      let saved ← prev.read cpu
      let lines ← usageLoop kcpustat prev rest
      .ok (⟨cpu, ((cpuTimes (kcpustat cpu)).diff saved).percent⟩ :: lines)

theorem statistics_loop_ok (kcpustat : Nat → KCpuStat (BitVec w)) (cpus : List Nat) (prev next : PrevArrays w)
    (done : statisticsLoop kcpustat cpus prev = .ok next) : next.Freed ↔ prev.Freed := by
  induction cpus generalizing prev with
  | nil =>
      cases done
      rfl
  | cons cpu rest ih =>
      obtain ⟨written, stored, ran⟩ := (except_bind_ok _ _ _).mp done
      obtain ⟨idle, total, interrupt, rfl, rfl, _⟩ := prev_arrays_write_ok _ _ _ _ stored
      rw [ih _ ran]
      simp [PrevArrays.Freed]

theorem statistics_loop_error (kcpustat : Nat → KCpuStat (BitVec w)) (cpus : List Nat) (prev : PrevArrays w)
    (queue : Queue) (fault : Fault) (failed : statisticsLoop kcpustat cpus prev = .error fault) :
    Blame queue prev.Freed fault := by
  induction cpus generalizing prev with
  | nil => cases failed
  | cons cpu rest ih =>
      rcases (except_bind_error _ _ _).mp failed with unwritten | ⟨written, stored, later⟩
      · exact prev_arrays_write_error _ _ _ _ _ unwritten
      · obtain ⟨idle, total, interrupt, rfl, rfl, _⟩ := prev_arrays_write_ok _ _ _ _ stored
        simpa [Blame, PrevArrays.Freed] using ih _ later

theorem usage_loop_error (kcpustat : Nat → KCpuStat (BitVec w)) (prev : PrevArrays w) (cpus : List Nat)
    (queue : Queue) (fault : Fault) (failed : usageLoop kcpustat prev cpus = .error fault) :
    Blame queue prev.Freed fault := by
  induction cpus with
  | nil => cases failed
  | cons cpu rest ih =>
      rcases (except_bind_error _ _ _).mp failed with unread | ⟨_, _, failed⟩
      · exact prev_arrays_read_error _ _ _ _ unread
      · rcases (except_bind_error _ _ _).mp failed with later | ⟨_, _, impossible⟩
        · exact ih later
        · cases impossible

variable (p : Platform J)

def statisticsCpuTime (env : Env w J) (prev : PrevArrays w) : Except Fault (PrevArrays w) :=
  statisticsLoop env.kcpustat p.possible prev

def calculateCpuUsage (env : Env w J) (prev : PrevArrays w) : Except Fault (List (CpuUsage w)) :=
  usageLoop env.kcpustat prev p.possible

variable [Add J]

def kick (env : Env w J) (m : Module J (PrevArrays w)) : Except Fault (Module J (PrevArrays w)) := do
  let prev ← statisticsCpuTime p env m.prev
  .ok { m with prev := prev, monitor := m.monitor.modTimer (env.jiffies + p.msecsToJiffies defaultTimeout) }

-- calculate_cpu_usage, queue_work_on(1, ...) and the kick: the body of both branches.
def reportAndKick (env : Env w J) (m : Module J (PrevArrays w)) : Except Fault (Out w × Module J (PrevArrays w)) := do
  let lines ← calculateCpuUsage p env m.prev
  let monitor ← m.monitor.queueWork
  let m ← kick p env { m with monitor := monitor }
  .ok (⟨some lines, [1]⟩, m)

def timeout (env : Env w J) (m : Module J (PrevArrays w)) : Except Fault (Out w × Module J (PrevArrays w)) :=
  keepTrying (reportAndKick p env) m.countTimeout

def feedTask (env : Env w J) (m : Module J (PrevArrays w)) : Except Fault (Out w × Module J (PrevArrays w)) :=
  feedWith p (kick p env) env m

def timerInit (jiffies : J) (delay : UInt32) : Timer J := unarmed p jiffies delay

def init (w : Nat) (jiffies : J) (wqOk taskWqOk idleOk totalOk interruptOk : Bool) : Int × Module J (PrevArrays w) :=
  let monitor := LoadMonitor.fresh (timerInit p jiffies defaultTimeout) defaultKickTime .null
  if wqOk then
    let monitor := { monitor with wq := .live }
    if taskWqOk then
      let monitor := { monitor with taskWq := .live }
      let numCpus := p.possible.length
      let prev : PrevArrays w := ⟨kzallocCpus w numCpus idleOk, kzallocCpus w numCpus totalOk, kzallocCpus w numCpus interruptOk⟩
      if idleOk && totalOk && interruptOk then (0, ⟨{ monitor with delayedWork := some jiffies }, numCpus, prev⟩)
      else (0, ⟨monitor, numCpus, prev⟩)
    else (-1, ⟨monitor, 0, ⟨.null, .null, .null⟩⟩)
  else (-1, ⟨monitor, 0, ⟨.null, .null, .null⟩⟩)

def exit (w : Nat) : List (ExitStep (PrevArrays w)) :=
  [.delTimerSync, .cancelDelayedWorkSync, .cancelWorkSync, .destroyWorkqueue, .destroyTaskWorkqueue, .kfree PrevArrays.kfreeIdle,
    .kfree PrevArrays.kfreeTotal, .kfree PrevArrays.kfreeInterrupt]

def driver : Driver w J (PrevArrays w) (List (CpuUsage w)) := ⟨feedTask p, timeout p⟩

theorem kick_ok (env : Env w J) (m next : Module J (PrevArrays w)) (done : kick p env m = .ok next) :
    statisticsCpuTime p env m.prev = .ok next.prev ∧
      next.monitor = m.monitor.modTimer (env.jiffies + p.msecsToJiffies defaultTimeout) := by
  obtain ⟨prev, collected, same⟩ := (except_bind_ok _ _ _).mp done
  obtain rfl := Except.ok.inj same
  exact ⟨collected, rfl⟩

theorem kick_error (env : Env w J) (m : Module J (PrevArrays w)) (queue : Queue) (fault : Fault)
    (failed : kick p env m = .error fault) : Blame queue m.prev.Freed fault := by
  rcases (except_bind_error _ _ _).mp failed with collecting | ⟨_, _, impossible⟩
  · exact statistics_loop_error _ _ _ _ _ collecting
  · cases impossible

theorem feed_task_ok (env : Env w J) (m next : Module J (PrevArrays w)) (out : Out w)
    (done : feedTask p env m = .ok (out, next)) :
    statisticsCpuTime p env m.prev = .ok next.prev ∧
      next.monitor = m.monitor.afterFeed p defaultTimeout env.jiffies := by
  obtain ⟨kicked, ran, rfl⟩ := feed_with_ok p (kick p env) env m next out done
  obtain ⟨collected, armed⟩ := kick_ok p env m kicked ran
  refine ⟨collected, ?_⟩
  rw [armed]
  rfl

theorem feed_task_error (env : Env w J) (m : Module J (PrevArrays w)) (fault : Fault)
    (failed : feedTask p env m = .error fault) : Blame m.monitor.wq m.prev.Freed fault := by
  rcases feed_with_error p (kick p env) env m m.prev.Freed fault failed with kicking | ⟨kicked, ran, blamed⟩
  · exact kick_error p env m m.monitor.wq fault kicking
  · obtain ⟨_, armed⟩ := kick_ok p env m kicked ran
    rw [armed] at blamed
    exact blamed

theorem report_and_kick_ok (env : Env w J) (m next : Module J (PrevArrays w)) (out : Out w)
    (done : reportAndKick p env m = .ok (out, next)) :
    ∃ lines, calculateCpuUsage p env m.prev = .ok lines ∧ out.report = some lines ∧
      statisticsCpuTime p env m.prev = .ok next.prev ∧
      next.monitor = { m.monitor with
        taskWork := true
        timer := ⟨true, env.jiffies + p.msecsToJiffies defaultTimeout⟩ } := by
  obtain ⟨lines, calculated, rest⟩ := (except_bind_ok _ _ _).mp done
  obtain ⟨monitor, queued, rest⟩ := (except_bind_ok _ _ _).mp rest
  obtain ⟨kicked, ran, same⟩ := (except_bind_ok _ _ _).mp rest
  obtain ⟨collected, armed⟩ := kick_ok p env _ kicked ran
  cases same
  refine ⟨lines, calculated, rfl, collected, ?_⟩
  rw [armed, LoadMonitor.queue_work_ok _ _ queued]
  rfl

theorem report_and_kick_error (env : Env w J) (m : Module J (PrevArrays w)) (fault : Fault)
    (failed : reportAndKick p env m = .error fault) : Blame m.monitor.taskWq m.prev.Freed fault := by
  rcases (except_bind_error _ _ _).mp failed with calculating | ⟨_, _, failed⟩
  · exact usage_loop_error _ _ _ _ _ calculating
  · rcases (except_bind_error _ _ _).mp failed with queueing | ⟨monitor, _, failed⟩
    · exact LoadMonitor.queue_work_error _ _ _ queueing
    · rcases (except_bind_error _ _ _).mp failed with kicking | ⟨_, _, impossible⟩
      · exact kick_error p env { m with monitor := monitor } m.monitor.taskWq fault kicking
      · cases impossible

theorem timeout_ok (env : Env w J) (m next : Module J (PrevArrays w)) (out : Out w)
    (done : timeout p env m = .ok (out, next)) :
    next.monitor = m.monitor.afterTimeout p defaultTimeout keepTryPolicy env.jiffies ∧
      (keepTry (m.monitor.timeoutCount + 1) = true → statisticsCpuTime p env m.prev = .ok next.prev ∧
        ∃ lines, calculateCpuUsage p env m.prev = .ok lines ∧ out.report = some lines) ∧
      (keepTry (m.monitor.timeoutCount + 1) = false → next.prev = m.prev ∧ out.report = none) := by
  cases due : keepTry (m.monitor.timeoutCount + 1) with
  | false =>
      rw [timeout, keep_trying_not_due _ m.countTimeout due] at done
      cases done
      simp [LoadMonitor.afterTimeout, Module.countTimeout, keepTryPolicy, due]
  | true =>
      rw [timeout, keep_trying_due _ m.countTimeout due] at done
      obtain ⟨lines, calculated, reported, collected, armed⟩ := report_and_kick_ok p env m.countTimeout next out done
      refine ⟨?_, fun _ => ⟨collected, lines, calculated, reported⟩, fun impossible => ?_⟩
      · rw [armed]
        simp [LoadMonitor.afterTimeout, Module.countTimeout, keepTryPolicy, due]
      · cases impossible

theorem timeout_error (env : Env w J) (m : Module J (PrevArrays w)) (fault : Fault)
    (failed : timeout p env m = .error fault) : Blame m.monitor.taskWq m.prev.Freed fault := by
  cases due : keepTry (m.monitor.timeoutCount + 1) with
  | false =>
      rw [timeout, keep_trying_not_due _ m.countTimeout due] at failed
      cases failed
  | true =>
      rw [timeout, keep_trying_due _ m.countTimeout due] at failed
      exact report_and_kick_error p env m.countTimeout fault failed

theorem follows : Follows (driver (w := w) p) p defaultTimeout keepTryPolicy where
  feed env m out next done := (feed_task_ok p env m next out done).2
  timeout env m out next done := by
    obtain ⟨armed, due, idle⟩ := timeout_ok p env m next out done
    refine ⟨armed, ?_⟩
    change out.report.isSome = keepTry (m.monitor.timeoutCount + 1)
    cases reports : keepTry (m.monitor.timeoutCount + 1) with
    | false => simp [(idle reports).2]
    | true =>
        obtain ⟨_, _, _, lines⟩ := due reports
        simp [lines]

theorem careful : Careful (driver (w := w) p) PrevArrays.Freed where
  feedKeeps env m out next done := statistics_loop_ok _ _ _ _ (feed_task_ok p env m next out done).1
  timeoutKeeps env m out next done := by
    obtain ⟨_, due, idle⟩ := timeout_ok p env m next out done
    cases reports : keepTry (m.monitor.timeoutCount + 1) with
    | false => rw [(idle reports).1]
    | true => exact statistics_loop_ok _ _ _ _ (due reports).1
  feedBlames env m fault failed := feed_task_error p env m fault failed
  timeoutBlames env m fault failed := timeout_error p env m fault failed

end LoadSoftwdt2
end LinuxModule.Softwdt
