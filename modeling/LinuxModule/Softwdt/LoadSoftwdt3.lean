import LinuxModule.Softwdt.Control

set_option autoImplicit false

namespace LinuxModule.Softwdt.LoadSoftwdt3

def defaultTimeout : UInt32 := 4000
def defaultKickTime : UInt32 := 2000

inductive CpuMetricOperation where
  | calculateUsage
  | collectTimings
deriving DecidableEq, Repr

structure UsageLine (w : Nat) extends CpuUsage w where
  now : CpuTimes w
  diff : CpuTimes w
deriving DecidableEq

abbrev PrevCpuUsageStats (w : Nat) := Block (CpuTimes w)

abbrev Out (w : Nat) := Output (List (UsageLine w))

variable {w : Nat} {J : Type}

-- The loop of ste_calculate_cpu_stats over the CPUs still ahead.
def cpuStatsLoop (op : CpuMetricOperation) (kcpustat : Nat → KCpuStat (BitVec w)) :
    List Nat → PrevCpuUsageStats w → Except Fault (List (UsageLine w) × PrevCpuUsageStats w)
  | [], prev => .ok ([], prev)
  | cpu :: rest, prev => do
      let now := cpuTimes (kcpustat cpu)
      let saved ← prev.read cpu
      let diff := now.diff saved
      match op with
      | .calculateUsage => do
          let (lines, prev) ← cpuStatsLoop op kcpustat rest prev
          .ok (⟨⟨cpu, diff.percent⟩, now, diff⟩ :: lines, prev)
      | .collectTimings => do
          let prev ← prev.write cpu now
          cpuStatsLoop op kcpustat rest prev

def calculateCpuStats (op : CpuMetricOperation) (env : Env w J) (prev : PrevCpuUsageStats w) :
    Except Fault (List (UsageLine w) × PrevCpuUsageStats w) :=
  cpuStatsLoop op env.kcpustat env.online prev

-- ste_calculate_cpu_stats and queue_work_on(1, ...).
def report (env : Env w J) (m : Module J (PrevCpuUsageStats w)) :
    Except Fault (Out w × Module J (PrevCpuUsageStats w)) := do
  let (lines, prev) ← calculateCpuStats .calculateUsage env m.prev
  let monitor ← m.monitor.queueWork
  .ok (⟨some lines, [1]⟩, { m with prev := prev, monitor := monitor })

-- The two branches of the timeout that report.
def reportByCount (count : UInt32) (env : Env w J) (m : Module J (PrevCpuUsageStats w)) :
    Except Fault (Out w × Module J (PrevCpuUsageStats w)) :=
  if count ≤ 3 then report env m
  else if count % 10 = 1 ∨ count % 10 = 3 ∨ count % 10 = 2 then report env m
  else .ok (⟨none, []⟩, m)

-- Neither operation touches an array that is not there, and only collecting writes.
theorem stats_loop_ok (op : CpuMetricOperation) (kcpustat : Nat → KCpuStat (BitVec w)) (cpus : List Nat)
    (prev next : PrevCpuUsageStats w) (lines : List (UsageLine w))
    (done : cpuStatsLoop op kcpustat cpus prev = .ok (lines, next)) :
    (next = .freed ↔ prev = .freed) ∧ (op = .calculateUsage → next = prev) := by
  induction cpus generalizing prev lines with
  | nil =>
      cases done
      simp
  | cons cpu rest ih =>
      obtain ⟨saved, _, done⟩ := (except_bind_ok _ _ _).mp done
      cases op with
      | calculateUsage =>
          obtain ⟨⟨later, after⟩, ran, same⟩ := (except_bind_ok _ _ _).mp done
          cases same
          exact ih prev later ran
      | collectTimings =>
          obtain ⟨written, stored, ran⟩ := (except_bind_ok _ _ _).mp done
          obtain ⟨cells, rfl, rfl, _⟩ := block_write_ok _ _ _ _ stored
          have kept := (ih _ lines ran).1
          simp only [reduceCtorEq, iff_false] at kept
          simp [kept]

theorem stats_loop_error (op : CpuMetricOperation) (kcpustat : Nat → KCpuStat (BitVec w)) (cpus : List Nat)
    (prev : PrevCpuUsageStats w) (queue : Queue) (fault : Fault)
    (failed : cpuStatsLoop op kcpustat cpus prev = .error fault) : Blame queue (prev = .freed) fault := by
  induction cpus generalizing prev with
  | nil => cases failed
  | cons cpu rest ih =>
      rcases (except_bind_error _ _ _).mp failed with unread | ⟨saved, _, failed⟩
      · exact block_read_error _ _ _ _ unread
      · cases op with
        | calculateUsage =>
            rcases (except_bind_error _ _ _).mp failed with later | ⟨_, _, impossible⟩
            · exact ih prev later
            · cases impossible
        | collectTimings =>
            rcases (except_bind_error _ _ _).mp failed with unwritten | ⟨written, stored, later⟩
            · exact block_write_error _ _ _ _ _ unwritten
            · obtain ⟨cells, rfl, rfl, _⟩ := block_write_ok _ _ _ _ stored
              simpa [Blame] using ih _ later

theorem report_ok (env : Env w J) (m next : Module J (PrevCpuUsageStats w)) (out : Out w)
    (done : report env m = .ok (out, next)) :
    ∃ lines, calculateCpuStats .calculateUsage env m.prev = .ok (lines, m.prev) ∧ out = ⟨some lines, [1]⟩ ∧
      next = { m with monitor := { m.monitor with taskWork := true } } := by
  obtain ⟨⟨lines, prev⟩, calculated, rest⟩ := (except_bind_ok _ _ _).mp done
  obtain ⟨monitor, queued, same⟩ := (except_bind_ok _ _ _).mp rest
  have unchanged : prev = m.prev := (stats_loop_ok _ _ _ _ _ _ calculated).2 rfl
  have asked := LoadMonitor.queue_work_ok _ _ queued
  subst unchanged asked
  cases same
  exact ⟨lines, calculated, rfl, rfl⟩

theorem report_error (env : Env w J) (m : Module J (PrevCpuUsageStats w)) (fault : Fault)
    (failed : report env m = .error fault) : Blame m.monitor.taskWq (m.prev = .freed) fault := by
  rcases (except_bind_error _ _ _).mp failed with calculating | ⟨_, _, failed⟩
  · exact stats_loop_error _ _ _ _ _ _ calculating
  · rcases (except_bind_error _ _ _).mp failed with queueing | ⟨_, _, impossible⟩
    · exact LoadMonitor.queue_work_error _ _ _ queueing
    · cases impossible

def cadence (count : UInt32) : Bool := count ≤ 3 || count % 10 = 1 || count % 10 = 3 || count % 10 = 2

theorem report_by_count_due (count : UInt32) (env : Env w J) (m : Module J (PrevCpuUsageStats w))
    (due : cadence count = true) : reportByCount count env m = report env m := by
  by_cases few : count ≤ 3
  · rw [reportByCount, if_pos few]
  · have branch : count % 10 = 1 ∨ count % 10 = 3 ∨ count % 10 = 2 := by
      simpa [cadence, few, or_assoc] using due
    rw [reportByCount, if_neg few, if_pos branch]

theorem report_by_count_not_due (count : UInt32) (env : Env w J) (m : Module J (PrevCpuUsageStats w))
    (idle : cadence count = false) : reportByCount count env m = .ok (⟨none, []⟩, m) := by
  have neither : ¬ count ≤ 3 ∧ ¬ (count % 10 = 1 ∨ count % 10 = 3 ∨ count % 10 = 2) := by
    simpa [cadence, and_assoc] using idle
  rw [reportByCount, if_neg neither.1, if_neg neither.2]

theorem report_by_count_ok (count : UInt32) (env : Env w J) (m next : Module J (PrevCpuUsageStats w)) (out : Out w)
    (done : reportByCount count env m = .ok (out, next)) :
    next = { m with monitor := { m.monitor with taskWork := m.monitor.taskWork || cadence count } } ∧
      (cadence count = true →
        ∃ lines, calculateCpuStats .calculateUsage env m.prev = .ok (lines, m.prev) ∧ out = ⟨some lines, [1]⟩) ∧
      (cadence count = false → out = ⟨none, []⟩) := by
  cases due : cadence count with
  | false =>
      rw [report_by_count_not_due _ _ _ due] at done
      cases done
      simp
  | true =>
      rw [report_by_count_due _ _ _ due] at done
      obtain ⟨usage, calculated, rfl, rfl⟩ := report_ok env m next out done
      refine ⟨by simp, fun _ => ⟨usage, calculated, rfl⟩, fun impossible => ?_⟩
      cases impossible

theorem report_by_count_error (count : UInt32) (env : Env w J) (m : Module J (PrevCpuUsageStats w)) (fault : Fault)
    (failed : reportByCount count env m = .error fault) : Blame m.monitor.taskWq (m.prev = .freed) fault := by
  cases due : cadence count with
  | false =>
      rw [report_by_count_not_due _ _ _ due] at failed
      cases failed
  | true =>
      rw [report_by_count_due _ _ _ due] at failed
      exact report_error env m fault failed

variable [Add J] (p : Platform J)

def kick (env : Env w J) (m : Module J (PrevCpuUsageStats w)) : Except Fault (Module J (PrevCpuUsageStats w)) := do
  let (_, prev) ← calculateCpuStats .collectTimings env m.prev
  .ok { m with prev := prev, monitor := m.monitor.modTimer (env.jiffies + p.msecsToJiffies defaultTimeout) }

def timeout (env : Env w J) (m : Module J (PrevCpuUsageStats w)) :
    Except Fault (Out w × Module J (PrevCpuUsageStats w)) := do
  let m := m.countTimeout
  let (out, m) ← reportByCount m.monitor.timeoutCount env m
  let m ← kick p env m
  .ok (out, m)

def feedTask (env : Env w J) (m : Module J (PrevCpuUsageStats w)) :
    Except Fault (Out w × Module J (PrevCpuUsageStats w)) :=
  feedWith p (kick p env) env m

def timerInit (jiffies : J) (delay : UInt32) : Timer J := unarmed p jiffies delay

-- The state after each of init's ends: which of its allocations succeeded, in source order.
def init (w : Nat) (jiffies : J) (wqOk taskWqOk prevOk : Bool) : Int × Module J (PrevCpuUsageStats w) :=
  let monitor := LoadMonitor.fresh (timerInit p jiffies defaultTimeout) defaultKickTime .null
  if wqOk then
    let monitor := { monitor with wq := .live }
    if taskWqOk then
      let monitor := { monitor with taskWq := .live }
      let numCpus := p.possible.length
      if prevOk then
        (0, ⟨{ monitor with delayedWork := some jiffies }, numCpus, .live (List.replicate numCpus ⟨0, 0, 0⟩)⟩)
      else (0, ⟨monitor, numCpus, .null⟩)
    else (-1, ⟨monitor, 0, .null⟩)
  else (-1, ⟨monitor, 0, .null⟩)

def exit (w : Nat) : List (ExitStep (PrevCpuUsageStats w)) :=
  [.delTimerSync, .cancelDelayedWorkSync, .cancelWorkSync, .destroyWorkqueue, .destroyTaskWorkqueue, .kfree Block.kfree]

def driver : Driver w J (PrevCpuUsageStats w) (List (UsageLine w)) := ⟨feedTask p, timeout p⟩

theorem kick_ok (env : Env w J) (m next : Module J (PrevCpuUsageStats w)) (done : kick p env m = .ok next) :
    ∃ lines, calculateCpuStats .collectTimings env m.prev = .ok (lines, next.prev) ∧
      next.monitor = m.monitor.modTimer (env.jiffies + p.msecsToJiffies defaultTimeout) := by
  obtain ⟨⟨lines, prev⟩, collected, same⟩ := (except_bind_ok _ _ _).mp done
  obtain rfl := Except.ok.inj same
  exact ⟨lines, collected, rfl⟩

theorem kick_error (env : Env w J) (m : Module J (PrevCpuUsageStats w)) (queue : Queue) (fault : Fault)
    (failed : kick p env m = .error fault) : Blame queue (m.prev = .freed) fault := by
  rcases (except_bind_error _ _ _).mp failed with collecting | ⟨_, _, impossible⟩
  · exact stats_loop_error _ _ _ _ _ _ collecting
  · cases impossible

theorem feed_task_ok (env : Env w J) (m next : Module J (PrevCpuUsageStats w)) (out : Out w)
    (done : feedTask p env m = .ok (out, next)) :
    ∃ lines, calculateCpuStats .collectTimings env m.prev = .ok (lines, next.prev) ∧
      next.monitor = m.monitor.afterFeed p defaultTimeout env.jiffies := by
  obtain ⟨kicked, ran, rfl⟩ := feed_with_ok p (kick p env) env m next out done
  obtain ⟨lines, collected, armed⟩ := kick_ok p env m kicked ran
  refine ⟨lines, collected, ?_⟩
  rw [armed]
  rfl

-- Reports at the first three timeouts and at three of every ten, re-arms at all of them.
def policy : Policy := ⟨cadence, fun _ => true⟩

theorem timeout_ok (env : Env w J) (m next : Module J (PrevCpuUsageStats w)) (out : Out w)
    (done : timeout p env m = .ok (out, next)) :
    (∃ lines, calculateCpuStats .collectTimings env m.prev = .ok (lines, next.prev)) ∧
      next.monitor = m.monitor.afterTimeout p defaultTimeout policy env.jiffies ∧
      (cadence (m.monitor.timeoutCount + 1) = true →
        ∃ lines, calculateCpuStats .calculateUsage env m.prev = .ok (lines, m.prev) ∧ out = ⟨some lines, [1]⟩) ∧
      (cadence (m.monitor.timeoutCount + 1) = false → out = ⟨none, []⟩) := by
  obtain ⟨⟨out', reported⟩, first, rest⟩ := (except_bind_ok _ _ _).mp done
  obtain ⟨kicked, ran, same⟩ := (except_bind_ok _ _ _).mp rest
  obtain ⟨lines, collected, armed⟩ := kick_ok p env reported kicked ran
  obtain ⟨rfl, due, idle⟩ := report_by_count_ok _ env m.countTimeout reported out' first
  cases same
  exact ⟨⟨lines, collected⟩, armed, due, idle⟩

theorem timeout_error (env : Env w J) (m : Module J (PrevCpuUsageStats w)) (fault : Fault)
    (failed : timeout p env m = .error fault) : Blame m.monitor.taskWq (m.prev = .freed) fault := by
  rcases (except_bind_error _ _ _).mp failed with reporting | ⟨⟨out, reported⟩, first, failed⟩
  · exact report_by_count_error _ env m.countTimeout fault reporting
  · have kept : reported.prev = m.prev := by
      rw [(report_by_count_ok _ env m.countTimeout reported out first).1]
      rfl
    rcases (except_bind_error _ _ _).mp failed with kicking | ⟨_, _, impossible⟩
    · exact kept ▸ kick_error p env reported m.monitor.taskWq fault kicking
    · cases impossible

theorem feed_task_error (env : Env w J) (m : Module J (PrevCpuUsageStats w)) (fault : Fault)
    (failed : feedTask p env m = .error fault) : Blame m.monitor.wq (m.prev = .freed) fault := by
  rcases feed_with_error p (kick p env) env m (m.prev = .freed) fault failed with kicking | ⟨kicked, ran, blamed⟩
  · exact kick_error p env m m.monitor.wq fault kicking
  · obtain ⟨_, _, armed⟩ := kick_ok p env m kicked ran
    rw [armed] at blamed
    exact blamed

theorem follows : Follows (driver (w := w) p) p defaultTimeout policy where
  feed env m out next done := by
    obtain ⟨_, _, armed⟩ := feed_task_ok p env m next out done
    exact armed
  timeout env m out next done := by
    obtain ⟨_, armed, due, idle⟩ := timeout_ok p env m next out done
    refine ⟨armed, ?_⟩
    change out.report.isSome = cadence (m.monitor.timeoutCount + 1)
    cases reports : cadence (m.monitor.timeoutCount + 1) with
    | false => simp [idle reports]
    | true =>
        obtain ⟨_, _, lines⟩ := due reports
        simp [lines]

theorem careful : Careful (driver (w := w) p) (fun prev => prev = .freed) where
  feedKeeps env m out next done := by
    obtain ⟨lines, collected, _⟩ := feed_task_ok p env m next out done
    exact (stats_loop_ok _ _ _ _ _ _ collected).1
  timeoutKeeps env m out next done := by
    obtain ⟨⟨lines, collected⟩, _⟩ := timeout_ok p env m next out done
    exact (stats_loop_ok _ _ _ _ _ _ collected).1
  feedBlames env m fault failed := feed_task_error p env m fault failed
  timeoutBlames env m fault failed := timeout_error p env m fault failed

end LinuxModule.Softwdt.LoadSoftwdt3
