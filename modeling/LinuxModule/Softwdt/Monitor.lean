import LinuxModule.Base.Kernel
import LinuxModule.Base.Walk
import LinuxModule.Base.Runs
import Mathlib.Data.List.Basic

set_option autoImplicit false

namespace LinuxModule.Softwdt

inductive Fault where
  | nullPointer
  | outOfBounds
  | afterFree
  | destroyedQueue
deriving DecidableEq, Repr

-- A workqueue the module creates, or the one the kernel always has.
inductive Queue where
  | null
  | live
  | destroyed
  | system
deriving DecidableEq, Repr

def Queue.accept (q : Queue) : Except Fault Unit :=
  match q with
  | .null => .error .nullPointer
  | .destroyed => .error .destroyedQueue
  | .live => .ok ()
  | .system => .ok ()

def Queue.destroy (q : Queue) : Except Fault Queue :=
  match q with
  | .null => .error .nullPointer
  | .destroyed => .error .destroyedQueue
  | .live => .ok .destroyed
  | .system => .ok .system

-- The faults of a teardown that came too early name what they fell over.
def Blame (queue : Queue) (freed : Prop) (fault : Fault) : Prop :=
  (fault = .destroyedQueue → queue = .destroyed) ∧ (fault = .afterFree → freed)

-- A kmalloc'ed array behind a static pointer. kfree does not clear the pointer.
inductive Block (α : Type) where
  | null
  | live (cells : List α)
  | freed
deriving DecidableEq

def Block.read {α : Type} (b : Block α) (i : Nat) : Except Fault α :=
  match b with
  | .null => .error .nullPointer
  | .freed => .error .afterFree
  | .live cells =>
      match cells[i]? with
      | some cell => .ok cell
      | none => .error .outOfBounds

def Block.write {α : Type} (b : Block α) (i : Nat) (cell : α) : Except Fault (Block α) :=
  match b with
  | .null => .error .nullPointer
  | .freed => .error .afterFree
  | .live cells => if i < cells.length then .ok (.live (cells.set i cell)) else .error .outOfBounds

def Block.kfree {α : Type} (b : Block α) : Except Fault (Block α) :=
  match b with
  | .null => .ok .null
  | .live _ => .ok .freed
  | .freed => .error .afterFree

structure Timer (J : Type) where
  pending : Bool
  expires : J
deriving DecidableEq

-- The one struct each module keeps its kernel objects in, under names of its own:
-- softwdt_load_monitor, or g_load_watchdog. delayedWork holds the time it is due
-- while it is queued; taskWork says whether the second work item is queued.
structure LoadMonitor (J : Type) where
  kickTime : UInt32
  delayedWork : Option J
  wq : Queue
  timer : Timer J
  timeoutCount : UInt32
  taskWork : Bool
  taskWq : Queue
deriving DecidableEq

-- The module: that struct, num_cpus, and the arrays of previous samples.
structure Module (J P : Type) where
  monitor : LoadMonitor J
  numCpus : Nat
  prev : P
deriving DecidableEq

def Module.countTimeout {J P : Type} (m : Module J P) : Module J P :=
  { m with monitor := { m.monitor with timeoutCount := m.monitor.timeoutCount + 1 } }

-- What does not change while the machine runs.
structure Platform (J : Type) where
  possible : List Nat
  msecsToJiffies : UInt32 → J

-- What a handler finds when it runs. The counters are unsigned longs of w bits.
structure Env (w : Nat) (J : Type) where
  jiffies : J
  online : List Nat
  kcpustat : Nat → KCpuStat (BitVec w)

-- A handler's report, when it makes one, and the CPUs it queued work on.
structure Output (L : Type) where
  report : Option L
  queuedOn : List Nat
deriving DecidableEq

namespace LoadMonitor

variable {J : Type}

def modTimer (expires : J) (m : LoadMonitor J) : LoadMonitor J := { m with timer := ⟨true, expires⟩ }

-- Queueing work that is queued already changes nothing.
def queueDelayedWork (due : J) (m : LoadMonitor J) : Except Fault (LoadMonitor J) := do
  m.wq.accept
  .ok { m with delayedWork := some (m.delayedWork.getD due) }

def queueWork (m : LoadMonitor J) : Except Fault (LoadMonitor J) := do
  m.taskWq.accept
  .ok { m with taskWork := true }

theorem queue_delayed_work_ok (due : J) (m next : LoadMonitor J) (done : m.queueDelayedWork due = .ok next) :
    next = { m with delayedWork := some (m.delayedWork.getD due) } := by
  obtain ⟨_, _, same⟩ := (except_bind_ok _ _ _).mp done
  exact (Except.ok.inj same).symm

theorem queue_work_ok (m next : LoadMonitor J) (done : m.queueWork = .ok next) : next = { m with taskWork := true } := by
  obtain ⟨_, _, same⟩ := (except_bind_ok _ _ _).mp done
  exact (Except.ok.inj same).symm

theorem accept_error (q : Queue) (freed : Prop) (fault : Fault) (failed : q.accept = .error fault) :
    Blame q freed fault := by
  cases q with
  | null =>
      cases failed
      simp [Blame]
  | destroyed =>
      cases failed
      simp [Blame]
  | live => cases failed
  | system => cases failed

theorem queue_delayed_work_error (due : J) (m : LoadMonitor J) (freed : Prop) (fault : Fault)
    (failed : m.queueDelayedWork due = .error fault) : Blame m.wq freed fault := by
  rcases (except_bind_error _ _ _).mp failed with refused | ⟨_, _, impossible⟩
  · exact accept_error m.wq freed fault refused
  · cases impossible

theorem queue_work_error (m : LoadMonitor J) (freed : Prop) (fault : Fault) (failed : m.queueWork = .error fault) :
    Blame m.taskWq freed fault := by
  rcases (except_bind_error _ _ _).mp failed with refused | ⟨_, _, impossible⟩
  · exact accept_error m.taskWq freed fault refused
  · cases impossible

end LoadMonitor

-- Steps of the exit functions. The *_sync calls wait for a handler that runs, and
-- handlers are atomic here; destroy_workqueue runs what it still holds.
inductive ExitStep (P : Type) where
  | delTimerSync
  | cancelDelayedWorkSync
  | cancelWorkSync
  | destroyWorkqueue
  | destroyTaskWorkqueue
  | kfree (release : P → Except Fault P)

def ExitStep.run {J P : Type} (step : ExitStep P) (m : Module J P) : Except Fault (Module J P) :=
  match step with
  | .delTimerSync => .ok { m with monitor := { m.monitor with timer := { m.monitor.timer with pending := false } } }
  | .cancelDelayedWorkSync => .ok { m with monitor := { m.monitor with delayedWork := none } }
  | .cancelWorkSync => .ok { m with monitor := { m.monitor with taskWork := false } }
  | .destroyWorkqueue => do
      let wq ← m.monitor.wq.destroy
      .ok { m with monitor := { m.monitor with wq := wq } }
  | .destroyTaskWorkqueue => do
      let taskWq ← m.monitor.taskWq.destroy
      .ok { m with monitor := { m.monitor with taskWq := taskWq, taskWork := false } }
  | .kfree release => do
      let prev ← release m.prev
      .ok { m with prev := prev }

theorem block_read_error {α : Type} (b : Block α) (i : Nat) (queue : Queue) (fault : Fault)
    (failed : b.read i = .error fault) : Blame queue (b = .freed) fault := by
  cases b with
  | null =>
      cases failed
      simp [Blame]
  | freed =>
      cases failed
      simp [Blame]
  | live cells =>
      cases access : cells[i]? with
      | none =>
          rw [Block.read, access] at failed
          cases failed
          simp [Blame]
      | some cell =>
          rw [Block.read, access] at failed
          cases failed

theorem block_write_ok {α : Type} (b next : Block α) (i : Nat) (cell : α) (done : b.write i cell = .ok next) :
    ∃ cells, b = .live cells ∧ next = .live (cells.set i cell) ∧ i < cells.length := by
  cases b with
  | null => cases done
  | freed => cases done
  | live cells =>
      by_cases bound : i < cells.length
      · rw [Block.write, if_pos bound] at done
        exact ⟨cells, rfl, (Except.ok.inj done).symm, bound⟩
      · rw [Block.write, if_neg bound] at done
        cases done

theorem block_write_error {α : Type} (b : Block α) (i : Nat) (cell : α) (queue : Queue) (fault : Fault)
    (failed : b.write i cell = .error fault) : Blame queue (b = .freed) fault := by
  cases b with
  | null =>
      cases failed
      simp [Blame]
  | freed =>
      cases failed
      simp [Blame]
  | live cells =>
      by_cases bound : i < cells.length
      · rw [Block.write, if_pos bound] at failed
        cases failed
      · rw [Block.write, if_neg bound] at failed
        cases failed
        simp [Blame]

structure CpuTimes (w : Nat) where
  idle : BitVec w
  total : BitVec w
  interrupt : BitVec w
deriving DecidableEq

def cpuTimes {w : Nat} (k : KCpuStat (BitVec w)) : CpuTimes w where
  idle := k.idle
  total := k.user + k.nice + k.system + k.idle + k.iowait + k.irq + k.softirq + k.steal + k.guest + k.guestNice
  interrupt := k.irq + k.softirq

def CpuTimes.diff {w : Nat} (now prev : CpuTimes w) : CpuTimes w where
  idle := now.idle - prev.idle
  total := now.total - prev.total
  interrupt := now.interrupt - prev.interrupt

-- Usage and interrupt percentage; nothing when diff_total is 0.
def CpuTimes.percent {w : Nat} (diff : CpuTimes w) : Option (BitVec w × BitVec w) :=
  if diff.total ≠ 0 then
    some ((100 * (diff.total - diff.idle)) / diff.total, (diff.interrupt * 100) / diff.total)
  else none

structure CpuUsage (w : Nat) where
  cpu : Nat
  percent : Option (BitVec w × BitVec w)
deriving DecidableEq

-- What the kernel calls into: the feed work and the timer callback.
structure Driver (w : Nat) (J P L : Type) where
  feedTask : Env w J → Module J P → Except Fault (Output L × Module J P)
  timeout : Env w J → Module J P → Except Fault (Output L × Module J P)

inductive Firing (w : Nat) (J : Type) where
  | feed (env : Env w J)
  | timeout (env : Env w J)

def Firing.env {w : Nat} {J : Type} : Firing w J → Env w J
  | .feed env => env
  | .timeout env => env

def Firing.isTimeout {w : Nat} {J : Type} : Firing w J → Bool
  | .feed _ => false
  | .timeout _ => true

-- The kernel takes the work off its queue, or the timer off its list, before the handler runs.
def Driver.fire {w : Nat} {J P L : Type} (d : Driver w J P L) (m : Module J P) :
    Firing w J → Except Fault (Output L × Module J P)
  | .feed env => d.feedTask env { m with monitor := { m.monitor with delayedWork := none } }
  | .timeout env =>
      d.timeout env { m with monitor := { m.monitor with timer := { m.monitor.timer with pending := false } } }

-- A timer callback runs only for an armed timer.
def armedGuard {w : Nat} {J P : Type} (m : Module J P) : Firing w J → Prop
  | .feed _ => True
  | .timeout _ => m.monitor.timer.pending = true

end LinuxModule.Softwdt
