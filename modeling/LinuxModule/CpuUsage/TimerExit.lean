import LinuxModule.Base.Runs
import Mathlib.Data.List.Basic

set_option autoImplicit false

namespace LinuxModule.TimerExit

inductive PrevArray where
  | prevIdle
  | prevTotal
deriving DecidableEq, Repr

inductive CallbackStep where
  | scheduleWork
  | getCpuUsage
  | modTimer
deriving DecidableEq, Repr

inductive ExitStep where
  | delTimer
  | flushWork
  | kfree (array : PrevArray)
deriving DecidableEq, Repr

-- A module with a timer: what its callback and its exit function do, and which
-- arrays its work reads.
structure Program where
  callback : List CallbackStep
  exit : List ExitStep
  workReads : List PrevArray

namespace PerCpuUsage

def cpuTimerCallback : List CallbackStep := [.scheduleWork, .modTimer]
def cpuModuleExit : List ExitStep := [.delTimer, .flushWork, .kfree .prevIdle, .kfree .prevTotal]
def program : Program := ⟨cpuTimerCallback, cpuModuleExit, [.prevIdle, .prevTotal]⟩

end PerCpuUsage

namespace CpuUsage

-- prev_idle and prev_total are static locals of the work here, never freed.
def cpuTimerCallback : List CallbackStep := [.scheduleWork, .modTimer]
def cpuModuleExit : List ExitStep := [.delTimer, .flushWork]
def program : Program := ⟨cpuTimerCallback, cpuModuleExit, []⟩

end CpuUsage

namespace CpuUsage2

def timerCallback : List CallbackStep := [.getCpuUsage, .modTimer]
def cpuUsageExit : List ExitStep := [.delTimer]
def program : Program := ⟨timerCallback, cpuUsageExit, []⟩

end CpuUsage2

inductive Fault where
  | afterFree
deriving DecidableEq, Repr

-- callback and exit hold the steps still to be taken. The runs of the work are numbered:
-- so many were scheduled, started, finished; flushing is the run flush_work waits for.
structure State where
  pending : Bool
  callback : List CallbackStep
  scheduled : Nat
  started : Nat
  finished : Nat
  flushing : Option Nat
  exit : List ExitStep
  freed : List PrevArray
deriving DecidableEq

inductive Event where
  | expire
  | callback
  | workStart
  | workRead (array : PrevArray)
  | workEnd
  | exit
deriving DecidableEq, Repr

-- Init arms the timer, unless an array could not be allocated.
def Program.loaded (p : Program) (armed : Bool) : State := ⟨armed, [], 0, 0, 0, none, p.exit, []⟩

-- Scheduling work that is scheduled already changes nothing.
def CallbackStep.run (s : State) : CallbackStep → State
  | .scheduleWork => { s with scheduled := if s.started < s.scheduled then s.scheduled else s.scheduled + 1 }
  | .getCpuUsage => s
  | .modTimer => { s with pending := true }

def State.step (p : Program) (s : State) : Event → Except Fault (Unit × State)
  | .expire => .ok ((), { s with pending := false, callback := p.callback })
  | .callback =>
      match s.callback with
      | [] => .ok ((), s)
      | step :: rest => .ok ((), step.run { s with callback := rest })
  | .workStart => .ok ((), { s with started := s.started + 1 })
  | .workRead array => if array ∈ s.freed then .error .afterFree else .ok ((), s)
  | .workEnd => .ok ((), { s with finished := s.finished + 1 })
  | .exit =>
      match s.exit with
      | [] => .ok ((), s)
      | .delTimer :: rest => .ok ((), { s with pending := false, exit := rest })
      | .flushWork :: rest =>
          match s.flushing with
          | none => .ok ((), { s with flushing := some s.scheduled })
          | some _ => .ok ((), { s with flushing := none, exit := rest })
      | .kfree array :: rest => .ok ((), { s with freed := array :: s.freed, exit := rest })

-- The timer is off its list before the callback runs, and a work item never runs
-- twice at a time.
def State.enabled (p : Program) (s : State) : Event → Prop
  | .expire => s.pending = true ∧ s.callback = []
  | .callback => s.callback ≠ []
  | .workStart => s.started < s.scheduled ∧ s.finished = s.started
  | .workRead array => s.finished < s.started ∧ array ∈ p.workReads
  | .workEnd => s.finished < s.started
  | .exit => s.exit ≠ [] ∧ ∀ run ∈ s.flushing, run ≤ s.finished

instance (p : Program) (s : State) (e : Event) : Decidable (s.enabled p e) :=
  match e with
  | .expire => inferInstanceAs (Decidable (_ ∧ _))
  | .callback => inferInstanceAs (Decidable (_ ≠ _))
  | .workStart => inferInstanceAs (Decidable (_ ∧ _))
  | .workRead _ => inferInstanceAs (Decidable (_ ∧ _))
  | .workEnd => inferInstanceAs (Decidable (_ < _))
  | .exit => inferInstanceAs (Decidable (_ ∧ _))

-- Nothing is left behind once the exit function has returned, and no run of the work can
-- meet a freed array.
structure Unloaded (p : Program) (s : State) : Prop where
  quiet : s.exit = [] → s.pending = false ∧ s.scheduled = s.started
  reads : ∀ array, s.enabled p (.workRead array) → s.step p (.workRead array) ≠ .error .afterFree

def CallbackDone (s : State) (e : Event) : Prop := e = .exit → s.exit.head? = some .delTimer → s.callback = []

instance (s : State) (e : Event) : Decidable (CallbackDone s e) := inferInstanceAs (Decidable (_ → _ → _))

-- The exit functions: the work is flushed where the callback schedules any, arrays go last.
inductive Orderly (p : Program) (frees : List ExitStep) : Prop where
  | flushes (exit : p.exit = .delTimer :: .flushWork :: frees)
  | workless (exit : p.exit = .delTimer :: frees) (never : .scheduleWork ∉ p.callback)

inductive Phase (p : Program) (frees : List ExitStep) (s : State) : Prop where
  | running (exit : s.exit = p.exit) (freed : s.freed = []) (idle : s.flushing = none)
  | stopped (off : s.pending = false) (done : s.callback = []) (exit : s.exit = .flushWork :: frees) (freed : s.freed = [])
      (flushing : ∀ run ∈ s.flushing, run = s.scheduled)
  | drained (off : s.pending = false) (done : s.callback = []) (exit : s.exit <:+ frees)
      (ran : s.finished = s.scheduled) (idle : s.flushing = none)

structure Calm (p : Program) (frees : List ExitStep) (s : State) : Prop where
  finished : s.finished ≤ s.started
  started : s.started ≤ s.scheduled
  callback : s.callback <:+ p.callback
  workless : .scheduleWork ∉ p.callback → s.scheduled = 0
  phase : Phase p frees s

theorem calm_loaded (p : Program) (frees : List ExitStep) (armed : Bool) : Calm p frees (p.loaded armed) :=
  ⟨Nat.le_refl _, Nat.le_refl _, List.nil_suffix, fun _ => rfl, .running rfl rfl rfl⟩

-- A callback under way means that del_timer has not come yet.
theorem calm_callback (p : Program) (frees : List ExitStep) (s : State) (calm : Calm p frees s)
    (busy : s.pending = true ∨ s.callback ≠ []) : s.exit = p.exit ∧ s.freed = [] ∧ s.flushing = none := by
  cases calm.phase with
  | running exit freed idle => exact ⟨exit, freed, idle⟩
  | stopped off done => simp [off, done] at busy
  | drained off done => simp [off, done] at busy

-- A run of the work that is still owed keeps the exit function before its end.
theorem phase_work (p : Program) (frees : List ExitStep) (s : State) (phase : Phase p frees s)
    (unfinished : s.finished ≠ s.scheduled) (started finished : Nat) :
    Phase p frees { s with started := started, finished := finished } := by
  cases phase with
  | running exit freed idle => exact .running exit freed idle
  | stopped off ended exit freed flushing => exact .stopped off ended exit freed flushing
  | drained _ _ _ ran => exact absurd ran unfinished

theorem calm_exit (p : Program) (frees : List ExitStep) (orderly : Orderly p frees)
    (onlyFrees : ∀ step ∈ frees, ∃ array, step = .kfree array) (s next : State) (calm : Calm p frees s)
    (allowed : s.enabled p .exit) (careful : CallbackDone s .exit) (done : s.step p .exit = .ok ((), next)) :
    Calm p frees next := by
  obtain ⟨finished, started, callback, workless, phase⟩ := calm
  cases phase with
  | running exit freed idle =>
      have head : s.exit.head? = some .delTimer := by
        rw [exit]
        cases orderly with
        | flushes shape => rw [shape, List.head?_cons]
        | workless shape => rw [shape, List.head?_cons]
      have ended := careful rfl head
      cases orderly with
      | flushes shape =>
          rw [State.step, exit, shape] at done
          cases done
          exact ⟨finished, started, callback, workless, .stopped rfl ended rfl freed (by simp [idle])⟩
      | workless shape never =>
          rw [State.step, exit, shape] at done
          cases done
          have none_scheduled := workless never
          have ran : s.finished = s.scheduled := by omega
          exact ⟨finished, started, callback, workless, .drained rfl ended List.suffix_rfl ran idle⟩
  | stopped off ended exit freed flushing =>
      rw [State.step, exit] at done
      cases target : s.flushing with
      | none =>
          rw [target] at done
          cases done
          exact ⟨finished, started, callback, workless, .stopped off ended rfl freed (by simp)⟩
      | some run =>
          rw [target] at done
          cases done
          have waited := allowed.2 run target
          have last := flushing run target
          have ran : s.finished = s.scheduled := by omega
          exact ⟨finished, started, callback, workless, .drained off ended List.suffix_rfl ran rfl⟩
  | drained off ended exit ran idle =>
      cases left : s.exit with
      | nil =>
          rw [State.step, left] at done
          cases done
          exact ⟨finished, started, callback, workless, .drained off ended exit ran idle⟩
      | cons step rest =>
          obtain ⟨array, rfl⟩ := onlyFrees step (exit.subset (by simp [left]))
          rw [State.step, left] at done
          cases done
          have later : rest <:+ frees := (List.suffix_cons _ rest).trans (left ▸ exit)
          exact ⟨finished, started, callback, workless, .drained off ended later ran idle⟩

theorem calm_step (p : Program) (frees : List ExitStep) (orderly : Orderly p frees)
    (onlyFrees : ∀ step ∈ frees, ∃ array, step = .kfree array) (s : State) (e : Event) (out : Unit) (next : State)
    (calm : Calm p frees s) (careful : CallbackDone s e) (allowed : s.enabled p e)
    (done : s.step p e = .ok (out, next)) : Calm p frees next := by
  cases e with
  | expire =>
      cases done
      obtain ⟨exit, freed, idle⟩ := calm_callback p frees s calm (.inl allowed.1)
      exact ⟨calm.finished, calm.started, List.suffix_rfl, calm.workless, .running exit freed idle⟩
  | callback =>
      obtain ⟨exit, freed, idle⟩ := calm_callback p frees s calm (.inr allowed)
      cases left : s.callback with
      | nil => exact absurd left allowed
      | cons step rest =>
          rw [State.step, left] at done
          cases done
          have here : step :: rest <:+ p.callback := left ▸ calm.callback
          have later : rest <:+ p.callback := (List.suffix_cons step rest).trans here
          have finished := calm.finished
          have started := calm.started
          cases step with
          | scheduleWork =>
              have scheduled : s.scheduled ≤ if s.started < s.scheduled then s.scheduled else s.scheduled + 1 := by
                split <;> omega
              refine ⟨finished, Nat.le_trans started scheduled, later, fun never => ?_, .running exit freed idle⟩
              exact absurd (here.subset (by simp)) never
          | getCpuUsage => exact ⟨finished, started, later, calm.workless, .running exit freed idle⟩
          | modTimer => exact ⟨finished, started, later, calm.workless, .running exit freed idle⟩
  | workStart =>
      cases done
      obtain ⟨more, last⟩ := allowed
      obtain ⟨finished, started, callback, workless, phase⟩ := calm
      exact ⟨Nat.le_succ_of_le finished, more, callback, workless, phase_work p frees s phase (by omega) _ _⟩
  | workRead array =>
      rw [State.step] at done
      split at done
      · cases done
      · cases done
        exact calm
  | workEnd =>
      cases done
      have more : s.finished < s.started := allowed
      obtain ⟨finished, started, callback, workless, phase⟩ := calm
      exact ⟨more, started, callback, workless, phase_work p frees s phase (by omega) _ _⟩
  | exit => exact calm_exit p frees orderly onlyFrees s next calm allowed careful done

theorem calm_unloaded (p : Program) (frees : List ExitStep) (orderly : Orderly p frees) (s : State)
    (calm : Calm p frees s) : Unloaded p s := by
  obtain ⟨finished, started, _, _, phase⟩ := calm
  have nonempty : p.exit ≠ [] := by
    cases orderly with
    | flushes shape => simp [shape]
    | workless shape => simp [shape]
  constructor
  · intro returned
    cases phase with
    | running exit => exact absurd (exit.symm.trans returned) nonempty
    | stopped _ _ exit => simp [exit] at returned
    | drained off _ _ ran => exact ⟨off, by omega⟩
  · rintro array ⟨reading, _⟩
    have kept : s.freed = [] := by
      cases phase with
      | running _ freed => exact freed
      | stopped _ _ _ freed => exact freed
      | drained _ _ _ ran => omega
    simp [State.step, kept]

theorem per_cpu_usage_orderly : Orderly PerCpuUsage.program [.kfree .prevIdle, .kfree .prevTotal] := .flushes rfl
theorem cpu_usage_orderly : Orderly CpuUsage.program [] := .flushes rfl
theorem cpu_usage2_orderly : Orderly CpuUsage2.program [] := .workless rfl (by decide)

def UnloadsWhen (cond : State → Event → Prop) (p : Program) : Prop :=
  ∀ armed evs outs s, Run (State.step p) (State.enabled p) (p.loaded armed) evs outs s →
    Run.Always (State.step p) (State.enabled p) (p.loaded armed) cond evs → Unloaded p s

theorem orderly_unloads (p : Program) (frees : List ExitStep) (orderly : Orderly p frees)
    (onlyFrees : ∀ step ∈ frees, ∃ array, step = .kfree array) : UnloadsWhen CallbackDone p := by
  intro armed evs outs s run careful
  have calm := Run.always_invariant (State.step p) (State.enabled p) (p.loaded armed) CallbackDone (Calm p frees)
    (calm_loaded p frees armed) (calm_step p frees orderly onlyFrees) evs outs s run careful
  exact calm_unloaded p frees orderly s calm

theorem unloads_between_callbacks (p : Program) (one : p ∈ [PerCpuUsage.program, CpuUsage.program, CpuUsage2.program])
    (armed : Bool) (evs : List Event) (outs : List Unit) (s : State)
    (run : Run (State.step p) (State.enabled p) (p.loaded armed) evs outs s)
    (careful : Run.Always (State.step p) (State.enabled p) (p.loaded armed) CallbackDone evs) : Unloaded p s := by
  have unloads : UnloadsWhen CallbackDone p := by
    simp only [List.mem_cons, List.not_mem_nil, or_false] at one
    rcases one with rfl | rfl | rfl
    · exact orderly_unloads _ _ per_cpu_usage_orderly (by simp)
    · exact orderly_unloads _ _ cpu_usage_orderly (by simp)
    · exact orderly_unloads _ _ cpu_usage2_orderly (by simp)
  exact unloads armed evs outs s run careful

-- del_timer comes after the callback; its work still runs before the arrays are freed.
def unhurried : List Event :=
  [.expire, .callback, .callback, .exit, .exit, .workStart, .workRead .prevTotal, .workEnd, .exit, .exit, .exit]

theorem unhurried_unloads :
    ∃ outs s, Run (State.step PerCpuUsage.program) (State.enabled PerCpuUsage.program) (PerCpuUsage.program.loaded true)
        unhurried outs s ∧ s.exit = [] ∧ Unloaded PerCpuUsage.program s := by
  have computed : (Run.eval (State.step PerCpuUsage.program) (State.enabled PerCpuUsage.program)
      (PerCpuUsage.program.loaded true) unhurried).map (fun result => result.2.exit) = some [] := by decide +kernel
  obtain ⟨⟨outs, s⟩, ran, returned⟩ := Option.map_eq_some_iff.mp computed
  have run := Run.eval_run _ _ _ _ _ _ ran
  exact ⟨outs, s, run, returned, unloads_between_callbacks PerCpuUsage.program (by simp) true unhurried outs s run
    (Run.check_always _ _ _ _ _ (by decide +kernel))⟩

-- The timer expires, del_timer finds nothing to cancel, and the callback arms it again.
def rearmed : List Event := [.expire, .callback, .exit, .callback]

def rearmedPerCpu : List Event := rearmed ++ [.exit, .workStart, .workRead .prevIdle, .workEnd, .exit, .exit, .exit]

def rearmedFlush : List Event := rearmed ++ [.exit, .workStart, .workEnd, .exit]

theorem armed_after_exit (p : Program) (evs : List Event)
    (computed : (Run.eval (State.step p) (State.enabled p) (p.loaded true) evs).map
      (fun result => (result.2.exit, result.2.pending)) = some ([], true)) : ¬ UnloadsWhen (fun _ _ => True) p := by
  intro claimed
  obtain ⟨⟨outs, s⟩, ran, shown⟩ := Option.map_eq_some_iff.mp computed
  obtain ⟨returned, armed⟩ := Prod.mk.inj shown
  have unloaded := claimed true evs outs s (Run.eval_run _ _ _ _ _ _ ran) (fun _ _ _ _ _ _ _ => trivial)
  have off := (unloaded.quiet returned).1
  rw [show s.pending = true from armed] at off
  cases off

theorem del_timer_misses_callback :
    ¬ UnloadsWhen (fun _ _ => True) PerCpuUsage.program ∧ ¬ UnloadsWhen (fun _ _ => True) CpuUsage.program ∧
      ¬ UnloadsWhen (fun _ _ => True) CpuUsage2.program :=
  ⟨armed_after_exit _ rearmedPerCpu (by decide +kernel), armed_after_exit _ rearmedFlush (by decide +kernel),
    armed_after_exit _ rearmed (by decide +kernel)⟩

end LinuxModule.TimerExit
