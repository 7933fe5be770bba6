import LinuxModule.Softwdt.Teardown
import Mathlib.Algebra.GroupWithZero.Nat

set_option autoImplicit false

namespace LinuxModule.Softwdt

def Queue.held (q : Queue) : Nat :=
  match q with
  | .live => 1
  | .null => 0
  | .destroyed => 0
  | .system => 0

def Block.held {α : Type} (b : Block α) : Nat :=
  match b with
  | .live _ => 1
  | .null => 0
  | .freed => 0

-- A version as the kernel loads and unloads it; O is what its allocations come to.
structure Loader (w : Nat) (J P L O : Type) where
  init : J → O → Int × Module J P
  driver : Driver w J P L
  exit : List (ExitStep P)
  arrays : P → List Nat

variable {w : Nat} {J P L O : Type}

def Loader.held (l : Loader w J P L O) (m : Module J P) : Nat :=
  m.monitor.wq.held + m.monitor.taskWq.held + (l.arrays m.prev).sum

def Loader.Complete (l : Loader w J P L O) (m : Module J P) : Prop :=
  m.monitor.delayedWork.isSome = true ∧ m.monitor.wq = .live ∧ m.monitor.taskWq = .live ∧ ∀ held ∈ l.arrays m.prev, held = 1

-- The machine between loads: the module that is in, and how many workqueues and arrays
-- belong to modules that are not in any more.
structure Host (J P : Type) where
  loaded : Option (Module J P)
  lost : Nat

def Loader.live (l : Loader w J P L O) (s : Host J P) : Nat := s.lost + (s.loaded.map l.held).getD 0

inductive Event (w : Nat) (J O : Type) where
  | load (jiffies : J) (outcomes : O)
  | fire (firing : Firing w J)
  | taskInfo
  | unload

def ExitStep.runAll (steps : List (ExitStep P)) (m : Module J P) : Except Fault (Module J P) :=
  steps.foldlM (fun m step => step.run m) m

-- An init that fails leaves the module out, with what it has not given back. An unload
-- runs its steps without a handler in between.
def Loader.step (l : Loader w J P L O) (s : Host J P) : Event w J O → Except Fault (Unit × Host J P)
  | .load jiffies outcomes =>
      let (code, m) := l.init jiffies outcomes
      .ok ((), if code = 0 then { s with loaded := some m } else { s with lost := s.lost + l.held m })
  | .fire firing =>
      match s.loaded with
      | none => .ok ((), s)
      | some m => do
          let (_, m) ← l.driver.fire m firing
          .ok ((), { s with loaded := some m })
  | .taskInfo =>
      .ok ((), { s with loaded := s.loaded.map fun m => { m with monitor := { m.monitor with taskWork := false } } })
  | .unload =>
      match s.loaded with
      | none => .ok ((), s)
      | some m => do
          let m ← ExitStep.runAll l.exit m
          .ok ((), ⟨none, s.lost + l.held m⟩)

def Loader.enabled (l : Loader w J P L O) (s : Host J P) : Event w J O → Prop
  | .load _ _ => s.loaded = none
  | .fire firing => ∃ m, s.loaded = some m ∧ Unloading.enabled l.exit ⟨m, 0⟩ (.fire firing)
  | .taskInfo => ∃ m, s.loaded = some m ∧ m.monitor.taskWork = true
  | .unload => s.loaded.isSome = true

structure Loader.AllOrNothing (l : Loader w J P L O) (s : Host J P) (e : Event w J O) : Prop where
  nothing : ∀ jiffies outcomes, e = .load jiffies outcomes → (l.init jiffies outcomes).1 ≠ 0 →
    l.held (l.init jiffies outcomes).2 = 0
  all : ∀ jiffies outcomes, e = .load jiffies outcomes → (l.init jiffies outcomes).1 = 0 →
    l.Complete (l.init jiffies outcomes).2
  freed : ∀ next, l.step s e = .ok ((), next) → next.loaded = none → l.live next = 0

-- While it is in, a module has both workqueues and nothing it has freed.
structure Holds (freed : P → Prop) (m : Module J P) : Prop where
  wq : m.monitor.wq = .live
  taskWq : m.monitor.taskWq = .live
  prev : ¬ freed m.prev

theorem holds_fire [Add J] (d : Driver w J P L) (p : Platform J) (delay : UInt32) (policy : Policy) (freed : P → Prop)
    (follows : Follows d p delay policy) (careful : Careful d freed) (m next : Module J P) (firing : Firing w J)
    (out : Output L) (holds : Holds freed m) (done : d.fire m firing = .ok (out, next)) : Holds freed next := by
  obtain ⟨wq, taskWq, prev⟩ := fire_keeps d p delay policy freed follows careful m next firing out done
  exact ⟨wq.trans holds.wq, taskWq.trans holds.taskWq, mt prev.mp holds.prev⟩

-- The ways an init can end, by the first allocation that fails.
structure Staged (l : Loader w J P L O) (freed : P → Prop) (wqOk taskWqOk arraysOk : O → Bool) : Prop where
  first : ∀ jiffies outcomes, wqOk outcomes = false →
    (l.init jiffies outcomes).1 ≠ 0 ∧ l.held (l.init jiffies outcomes).2 = 0
  second : ∀ jiffies outcomes, wqOk outcomes = true → taskWqOk outcomes = false →
    (l.init jiffies outcomes).1 ≠ 0 ∧ l.held (l.init jiffies outcomes).2 = 1
  third : ∀ jiffies outcomes, wqOk outcomes = true → taskWqOk outcomes = true →
    (l.init jiffies outcomes).1 = 0 ∧ Holds freed (l.init jiffies outcomes).2 ∧
      (l.Complete (l.init jiffies outcomes).2 ↔ arraysOk outcomes = true)
  fire : ∀ m next firing out, Holds freed m → l.driver.fire m firing = .ok (out, next) → Holds freed next
  exit : ∀ m, Holds freed m → ∃ next, ExitStep.runAll l.exit m = .ok next ∧ l.held next = 0

section Loading

variable (l : Loader w J P L O) (freed : P → Prop) (wqOk taskWqOk arraysOk : O → Bool)

-- The load whose second workqueue could not be created.
def stranded : Event w J O → Bool
  | .load _ outcomes => wqOk outcomes && !taskWqOk outcomes
  | .fire _ => false
  | .taskInfo => false
  | .unload => false

theorem staged_step (staged : Staged l freed wqOk taskWqOk arraysOk) (s next : Host J P) (e : Event w J O)
    (held : ∀ m, s.loaded = some m → Holds freed m) (done : l.step s e = .ok ((), next)) :
    (∀ m, next.loaded = some m → Holds freed m) ∧
      next.lost = s.lost + if stranded wqOk taskWqOk e then 1 else 0 := by
  cases e with
  | load jiffies outcomes =>
      cases done
      cases first : wqOk outcomes with
      | false =>
          obtain ⟨refused, nothing⟩ := staged.first jiffies outcomes first
          simpa [stranded, first, refused, nothing] using held
      | true =>
          cases second : taskWqOk outcomes with
          | false =>
              obtain ⟨refused, one⟩ := staged.second jiffies outcomes first second
              simpa [stranded, first, second, refused, one] using held
          | true =>
              obtain ⟨taken, holds, _⟩ := staged.third jiffies outcomes first second
              simpa [stranded, first, second, taken] using holds
  | fire firing =>
      cases loaded : s.loaded with
      | none =>
          simp only [Loader.step, loaded] at done
          cases done
          exact ⟨held, rfl⟩
      | some m =>
          simp only [Loader.step, loaded] at done
          obtain ⟨⟨out, after⟩, ran, same⟩ := (except_bind_ok _ _ _).mp done
          cases same
          refine ⟨fun other is => ?_, rfl⟩
          cases is
          exact staged.fire m after firing out (held m loaded) ran
  | taskInfo =>
      cases done
      refine ⟨fun m is => ?_, rfl⟩
      obtain ⟨before, loaded, rfl⟩ := Option.map_eq_some_iff.mp is
      obtain ⟨wq, taskWq, prev⟩ := held before loaded
      exact ⟨wq, taskWq, prev⟩
  | unload =>
      cases loaded : s.loaded with
      | none =>
          simp only [Loader.step, loaded] at done
          cases done
          exact ⟨held, rfl⟩
      | some m =>
          simp only [Loader.step, loaded] at done
          obtain ⟨after, ran, same⟩ := (except_bind_ok _ _ _).mp done
          cases same
          obtain ⟨last, exited, nothing⟩ := staged.exit m (held m loaded)
          obtain rfl : last = after := Except.ok.inj (exited.symm.trans ran)
          exact ⟨by simp, by simp [stranded, nothing]⟩

def emptyHost : Host J P := ⟨none, 0⟩

theorem staged_run (staged : Staged l freed wqOk taskWqOk arraysOk) (evs : List (Event w J O)) (outs : List Unit)
    (s : Host J P) (run : Run l.step l.enabled emptyHost evs outs s) :
    (∀ m, s.loaded = some m → Holds freed m) ∧ s.lost = evs.countP (stranded wqOk taskWqOk) := by
  refine Run.rule l.step l.enabled emptyHost (fun evs _ s => (∀ m, s.loaded = some m → Holds freed m) ∧
    s.lost = evs.countP (stranded wqOk taskWqOk)) ⟨by simp [emptyHost], rfl⟩ ?_ evs outs s run
  rintro evs outs middle e out after ⟨held, lost⟩ - done
  obtain ⟨heldAfter, lostAfter⟩ := staged_step l freed wqOk taskWqOk arraysOk staged middle after e held done
  refine ⟨heldAfter, ?_⟩
  rw [lostAfter, lost, List.countP_append, List.countP_singleton]

-- Either the first workqueue already fails, or nothing does.
def Clean (e : Event w J O) : Prop :=
  ∀ jiffies outcomes, e = .load jiffies outcomes →
    wqOk outcomes = false ∨ wqOk outcomes = true ∧ taskWqOk outcomes = true ∧ arraysOk outcomes = true

theorem clean_not_stranded (e : Event w J O) (clean : Clean wqOk taskWqOk arraysOk e) :
    stranded wqOk taskWqOk e = false := by
  cases e with
  | load jiffies outcomes =>
      rcases clean jiffies outcomes rfl with first | ⟨_, second, _⟩
      · simp [stranded, first]
      · simp [stranded, second]
  | fire firing => rfl
  | taskInfo => rfl
  | unload => rfl

theorem clean_init_iff (staged : Staged l freed wqOk taskWqOk arraysOk) (jiffies : J) (outcomes : O) :
    (((l.init jiffies outcomes).1 ≠ 0 → l.held (l.init jiffies outcomes).2 = 0) ∧
      ((l.init jiffies outcomes).1 = 0 → l.Complete (l.init jiffies outcomes).2)) ↔
    wqOk outcomes = false ∨ wqOk outcomes = true ∧ taskWqOk outcomes = true ∧ arraysOk outcomes = true := by
  cases first : wqOk outcomes with
  | false =>
      obtain ⟨refused, nothing⟩ := staged.first jiffies outcomes first
      simp [refused, nothing]
  | true =>
      cases second : taskWqOk outcomes with
      | false =>
          obtain ⟨refused, one⟩ := staged.second jiffies outcomes first second
          simp [refused, one]
      | true =>
          obtain ⟨taken, _, complete⟩ := staged.third jiffies outcomes first second
          simp [taken, complete]

theorem clean_event (staged : Staged l freed wqOk taskWqOk arraysOk) (s : Host J P) (e : Event w J O)
    (held : ∀ m, s.loaded = some m → Holds freed m) (kept : s.lost = 0) (clean : Clean wqOk taskWqOk arraysOk e) :
    l.AllOrNothing s e := by
  refine ⟨fun jiffies outcomes is => ?_, fun jiffies outcomes is => ?_, fun next done out => ?_⟩
  · exact ((clean_init_iff l freed wqOk taskWqOk arraysOk staged jiffies outcomes).mpr (clean jiffies outcomes is)).1
  · exact ((clean_init_iff l freed wqOk taskWqOk arraysOk staged jiffies outcomes).mpr (clean jiffies outcomes is)).2
  · obtain ⟨_, lost⟩ := staged_step l freed wqOk taskWqOk arraysOk staged s next e held done
    rw [clean_not_stranded wqOk taskWqOk arraysOk e clean, kept] at lost
    simp [Loader.live, out, lost]

-- Every unload completes, and only the loads whose second workqueue failed leave anything.
theorem loading_run_iff (staged : Staged l freed wqOk taskWqOk arraysOk) (evs : List (Event w J O)) (outs : List Unit)
    (s : Host J P) (run : Run l.step l.enabled emptyHost evs outs s) :
    s.lost = evs.countP (stranded wqOk taskWqOk) ∧
    (∃ next, l.step s .unload = .ok ((), next) ∧ next.loaded = none ∧ l.live next = s.lost) ∧
    (Run.Always l.step l.enabled emptyHost l.AllOrNothing evs ↔ ∀ e ∈ evs, Clean wqOk taskWqOk arraysOk e) := by
  obtain ⟨held, lost⟩ := staged_run l freed wqOk taskWqOk arraysOk staged evs outs s run
  refine ⟨lost, ?_, ?_, ?_⟩
  · cases loaded : s.loaded with
    | none => exact ⟨s, by simp only [Loader.step, loaded], loaded, by simp [Loader.live, loaded]⟩
    | some m =>
        obtain ⟨last, exited, nothing⟩ := staged.exit m (held m loaded)
        exact ⟨⟨none, s.lost + l.held last⟩, by simp only [Loader.step, loaded, exited, except_ok_bind], rfl,
          by simp [Loader.live, nothing]⟩
  · rintro always e member jiffies outcomes rfl
    obtain ⟨first, rest, rfl⟩ := List.append_of_mem member
    obtain ⟨outsFirst, middle, before⟩ := Run.before l.step l.enabled emptyHost first (_ :: rest) outs s run
    have good := always first _ rest outsFirst middle rfl before
    exact (clean_init_iff l freed wqOk taskWqOk arraysOk staged jiffies outcomes).mp
      ⟨good.nothing jiffies outcomes rfl, good.all jiffies outcomes rfl⟩
  · rintro clean first e rest outsFirst middle rfl before
    obtain ⟨heldMiddle, lostMiddle⟩ := staged_run l freed wqOk taskWqOk arraysOk staged first outsFirst middle before
    have none_stranded : first.countP (stranded wqOk taskWqOk) = 0 := by
      rw [List.countP_eq_zero]
      intro earlier member
      simp [clean_not_stranded wqOk taskWqOk arraysOk earlier (clean earlier (List.mem_append_left _ member))]
    exact clean_event l freed wqOk taskWqOk arraysOk staged middle e heldMiddle (lostMiddle.trans none_stranded)
      (clean e (by simp))

end Loading

def stopped (m : Module J P) : Module J P :=
  { m with monitor := { m.monitor with
      timer := { m.monitor.timer with pending := false }
      delayedWork := none
      taskWork := false
      wq := .destroyed
      taskWq := .destroyed } }

theorem run_all_cons (step : ExitStep P) (steps : List (ExitStep P)) (m next : Module J P) (done : step.run m = .ok next) :
    ExitStep.runAll (step :: steps) m = ExitStep.runAll steps next := by
  rw [ExitStep.runAll, List.foldlM_cons, done]
  rfl

-- Up to the frees both exit functions do the same.
theorem exit_stops (freed : P → Prop) (m : Module J P) (holds : Holds freed m) (frees : List (ExitStep P)) :
    ExitStep.runAll ([.delTimerSync, .cancelDelayedWorkSync, .cancelWorkSync, .destroyWorkqueue, .destroyTaskWorkqueue] ++
      frees) m = ExitStep.runAll frees (stopped m) := by
  obtain ⟨⟨_, _, wq, _, _, _, taskWq⟩, _, _⟩ := m
  obtain ⟨rfl, rfl, _⟩ := holds
  rfl

theorem kfree_held {α : Type} (b : Block α) (kept : b ≠ .freed) : ∃ next, b.kfree = .ok next ∧ next.held = 0 := by
  cases b with
  | null => exact ⟨.null, rfl, rfl⟩
  | live cells => exact ⟨.freed, rfl, rfl⟩
  | freed => exact absurd rfl kept

namespace LoadSoftwdt3

structure Outcomes where
  wq : Bool
  taskWq : Bool
  prev : Bool
deriving DecidableEq

def loader [Add J] (p : Platform J) (w : Nat) :
    Loader w J (PrevCpuUsageStats w) (List (UsageLine w)) Outcomes where
  init jiffies outcomes := init p w jiffies outcomes.wq outcomes.taskWq outcomes.prev
  driver := driver p
  exit := exit w
  arrays prev := [prev.held]

theorem staged [Add J] (p : Platform J) (w : Nat) :
    Staged (loader p w) (fun prev => prev = .freed) Outcomes.wq Outcomes.taskWq Outcomes.prev where
  first jiffies outcomes first := by
    simp [loader, init, first, Loader.held, LoadMonitor.fresh, Queue.held, Block.held]
  second jiffies outcomes first second := by
    simp [loader, init, first, second, Loader.held, LoadMonitor.fresh, Queue.held, Block.held]
  third jiffies outcomes first second := by
    have holds : Holds (fun prev => prev = .freed) ((loader p w).init jiffies outcomes).2 := by
      cases third : outcomes.prev <;> constructor <;> simp [loader, init, first, second, third, LoadMonitor.fresh]
    refine ⟨?_, holds, ?_⟩
    · cases third : outcomes.prev <;> simp [loader, init, first, second, third]
    · cases third : outcomes.prev <;>
      simp [loader, init, first, second, third, Loader.Complete, LoadMonitor.fresh, Block.held]
  fire := holds_fire _ p _ _ _ (follows p) (careful p)
  exit m holds := by
    obtain ⟨prev, freed, nothing⟩ := kfree_held m.prev holds.prev
    refine ⟨{ stopped m with prev := prev }, ?_, ?_⟩
    · have stops := exit_stops _ m holds [.kfree Block.kfree]
      have frees : ExitStep.run (.kfree Block.kfree) (stopped m) = .ok { stopped m with prev := prev } := by
        simp [ExitStep.run, stopped, freed]
      exact stops.trans (run_all_cons _ [] _ _ frees)
    · simp [Loader.held, loader, stopped, Queue.held, nothing]

end LoadSoftwdt3

theorem kzalloc_held (w numCpus : Nat) (ok : Bool) : (kzallocCpus w numCpus ok).held = if ok then 1 else 0 := by
  cases ok <;> rfl

namespace LoadSoftwdt2

structure Outcomes where
  wq : Bool
  taskWq : Bool
  idle : Bool
  total : Bool
  interrupt : Bool
deriving DecidableEq

def Outcomes.arrays (outcomes : Outcomes) : Bool := outcomes.idle && outcomes.total && outcomes.interrupt

def loader [Add J] (p : Platform J) (w : Nat) : Loader w J (PrevArrays w) (List (CpuUsage w)) Outcomes where
  init jiffies outcomes := init p w jiffies outcomes.wq outcomes.taskWq outcomes.idle outcomes.total outcomes.interrupt
  driver := driver p
  exit := exit w
  arrays prev := [prev.idle.held, prev.total.held, prev.interrupt.held]

-- The array that could not be allocated does not keep the others from being there.
theorem init_loaded [Add J] (p : Platform J) (w : Nat) (jiffies : J) (outcomes : Outcomes) (first : outcomes.wq = true)
    (second : outcomes.taskWq = true) :
    ((loader p w).init jiffies outcomes).1 = 0 ∧
      ((loader p w).init jiffies outcomes).2.monitor.wq = .live ∧
      ((loader p w).init jiffies outcomes).2.monitor.taskWq = .live ∧
      ((loader p w).init jiffies outcomes).2.monitor.delayedWork.isSome = outcomes.arrays ∧
      ((loader p w).init jiffies outcomes).2.prev = ⟨kzallocCpus w p.possible.length outcomes.idle,
        kzallocCpus w p.possible.length outcomes.total, kzallocCpus w p.possible.length outcomes.interrupt⟩ := by
  obtain ⟨wq, taskWq, idle, total, interrupt⟩ := outcomes
  obtain rfl : wq = true := first
  obtain rfl : taskWq = true := second
  cases idle <;> cases total <;> cases interrupt <;> exact ⟨rfl, rfl, rfl, rfl, rfl⟩

theorem staged [Add J] (p : Platform J) (w : Nat) :
    Staged (loader p w) PrevArrays.Freed Outcomes.wq Outcomes.taskWq Outcomes.arrays where
  first jiffies outcomes first := by
    simp [loader, init, first, Loader.held, LoadMonitor.fresh, Queue.held, Block.held]
  second jiffies outcomes first second := by
    simp [loader, init, first, second, Loader.held, LoadMonitor.fresh, Queue.held, Block.held]
  third jiffies outcomes first second := by
    obtain ⟨taken, wq, taskWq, delayedWork, prev⟩ := init_loaded p w jiffies outcomes first second
    refine ⟨taken, ⟨wq, taskWq, ?_⟩, ?_⟩
    · rw [prev]
      simp [PrevArrays.Freed, kzalloc_not_freed]
    · have present : (∀ held ∈ (loader p w).arrays ((loader p w).init jiffies outcomes).2.prev, held = 1) ↔
          outcomes.arrays = true := by
        rw [prev]
        simp [loader, kzalloc_held, Outcomes.arrays, and_assoc]
      rw [Loader.Complete, delayedWork, present]
      exact ⟨fun complete => complete.1, fun whole => ⟨whole, wq, taskWq, whole⟩⟩
  fire := holds_fire _ p _ _ _ (follows p) (careful p)
  exit m holds := by
    obtain ⟨idleKept, totalKept, interruptKept⟩ : m.prev.idle ≠ .freed ∧ m.prev.total ≠ .freed ∧ m.prev.interrupt ≠ .freed := by
      simpa [PrevArrays.Freed] using holds.prev
    obtain ⟨idle, freedIdle, noIdle⟩ := kfree_held m.prev.idle idleKept
    obtain ⟨total, freedTotal, noTotal⟩ := kfree_held m.prev.total totalKept
    obtain ⟨interrupt, freedInterrupt, noInterrupt⟩ := kfree_held m.prev.interrupt interruptKept
    refine ⟨{ stopped m with prev := ⟨idle, total, interrupt⟩ }, ?_, ?_⟩
    · have stops := exit_stops _ m holds [.kfree PrevArrays.kfreeIdle, .kfree PrevArrays.kfreeTotal, .kfree PrevArrays.kfreeInterrupt]
      refine stops.trans ?_
      simp [ExitStep.runAll, ExitStep.run, stopped, PrevArrays.kfreeIdle, PrevArrays.kfreeTotal, PrevArrays.kfreeInterrupt,
        freedIdle, freedTotal, freedInterrupt]
    · simp [Loader.held, loader, stopped, Queue.held, noIdle, noTotal, noInterrupt]

end LoadSoftwdt2

theorem loading_all_or_nothing_iff [Add J] (p : Platform J) (w : Nat) :
    (∀ evs outs s, Run (LoadSoftwdt3.loader p w).step (LoadSoftwdt3.loader p w).enabled emptyHost evs outs s →
      s.lost = evs.countP (stranded LoadSoftwdt3.Outcomes.wq LoadSoftwdt3.Outcomes.taskWq) ∧
      (∃ next, (LoadSoftwdt3.loader p w).step s .unload = .ok ((), next) ∧ next.loaded = none ∧
        (LoadSoftwdt3.loader p w).live next = s.lost) ∧
      (Run.Always (LoadSoftwdt3.loader p w).step (LoadSoftwdt3.loader p w).enabled emptyHost
          (LoadSoftwdt3.loader p w).AllOrNothing evs ↔
        ∀ e ∈ evs, Clean LoadSoftwdt3.Outcomes.wq LoadSoftwdt3.Outcomes.taskWq LoadSoftwdt3.Outcomes.prev e)) ∧
    (∀ evs outs s, Run (LoadSoftwdt2.loader p w).step (LoadSoftwdt2.loader p w).enabled emptyHost evs outs s →
      s.lost = evs.countP (stranded LoadSoftwdt2.Outcomes.wq LoadSoftwdt2.Outcomes.taskWq) ∧
      (∃ next, (LoadSoftwdt2.loader p w).step s .unload = .ok ((), next) ∧ next.loaded = none ∧
        (LoadSoftwdt2.loader p w).live next = s.lost) ∧
      (Run.Always (LoadSoftwdt2.loader p w).step (LoadSoftwdt2.loader p w).enabled emptyHost
          (LoadSoftwdt2.loader p w).AllOrNothing evs ↔
        ∀ e ∈ evs, Clean LoadSoftwdt2.Outcomes.wq LoadSoftwdt2.Outcomes.taskWq LoadSoftwdt2.Outcomes.arrays e)) :=
  ⟨loading_run_iff _ _ _ _ _ (LoadSoftwdt3.staged p w), loading_run_iff _ _ _ _ _ (LoadSoftwdt2.staged p w)⟩

-- Loaded, fed once and unloaded, then a load that gets nothing.
def loadedTwice : List (Event 64 Nat LoadSoftwdt3.Outcomes) :=
  [.load 0 ⟨true, true, true⟩, .fire (.feed (idleEnv 0)), .unload, .load 3000 ⟨false, false, false⟩]

theorem loaded_twice_clean : ∃ outs s,
    Run (LoadSoftwdt3.loader twoCpus 64).step (LoadSoftwdt3.loader twoCpus 64).enabled emptyHost loadedTwice outs s ∧
    s.lost = 0 ∧ Run.Always (LoadSoftwdt3.loader twoCpus 64).step (LoadSoftwdt3.loader twoCpus 64).enabled emptyHost
      (LoadSoftwdt3.loader twoCpus 64).AllOrNothing loadedTwice := by
  have run : Run (LoadSoftwdt3.loader twoCpus 64).step (LoadSoftwdt3.loader twoCpus 64).enabled emptyHost loadedTwice _ _ :=
    .next [_, _, _] _ _ _ _ _ (.next [_, _] _ _ _ _ _ (.next [_] _ _ _ _ _ (.next [] [] _ _ _ _ .start rfl rfl)
      ⟨_, rfl, rfl⟩ rfl) rfl rfl) rfl rfl
  obtain ⟨lost, _, clean⟩ := (loading_all_or_nothing_iff twoCpus 64).1 _ _ _ run
  refine ⟨_, _, run, lost, clean.mpr fun e member jiffies outcomes same => ?_⟩
  subst same
  simp [loadedTwice] at member
  rcases member with ⟨_, rfl⟩ | ⟨_, rfl⟩
  · exact .inr ⟨rfl, rfl, rfl⟩
  · exact .inl rfl

-- Without the second workqueue the first stays behind, and without the array init reports success.
theorem loading_half_done :
    (¬ Run.Always (LoadSoftwdt3.loader twoCpus 64).step (LoadSoftwdt3.loader twoCpus 64).enabled emptyHost
        (LoadSoftwdt3.loader twoCpus 64).AllOrNothing [.load 0 ⟨true, false, false⟩]) ∧
    (¬ Run.Always (LoadSoftwdt3.loader twoCpus 64).step (LoadSoftwdt3.loader twoCpus 64).enabled emptyHost
        (LoadSoftwdt3.loader twoCpus 64).AllOrNothing [.load 0 ⟨true, true, false⟩]) ∧
    (¬ Run.Always (LoadSoftwdt2.loader twoCpus 64).step (LoadSoftwdt2.loader twoCpus 64).enabled emptyHost
        (LoadSoftwdt2.loader twoCpus 64).AllOrNothing [.load 0 ⟨true, false, false, false, false⟩]) ∧
    ¬ Run.Always (LoadSoftwdt2.loader twoCpus 64).step (LoadSoftwdt2.loader twoCpus 64).enabled emptyHost
        (LoadSoftwdt2.loader twoCpus 64).AllOrNothing [.load 0 ⟨true, true, true, false, true⟩] := by
  refine ⟨fun always => ?_, fun always => ?_, fun always => ?_, fun always => ?_⟩
  · have good := always [] _ [] [] _ rfl .start
    exact absurd (good.nothing 0 ⟨true, false, false⟩ rfl (by decide)) (by decide)
  · have good := always [] _ [] [] _ rfl .start
    exact absurd (good.all 0 ⟨true, true, false⟩ rfl rfl).1 (by decide)
  · have good := always [] _ [] [] _ rfl .start
    exact absurd (good.nothing 0 ⟨true, false, false, false, false⟩ rfl (by decide)) (by decide)
  · have good := always [] _ [] [] _ rfl .start
    exact absurd (good.all 0 ⟨true, true, true, false, true⟩ rfl rfl).1 (by decide)

end LinuxModule.Softwdt
