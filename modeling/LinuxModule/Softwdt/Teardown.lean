import LinuxModule.Softwdt.Timeouts

set_option autoImplicit false

namespace LinuxModule.Softwdt

variable {w : Nat} {J P L : Type}

-- A module and how many steps of its exit function have been taken.
structure Unloading (J P : Type) where
  current : Module J P
  pc : Nat

inductive Step (w : Nat) (J : Type) where
  | fire (firing : Firing w J)
  | taskInfo
  | exit

def Step.isExit : Step w J → Bool
  | .exit => true
  | .fire _ => false
  | .taskInfo => false

def Step.isFeed : Step w J → Bool
  | .fire (.feed _) => true
  | .fire (.timeout _) => false
  | .taskInfo => false
  | .exit => false

-- The task-info work touches nothing of the module's.
def Unloading.step (d : Driver w J P L) (exit : List (ExitStep P)) (s : Unloading J P) :
    Step w J → Except Fault (Output L × Unloading J P)
  | .fire firing => do
      let (out, current) ← d.fire s.current firing
      .ok (out, { s with current := current })
  | .taskInfo =>
      .ok (⟨none, []⟩, { s with current := { s.current with monitor := { s.current.monitor with taskWork := false } } })
  | .exit =>
      match exit[s.pc]? with
      | none => .ok (⟨none, []⟩, s)
      | some step => do
          let current ← step.run s.current
          .ok (⟨none, []⟩, ⟨current, s.pc + 1⟩)

-- Work runs while it is queued, the timer expires while it is armed.
def Unloading.enabled (exit : List (ExitStep P)) (s : Unloading J P) : Step w J → Prop
  | .fire (.feed _) => s.current.monitor.delayedWork.isSome = true
  | .fire (.timeout _) => s.current.monitor.timer.pending = true
  | .taskInfo => s.current.monitor.taskWork = true
  | .exit => s.pc < exit.length

-- No handler that can run now would queue on a destroyed workqueue or read a freed array.
def Unloading.Harmless (d : Driver w J P L) (exit : List (ExitStep P)) (s : Unloading J P) : Prop :=
  ∀ firing fault, s.enabled exit (.fire firing) → d.fire s.current firing = .error fault →
    fault ≠ .destroyedQueue ∧ fault ≠ .afterFree

def Unloading.Quiet (s : Unloading J P) : Prop :=
  s.current.monitor.timer.pending = false ∧ s.current.monitor.delayedWork = none ∧ s.current.monitor.taskWork = false

def exits (evs : List (Step w J)) : Nat := evs.countP Step.isExit

-- The feed work ran between del_timer_sync and cancel_delayed_work_sync.
def WindowFeed (evs : List (Step w J)) : Prop :=
  ∃ before feed after, evs = before ++ feed :: after ∧ feed.isFeed = true ∧ exits before = 1

theorem exits_append (before after : List (Step w J)) : exits (before ++ after) = exits before + exits after :=
  List.countP_append

theorem window_feed_next (evs : List (Step w J)) (e : Step w J) :
    WindowFeed (evs ++ [e]) ↔ WindowFeed evs ∨ e.isFeed = true ∧ exits evs = 1 := by
  constructor
  · rintro ⟨before, feed, after, split, isFeed, window⟩
    rcases List.eq_nil_or_concat after with rfl | ⟨shorter, last, rfl⟩
    · obtain ⟨rfl, same⟩ := List.append_inj' split rfl
      obtain rfl : e = feed := by simpa using same
      exact .inr ⟨isFeed, window⟩
    · have rest : evs ++ [e] = (before ++ feed :: shorter) ++ [last] := by simpa using split
      obtain ⟨rfl, _⟩ := List.append_inj' rest rfl
      exact .inl ⟨before, feed, shorter, rfl, isFeed, window⟩
  · rintro (⟨before, feed, after, rfl, isFeed, window⟩ | ⟨isFeed, window⟩)
    · exact ⟨before, feed, after ++ [e], by simp, isFeed, window⟩
    · exact ⟨evs, e, [], rfl, isFeed, window⟩

-- The exit functions stop the three objects in one order and free arrays last.
def Unloads (exit : List (ExitStep P)) : Prop :=
  ∃ frees, exit = [.delTimerSync, .cancelDelayedWorkSync, .cancelWorkSync, .destroyWorkqueue, .destroyTaskWorkqueue] ++
    frees ∧ ∀ step ∈ frees, ∃ release, step = .kfree release

theorem unloads_cases (exit : List (ExitStep P)) (unloads : Unloads exit) (pc : Nat) (step : ExitStep P)
    (at_ : exit[pc]? = some step) :
    (pc = 0 ∧ step = .delTimerSync) ∨ (pc = 1 ∧ step = .cancelDelayedWorkSync) ∨ (pc = 2 ∧ step = .cancelWorkSync) ∨
      (pc = 3 ∧ step = .destroyWorkqueue) ∨ (pc = 4 ∧ step = .destroyTaskWorkqueue) ∨
      (5 ≤ pc ∧ ∃ release, step = .kfree release) := by
  obtain ⟨frees, rfl, onlyFrees⟩ := unloads
  match pc with
  | 0 => simp at at_; simp [at_]
  | 1 => simp at at_; simp [at_]
  | 2 => simp at at_; simp [at_]
  | 3 => simp at at_; simp [at_]
  | 4 => simp at at_; simp [at_]
  | k + 5 =>
      have free : frees[k]? = some step := by simpa using at_
      have release := onlyFrees step (List.mem_of_getElem? free)
      simp [release]

-- Everything an exit step can do, by its place in the function.
theorem exit_step_cases (exit : List (ExitStep P)) (unloads : Unloads exit) (pc : Nat) (step : ExitStep P)
    (at_ : exit[pc]? = some step) (m next : Module J P) (done : step.run m = .ok next) :
    (pc = 0 ∧ next = { m with monitor := { m.monitor with timer := { m.monitor.timer with pending := false } } }) ∨
      (pc = 1 ∧ next = { m with monitor := { m.monitor with delayedWork := none } }) ∨
      (pc = 2 ∧ next = { m with monitor := { m.monitor with taskWork := false } }) ∨
      (pc = 3 ∧ ∃ wq, next = { m with monitor := { m.monitor with wq := wq } }) ∨
      (pc = 4 ∧ ∃ taskWq, next = { m with monitor := { m.monitor with taskWq := taskWq, taskWork := false } }) ∨
      (5 ≤ pc ∧ ∃ prev, next = { m with prev := prev }) := by
  rcases unloads_cases exit unloads pc step at_ with
    ⟨rfl, rfl⟩ | ⟨rfl, rfl⟩ | ⟨rfl, rfl⟩ | ⟨rfl, rfl⟩ | ⟨rfl, rfl⟩ | ⟨later, release, rfl⟩
  · exact .inl ⟨rfl, (Except.ok.inj done).symm⟩
  · exact .inr (.inl ⟨rfl, (Except.ok.inj done).symm⟩)
  · exact .inr (.inr (.inl ⟨rfl, (Except.ok.inj done).symm⟩))
  · obtain ⟨wq, _, same⟩ := (except_bind_ok _ _ _).mp done
    exact .inr (.inr (.inr (.inl ⟨rfl, wq, (Except.ok.inj same).symm⟩)))
  · obtain ⟨taskWq, _, same⟩ := (except_bind_ok _ _ _).mp done
    exact .inr (.inr (.inr (.inr (.inl ⟨rfl, taskWq, (Except.ok.inj same).symm⟩))))
  · obtain ⟨prev, _, same⟩ := (except_bind_ok _ _ _).mp done
    exact .inr (.inr (.inr (.inr (.inr ⟨later, prev, (Except.ok.inj same).symm⟩))))

-- What the exit function has stopped by now stays stopped.
structure Unwinding (freed : P → Prop) (s : Unloading J P) : Prop where
  wq : s.current.monitor.wq = .destroyed → 4 ≤ s.pc
  taskWq : s.current.monitor.taskWq = .destroyed → 5 ≤ s.pc
  prev : freed s.current.prev → 6 ≤ s.pc
  timer : 1 ≤ s.pc → s.current.monitor.timer.pending = false
  delayedWork : 2 ≤ s.pc → s.current.monitor.delayedWork = none
  taskWork : 3 ≤ s.pc → s.current.monitor.taskWork = false

theorem unwinding_exit (freed : P → Prop) (exit : List (ExitStep P)) (unloads : Unloads exit) (s : Unloading J P)
    (unwinding : Unwinding freed s) (step : ExitStep P) (at_ : exit[s.pc]? = some step) (next : Module J P)
    (done : step.run s.current = .ok next) : Unwinding freed ⟨next, s.pc + 1⟩ := by
  obtain ⟨wq, taskWq, prev, timer, delayedWork, taskWork⟩ := unwinding
  rcases exit_step_cases exit unloads s.pc step at_ s.current next done with
    ⟨pc, rfl⟩ | ⟨pc, rfl⟩ | ⟨pc, rfl⟩ | ⟨pc, _, rfl⟩ | ⟨pc, _, rfl⟩ | ⟨pc, _, rfl⟩ <;>
  constructor <;> grind

theorem exit_keeps_timer (exit : List (ExitStep P)) (unloads : Unloads exit) (pc : Nat) (begun : 1 ≤ pc) (step : ExitStep P)
    (at_ : exit[pc]? = some step) (m next : Module J P) (done : step.run m = .ok next) :
    next.monitor.timer = m.monitor.timer := by
  rcases exit_step_cases exit unloads pc step at_ m next done with
    ⟨start, _⟩ | ⟨_, rfl⟩ | ⟨_, rfl⟩ | ⟨_, _, rfl⟩ | ⟨_, _, rfl⟩ | ⟨_, _, rfl⟩
  · omega
  all_goals rfl

section Runs

variable [Add J] (d : Driver w J P L) (p : Platform J) (delay : UInt32) (policy : Policy) (freed : P → Prop)
  (exit : List (ExitStep P))

theorem fire_keeps (follows : Follows d p delay policy) (careful : Careful d freed) (m next : Module J P)
    (firing : Firing w J) (out : Output L) (done : d.fire m firing = .ok (out, next)) :
    next.monitor.wq = m.monitor.wq ∧ next.monitor.taskWq = m.monitor.taskWq ∧ (freed next.prev ↔ freed m.prev) := by
  cases firing with
  | feed env =>
      have kept := careful.feedKeeps env _ out next done
      rw [follows.feed env _ out next done]
      exact ⟨rfl, rfl, kept⟩
  | timeout env =>
      have kept := careful.timeoutKeeps env _ out next done
      rw [(follows.timeout env _ out next done).1]
      exact ⟨rfl, rfl, kept⟩

-- Without a feed in the window a handler only runs before the first exit step.
omit [Add J] in
theorem unwinding_fires (s : Unloading J P) (unwinding : Unwinding freed s) (firing : Firing w J)
    (allowed : s.enabled exit (.fire firing)) : s.pc = 0 ∨ (Step.fire firing).isFeed = true ∧ s.pc = 1 := by
  cases firing with
  | feed env =>
      have queued : s.current.monitor.delayedWork ≠ none := Option.isSome_iff_ne_none.mp allowed
      have early : ¬ 2 ≤ s.pc := fun late => queued (unwinding.delayedWork late)
      simp only [Step.isFeed, true_and]
      omega
  | timeout env =>
      have armed : s.current.monitor.timer.pending = true := allowed
      have early : ¬ 1 ≤ s.pc := fun later => by
        rw [unwinding.timer later] at armed
        cases armed
      exact .inl (by omega)

theorem unwinding_step (follows : Follows d p delay policy) (careful : Careful d freed) (unloads : Unloads exit)
    (s next : Unloading J P) (unwinding : Unwinding freed s) (e : Step w J) (allowed : s.enabled exit e)
    (outside : e.isFeed = true → s.pc ≠ 1) (out : Output L) (done : s.step d exit e = .ok (out, next)) :
    Unwinding freed next := by
  cases e with
  | fire firing =>
      obtain ⟨⟨out', current⟩, ran, same⟩ := (except_bind_ok _ _ _).mp done
      cases same
      have start : s.pc = 0 :=
        (unwinding_fires freed exit s unwinding firing allowed).resolve_right fun window => outside window.1 window.2
      obtain ⟨wq, taskWq, prev⟩ := fire_keeps d p delay policy freed follows careful s.current current firing out ran
      refine ⟨fun gone => unwinding.wq (wq ▸ gone), fun gone => unwinding.taskWq (taskWq ▸ gone),
        fun gone => unwinding.prev (prev.mp gone), fun begun => ?_, fun begun => ?_, fun begun => ?_⟩ <;>
      · rw [start] at begun
        cases begun
  | taskInfo =>
      cases done
      exact ⟨unwinding.wq, unwinding.taskWq, unwinding.prev, unwinding.timer, unwinding.delayedWork, fun _ => rfl⟩
  | exit =>
      cases at_ : exit[s.pc]? with
      | none =>
          rw [Unloading.step, at_] at done
          cases done
          exact unwinding
      | some step =>
          rw [Unloading.step, at_] at done
          obtain ⟨current, ran, same⟩ := (except_bind_ok _ _ _).mp done
          cases same
          exact unwinding_exit freed exit unloads s unwinding step at_ current ran

omit [Add J] in
theorem step_exits (s next : Unloading J P) (e : Step w J) (allowed : s.enabled exit e) (out : Output L)
    (done : s.step d exit e = .ok (out, next)) : next.pc = s.pc + exits [e] := by
  cases e with
  | fire firing =>
      obtain ⟨⟨out', current⟩, _, same⟩ := (except_bind_ok _ _ _).mp done
      cases same
      rfl
  | taskInfo =>
      cases done
      rfl
  | exit =>
      have bound : s.pc < exit.length := allowed
      rw [Unloading.step, List.getElem?_eq_getElem bound] at done
      obtain ⟨current, _, same⟩ := (except_bind_ok _ _ _).mp done
      cases same
      rfl

theorem unwinding_run (follows : Follows d p delay policy) (careful : Careful d freed) (unloads : Unloads exit)
    (start : Module J P) (fresh : Unwinding freed ⟨start, 0⟩) (evs : List (Step w J)) (outs : List (Output L))
    (s : Unloading J P) (run : Run (Unloading.step d exit) (Unloading.enabled exit) ⟨start, 0⟩ evs outs s)
    (outside : ¬ WindowFeed evs) : Unwinding freed s := by
  have inv := Run.rule _ _ _ (fun evs _ s => s.pc = exits evs ∧ (¬ WindowFeed evs → Unwinding freed s))
    ⟨rfl, fun _ => fresh⟩ (by
      intro evs outs middle e out after ⟨counted, kept⟩ allowed done
      refine ⟨by rw [step_exits d exit middle after e allowed out done, counted, exits_append], fun outside => ?_⟩
      rw [window_feed_next] at outside
      refine unwinding_step d p delay policy freed exit follows careful unloads middle after
        (kept fun earlier => outside (.inl earlier)) e allowed (fun isFeed window => outside (.inr ⟨isFeed, ?_⟩)) out done
      rw [← counted, window]) evs outs s run
  exact inv.2 outside

omit [Add J] in
theorem unwinding_harmless (careful : Careful d freed) (s : Unloading J P) (unwinding : Unwinding freed s) :
    s.Harmless d exit := by
  intro firing fault allowed failed
  have early : s.pc ≤ 1 := by
    rcases unwinding_fires freed exit s unwinding firing allowed with start | ⟨_, window⟩ <;> omega
  have kept : ¬ freed s.current.prev := fun gone => by
    have late := unwinding.prev gone
    omega
  cases firing with
  | feed env =>
      obtain ⟨queue, prev⟩ := careful.feedBlames env _ fault failed
      refine ⟨fun blamed => ?_, fun blamed => kept (prev blamed)⟩
      have late := unwinding.wq (queue blamed)
      omega
  | timeout env =>
      obtain ⟨queue, prev⟩ := careful.timeoutBlames env _ fault failed
      refine ⟨fun blamed => ?_, fun blamed => kept (prev blamed)⟩
      have late := unwinding.taskWq (queue blamed)
      omega

omit [Add J] in
theorem unwinding_quiet (unloads : Unloads exit) (s : Unloading J P) (unwinding : Unwinding freed s)
    (returned : s.pc = exit.length) : s.Quiet := by
  obtain ⟨frees, rfl, _⟩ := unloads
  have late : 5 ≤ s.pc := by simp [returned]
  exact ⟨unwinding.timer (by omega), unwinding.delayedWork (by omega), unwinding.taskWork (by omega)⟩

-- After del_timer_sync nothing stops a timer that every timeout arms anew.
theorem armed_step (follows : Follows d p delay policy) (always : ∀ count, policy.rearms count = true)
    (unloads : Unloads exit) (s next : Unloading J P) (begun : 1 ≤ s.pc) (e : Step w J)
    (armed : e.isFeed = true ∨ s.current.monitor.timer.pending = true) (out : Output L)
    (done : s.step d exit e = .ok (out, next)) : next.current.monitor.timer.pending = true := by
  cases e with
  | fire firing =>
      obtain ⟨⟨out', current⟩, ran, same⟩ := (except_bind_ok _ _ _).mp done
      cases same
      cases firing with
      | feed env =>
          rw [follows.feed env _ out current ran]
          rfl
      | timeout env =>
          rw [(follows.timeout env _ out current ran).1, LoadMonitor.afterTimeout, if_pos (always _)]
  | taskInfo =>
      cases done
      exact armed.resolve_left (by simp [Step.isFeed])
  | exit =>
      have still := armed.resolve_left (by simp [Step.isFeed])
      cases at_ : exit[s.pc]? with
      | none =>
          rw [Unloading.step, at_] at done
          cases done
          exact still
      | some step =>
          rw [Unloading.step, at_] at done
          obtain ⟨current, stepped, same⟩ := (except_bind_ok _ _ _).mp done
          cases same
          rw [exit_keeps_timer exit unloads s.pc begun step at_ s.current current stepped]
          exact still

theorem window_feed_armed (follows : Follows d p delay policy) (always : ∀ count, policy.rearms count = true)
    (unloads : Unloads exit) (start : Module J P) (evs : List (Step w J)) (outs : List (Output L)) (s : Unloading J P)
    (run : Run (Unloading.step d exit) (Unloading.enabled exit) ⟨start, 0⟩ evs outs s) (window : WindowFeed evs) :
    s.current.monitor.timer.pending = true := by
  have inv := Run.rule _ _ _ (fun evs _ s => s.pc = exits evs ∧
      (WindowFeed evs → 1 ≤ s.pc ∧ s.current.monitor.timer.pending = true))
    ⟨rfl, by rintro ⟨before, feed, after, split, _⟩; simp at split⟩ (by
      intro evs outs middle e out after ⟨counted, kept⟩ allowed done
      have count := step_exits d exit middle after e allowed out done
      refine ⟨by rw [count, counted, exits_append], fun window => ?_⟩
      have now : 1 ≤ middle.pc ∧ (e.isFeed = true ∨ middle.current.monitor.timer.pending = true) := by
        rcases (window_feed_next evs e).mp window with earlier | ⟨isFeed, begun⟩
        · exact ⟨(kept earlier).1, .inr (kept earlier).2⟩
        · exact ⟨by omega, .inl isFeed⟩
      exact ⟨by omega, armed_step d p delay policy exit follows always unloads middle after now.1 e now.2 out done⟩) evs outs
    s run
  exact (inv.2 window).2

end Runs

theorem unloads_load_softwdt2 (w : Nat) : Unloads (LoadSoftwdt2.exit w) :=
  ⟨[.kfree PrevArrays.kfreeIdle, .kfree PrevArrays.kfreeTotal, .kfree PrevArrays.kfreeInterrupt], rfl, by simp⟩

theorem unloads_load_softwdt3 (w : Nat) : Unloads (LoadSoftwdt3.exit w) := ⟨[.kfree Block.kfree], rfl, by simp⟩

theorem unwinding_start (freed : P → Prop) (m : Module J P) (wq : m.monitor.wq ≠ .destroyed)
    (taskWq : m.monitor.taskWq ≠ .destroyed) (prev : ¬ freed m.prev) : Unwinding freed ⟨m, 0⟩ where
  wq gone := absurd gone wq
  taskWq gone := absurd gone taskWq
  prev gone := absurd gone prev
  timer begun := absurd begun (by simp)
  delayedWork begun := absurd begun (by simp)
  taskWork begun := absurd begun (by simp)

theorem kzalloc_not_freed (w numCpus : Nat) (ok : Bool) : kzallocCpus w numCpus ok ≠ .freed := by
  cases ok <;> simp [kzallocCpus]

theorem unwinding_load_softwdt2 [Add J] (p : Platform J) (w : Nat) (jiffies : J)
    (wqOk taskWqOk idleOk totalOk interruptOk : Bool) :
    Unwinding PrevArrays.Freed ⟨(LoadSoftwdt2.init p w jiffies wqOk taskWqOk idleOk totalOk interruptOk).2, 0⟩ := by
  apply unwinding_start
  all_goals
    unfold LoadSoftwdt2.init
    split_ifs <;> simp [LoadMonitor.fresh, PrevArrays.Freed, kzalloc_not_freed]

theorem unwinding_load_softwdt3 [Add J] (p : Platform J) (w : Nat) (jiffies : J) (wqOk taskWqOk prevOk : Bool) :
    Unwinding (fun prev => prev = .freed) ⟨(LoadSoftwdt3.init p w jiffies wqOk taskWqOk prevOk).2, 0⟩ := by
  apply unwinding_start
  all_goals
    unfold LoadSoftwdt3.init
    split_ifs <;> simp [LoadMonitor.fresh]

theorem exit_quiet_without_window_feed [Add J] (p : Platform J) (w : Nat) (jiffies : J) :
    (∀ wqOk taskWqOk prevOk evs outs s,
      Run (Unloading.step (LoadSoftwdt3.driver p) (LoadSoftwdt3.exit w)) (Unloading.enabled (LoadSoftwdt3.exit w))
        ⟨(LoadSoftwdt3.init p w jiffies wqOk taskWqOk prevOk).2, 0⟩ evs outs s →
      (¬ WindowFeed evs → s.Harmless (LoadSoftwdt3.driver p) (LoadSoftwdt3.exit w)) ∧
        (s.pc = (LoadSoftwdt3.exit w).length → (s.Quiet ↔ ¬ WindowFeed evs))) ∧
    ∀ wqOk taskWqOk idleOk totalOk interruptOk evs outs s,
      Run (Unloading.step (LoadSoftwdt2.driver p) (LoadSoftwdt2.exit w)) (Unloading.enabled (LoadSoftwdt2.exit w))
        ⟨(LoadSoftwdt2.init p w jiffies wqOk taskWqOk idleOk totalOk interruptOk).2, 0⟩ evs outs s →
      ¬ WindowFeed evs → s.Harmless (LoadSoftwdt2.driver p) (LoadSoftwdt2.exit w) ∧
        (s.pc = (LoadSoftwdt2.exit w).length → s.Quiet) := by
  constructor
  · intro wqOk taskWqOk prevOk evs outs s run
    have unwinds := unwinding_run _ p _ _ _ _ (LoadSoftwdt3.follows p) (LoadSoftwdt3.careful p) (unloads_load_softwdt3 w) _
      (unwinding_load_softwdt3 p w jiffies wqOk taskWqOk prevOk) evs outs s run
    refine ⟨fun outside => unwinding_harmless _ _ _ (LoadSoftwdt3.careful p) s (unwinds outside), fun returned => ?_⟩
    constructor
    · intro quiet window
      have armed := window_feed_armed _ p _ _ _ (LoadSoftwdt3.follows p) (fun _ => rfl) (unloads_load_softwdt3 w) _ evs outs s
        run window
      rw [quiet.1] at armed
      cases armed
    · exact fun outside => unwinding_quiet _ _ (unloads_load_softwdt3 w) s (unwinds outside) returned
  · intro wqOk taskWqOk idleOk totalOk interruptOk evs outs s run outside
    have unwinds := unwinding_run _ p _ _ _ _ (LoadSoftwdt2.follows p) (LoadSoftwdt2.careful p) (unloads_load_softwdt2 w) _
      (unwinding_load_softwdt2 p w jiffies wqOk taskWqOk idleOk totalOk interruptOk) evs outs s run outside
    exact ⟨unwinding_harmless _ _ _ (LoadSoftwdt2.careful p) s unwinds, unwinding_quiet _ _ (unloads_load_softwdt2 w) s unwinds⟩

instance (exit : List (ExitStep P)) (s : Unloading J P) (e : Step w J) : Decidable (s.enabled exit e) :=
  match e with
  | .fire (.feed _) => inferInstanceAs (Decidable (_ = _))
  | .fire (.timeout _) => inferInstanceAs (Decidable (_ = _))
  | .taskInfo => inferInstanceAs (Decidable (_ = _))
  | .exit => inferInstanceAs (Decidable (_ < _))

-- The feed work that init queued runs right after del_timer_sync.
def lateFeed (frees : Nat) : List (Step 64 Nat) :=
  [.exit, .fire (.feed (idleEnv 0))] ++ List.replicate (4 + frees) .exit

def readsFreed {α : Type} (result : Except Fault α) : Bool :=
  match result with
  | .error fault => decide (fault = .afterFree)
  | .ok _ => false

theorem armed_after_exit (d : Driver w J P L) (exit : List (ExitStep P)) (start : Module J P) (evs : List (Step w J))
    (env : Env w J)
    (computed : (Run.eval (Unloading.step d exit) (Unloading.enabled exit) ⟨start, 0⟩ evs).any (fun result =>
      decide (result.2.pc = exit.length) && result.2.current.monitor.timer.pending &&
        readsFreed (d.fire result.2.current (.timeout env))) = true) :
    ∃ outs s, Run (Unloading.step d exit) (Unloading.enabled exit) ⟨start, 0⟩ evs outs s ∧ s.pc = exit.length ∧
      ¬ s.Quiet ∧ ¬ s.Harmless d exit := by
  obtain ⟨⟨outs, s⟩, ran, found⟩ := (Option.any_eq_true _ _).mp computed
  obtain ⟨⟨returned, armed⟩, stumbles⟩ : (s.pc = exit.length ∧ s.current.monitor.timer.pending = true) ∧
      readsFreed (d.fire s.current (.timeout env)) = true := by simpa using found
  refine ⟨outs, s, Run.eval_run _ _ _ s evs outs ran, returned, fun quiet => ?_, fun harmless => ?_⟩
  · rw [quiet.1] at armed
    cases armed
  · cases failed : d.fire s.current (.timeout env) with
    | ok next => simp [readsFreed, failed] at stumbles
    | error fault =>
        have freed : fault = .afterFree := by simpa [readsFreed, failed] using stumbles
        exact (harmless (.timeout env) fault armed failed).2 freed

theorem late_feed_leaves_timer :
    (∃ outs s, Run (Unloading.step (LoadSoftwdt3.driver twoCpus) (LoadSoftwdt3.exit 64))
      (Unloading.enabled (LoadSoftwdt3.exit 64)) ⟨(LoadSoftwdt3.init twoCpus 64 0 true true true).2, 0⟩ (lateFeed 1) outs s ∧
      s.pc = (LoadSoftwdt3.exit 64).length ∧ ¬ s.Quiet ∧ ¬ s.Harmless (LoadSoftwdt3.driver twoCpus) (LoadSoftwdt3.exit 64)) ∧
    ∃ outs s, Run (Unloading.step (LoadSoftwdt2.driver twoCpus) (LoadSoftwdt2.exit 64))
      (Unloading.enabled (LoadSoftwdt2.exit 64)) ⟨(LoadSoftwdt2.init twoCpus 64 0 true true true true true).2, 0⟩
      (lateFeed 3) outs s ∧
      s.pc = (LoadSoftwdt2.exit 64).length ∧ ¬ s.Quiet ∧ ¬ s.Harmless (LoadSoftwdt2.driver twoCpus) (LoadSoftwdt2.exit 64) :=
  ⟨armed_after_exit _ _ _ _ (idleEnv 4000) (by decide +kernel), armed_after_exit _ _ _ _ (idleEnv 4000) (by decide +kernel)⟩

end LinuxModule.Softwdt
