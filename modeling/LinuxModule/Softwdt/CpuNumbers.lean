import LinuxModule.Softwdt.Hotplug
import LinuxModule.Softwdt.Teardown

set_option autoImplicit false

namespace LinuxModule.Softwdt

variable {w : Nat} {J P L : Type}

-- Each array access of the handler lies inside the num_cpus cells, and work goes to
-- CPUs that are online.
def ValidCpus (d : Driver w J P L) (m : Module J P) (e : Firing w J) : Prop :=
  armedGuard m e → d.fire m e ≠ .error .outOfBounds ∧
    ∀ out next, d.fire m e = .ok (out, next) → ∀ cpu ∈ out.queuedOn, cpu ∈ e.env.online

-- The queue_delayed_work_on(0, ...) at the end of init.
def startedOn (m : Module J P) : List Nat := if m.monitor.delayedWork.isSome then [0] else []

def Reports (policy : UInt32 → Bool) (m : Module J P) (e : Firing w J) : Prop :=
  e.isTimeout = true ∧ policy (m.monitor.timeoutCount + 1) = true

def Fit (p : Platform J) (cpus : List Nat) : Prop := ∀ cpu ∈ cpus, cpu < p.possible.length

def LoadSoftwdt3.CpusFit (p : Platform J) (m : Module J P) (e : Firing w J) : Prop :=
  armedGuard m e → Fit p e.env.online ∧ (Reports cadence m e → 1 ∈ e.env.online)

def LoadSoftwdt2.CpusFit (p : Platform J) (m : Module J P) (e : Firing w J) : Prop :=
  armedGuard m e → (e.isTimeout = false ∨ Reports keepTry m e → Fit p p.possible) ∧ (Reports keepTry m e → 1 ∈ e.env.online)

theorem block_read_outside {α : Type} (cells : List α) (i : Nat) (outside : ¬ i < cells.length) :
    (Block.live cells).read i = .error .outOfBounds := by
  rw [Block.read, List.getElem?_eq_none (Nat.le_of_not_lt outside)]

theorem block_write_outside {α : Type} (cells : List α) (i : Nat) (cell : α) (outside : ¬ i < cells.length) :
    (Block.live cells).write i cell = .error .outOfBounds := by
  rw [Block.write, if_neg outside]

theorem in_range_cons (cpu : Nat) (rest : List Nat) (cells : List (CpuTimes w)) :
    InRange (cpu :: rest) cells ↔ cpu < cells.length ∧ InRange rest cells := List.forall_mem_cons

theorem in_range_set (cpus : List Nat) (cells : List (CpuTimes w)) (i : Nat) (cell : CpuTimes w) :
    InRange cpus (cells.set i cell) ↔ InRange cpus cells := by
  rw [InRange, InRange, List.length_set]

theorem feed_with_queues [Add J] (p : Platform J) (kick : Module J P → Except Fault (Module J P)) (env : Env w J)
    (m next : Module J P) (out : Output L) (done : feedWith p kick env m = .ok (out, next)) : out.queuedOn = [0] := by
  obtain ⟨kicked, ran, rest⟩ := (except_bind_ok _ _ _).mp done
  obtain ⟨monitor, queued, same⟩ := (except_bind_ok _ _ _).mp rest
  cases same
  rfl

-- The feed work queues on CPU 0, so only its kick decides.
theorem feed_with_valid_iff [Add J] (p : Platform J) (kick : Module J P → Except Fault (Module J P)) (env : Env w J)
    (m : Module J P) (range : Prop) (inside : range → ∃ kicked, kick m = .ok kicked ∧ kicked.monitor.wq = .live)
    (outside : ¬ range → kick m = .error .outOfBounds) (zero : 0 ∈ env.online) :
    (feedWith (L := L) p kick env m ≠ .error .outOfBounds ∧
      ∀ (out : Output L) next, feedWith p kick env m = .ok (out, next) → ∀ cpu ∈ out.queuedOn, cpu ∈ env.online) ↔ range := by
  by_cases fits : range
  · obtain ⟨kicked, ran, wq⟩ := inside fits
    have returns : feedWith (L := L) p kick env m ≠ .error .outOfBounds := by
      simp [feedWith, ran, LoadMonitor.queueDelayedWork, wq, Queue.accept]
    refine iff_of_true ⟨returns, fun out next done cpu queued => ?_⟩ fits
    rw [feed_with_queues p kick env m next out done, List.mem_singleton] at queued
    rwa [queued]
  · have failed : feedWith (L := L) p kick env m = .error .outOfBounds := by
      rw [feedWith, outside fits]
      rfl
    exact iff_of_false (fun valid => valid.1 failed) fits

-- The module between two handlers, its arrays given by their cells.
structure Ready (p : Platform J) (arrays : List (CpuTimes w) → P) (m : Module J P) : Prop where
  wq : m.monitor.wq = .live
  taskWq : m.monitor.taskWq = .live
  prev : ∃ cells, m.prev = arrays cells ∧ cells.length = p.possible.length

theorem ready_fire [Add J] (d : Driver w J P L) (p : Platform J) (delay : UInt32) (policy : Policy) (freed : P → Prop)
    (follows : Follows d p delay policy) (careful : Careful d freed) (arrays : List (CpuTimes w) → P)
    (sized : ∀ m e out next cells, d.fire m e = .ok (out, next) → m.prev = arrays cells →
      ∃ after, next.prev = arrays after ∧ after.length = cells.length)
    (m next : Module J P) (ready : Ready p arrays m) (e : Firing w J) (out : Output L)
    (done : d.fire m e = .ok (out, next)) : Ready p arrays next := by
  obtain ⟨wq, taskWq, cells, saved, size⟩ := ready
  obtain ⟨sameWq, sameTaskWq, _⟩ := fire_keeps d p delay policy freed follows careful m next e out done
  obtain ⟨after, savedAfter, sizeAfter⟩ := sized m e out next cells done saved
  exact ⟨sameWq.trans wq, sameTaskWq.trans taskWq, after, savedAfter, sizeAfter.trans size⟩

namespace LoadSoftwdt3

-- The first CPU number past the cells stops either operation.
theorem stats_loop_outside (op : CpuMetricOperation) (kcpustat : Nat → KCpuStat (BitVec w)) (cpus : List Nat)
    (cells : List (CpuTimes w)) (outside : ¬ InRange cpus cells) :
    cpuStatsLoop op kcpustat cpus (.live cells) = .error .outOfBounds := by
  induction cpus generalizing cells with
  | nil => exact absurd (by simp [InRange]) outside
  | cons cpu rest ih =>
      by_cases bound : cpu < cells.length
      · have later : ¬ InRange rest cells := fun range => outside ((in_range_cons ..).mpr ⟨bound, range⟩)
        rw [cpuStatsLoop, block_read_live cells cpu ⟨0, 0, 0⟩ bound, except_ok_bind]
        cases op with
        | calculateUsage =>
            rw [ih cells later]
            rfl
        | collectTimings =>
            simp only [block_write_live cells cpu _ bound, except_ok_bind]
            exact ih _ (mt (in_range_set ..).mp later)
      · rw [cpuStatsLoop, block_read_outside cells cpu bound]
        rfl

variable [Add J] (p : Platform J)

theorem kick_outside (env : Env w J) (m : Module J (PrevCpuUsageStats w)) (cells : List (CpuTimes w))
    (saved : m.prev = .live cells) (outside : ¬ InRange env.online cells) : kick p env m = .error .outOfBounds := by
  rw [kick, calculateCpuStats, saved, stats_loop_outside _ _ _ _ outside]
  rfl

theorem feed_valid_iff (env : Env w J) (m : Module J (PrevCpuUsageStats w)) (cells : List (CpuTimes w))
    (saved : m.prev = .live cells) (wq : m.monitor.wq = .live) (zero : 0 ∈ env.online) :
    (feedTask p env m ≠ .error .outOfBounds ∧
      ∀ out next, feedTask p env m = .ok (out, next) → ∀ cpu ∈ out.queuedOn, cpu ∈ env.online) ↔
    InRange env.online cells := by
  refine feed_with_valid_iff p (kick p env) env m _ (fun range => ?_) (kick_outside p env m cells saved) zero
  obtain ⟨kicked, ran, _⟩ := kick_live p env m cells saved range
  obtain ⟨_, _, armed⟩ := kick_ok p env m kicked ran
  exact ⟨kicked, ran, by rw [armed]; exact wq⟩

theorem timeout_outside (env : Env w J) (m : Module J (PrevCpuUsageStats w)) (cells : List (CpuTimes w))
    (saved : m.prev = .live cells) (outside : ¬ InRange env.online cells) : timeout p env m = .error .outOfBounds := by
  cases due : cadence m.countTimeout.monitor.timeoutCount with
  | false =>
      have kicked := kick_outside p env m.countTimeout cells saved outside
      simp only [timeout, report_by_count_not_due _ env m.countTimeout due, except_ok_bind, kicked]
      rfl
  | true =>
      have calculated : calculateCpuStats .calculateUsage env m.countTimeout.prev = .error .outOfBounds := by
        rw [calculateCpuStats, Module.countTimeout, saved, stats_loop_outside _ _ _ _ outside]
      simp only [timeout, report_by_count_due _ env m.countTimeout due, report, calculated]
      rfl

theorem timeout_valid_iff (env : Env w J) (m : Module J (PrevCpuUsageStats w)) (cells : List (CpuTimes w))
    (saved : m.prev = .live cells) (taskWq : m.monitor.taskWq = .live) :
    (timeout p env m ≠ .error .outOfBounds ∧
      ∀ out next, timeout p env m = .ok (out, next) → ∀ cpu ∈ out.queuedOn, cpu ∈ env.online) ↔
    InRange env.online cells ∧ (cadence (m.monitor.timeoutCount + 1) = true → 1 ∈ env.online) := by
  by_cases range : InRange env.online cells
  · obtain ⟨out, next, ran, _⟩ := timeout_live p env m cells saved range taskWq
    obtain ⟨_, _, due, idle⟩ := timeout_ok p env m next out ran
    rw [ran]
    cases reports : cadence (m.monitor.timeoutCount + 1) with
    | false => simp [range, idle reports]
    | true =>
        obtain ⟨lines, _, rfl⟩ := due reports
        simp [range]
  · exact iff_of_false (fun valid => valid.1 (timeout_outside p env m cells saved range)) fun fit => range fit.1

theorem valid_cpus_iff (m : Module J (PrevCpuUsageStats w)) (ready : Ready p .live m) (e : Firing w J) (zero : 0 ∈ e.env.online) :
    ValidCpus (driver p) m e ↔ CpusFit p m e := by
  obtain ⟨wq, taskWq, cells, saved, size⟩ := ready
  apply imp_congr_right
  intro _
  rw [Fit, ← size]
  cases e with
  | feed env =>
      refine (feed_valid_iff p env { m with monitor := { m.monitor with delayedWork := none } } cells saved
        wq zero).trans (and_iff_left fun reports => ?_).symm
      cases reports.1
  | timeout env =>
      simp only [Reports, Firing.isTimeout, true_and]
      exact timeout_valid_iff p env { m with monitor := { m.monitor with timer := ⟨false, m.monitor.timer.expires⟩ } } cells
        saved taskWq

theorem ready_fire (m next : Module J (PrevCpuUsageStats w)) (ready : Ready p .live m) (e : Firing w J) (out : Out w)
    (done : (driver p).fire m e = .ok (out, next)) : Ready p .live next := by
  refine Softwdt.ready_fire _ p _ _ _ (follows p) (careful p) .live ?_ m next ready e out done
  intro m e out next cells done saved
  exact ⟨_, (fire_collects p m next e out done cells saved).2, collect_length ..⟩

theorem ready_init (w : Nat) (jiffies : J) : Ready p .live (init p w jiffies true true true).2 :=
  ⟨rfl, rfl, _, rfl, List.length_replicate⟩

end LoadSoftwdt3

theorem of_cells_read_outside (cells : List (CpuTimes w)) (cpu : Nat) (outside : ¬ cpu < cells.length) :
    (PrevArrays.ofCells cells).read cpu = .error .outOfBounds := by
  rw [PrevArrays.read, PrevArrays.ofCells, block_read_outside _ _ (by rwa [List.length_map])]
  rfl

theorem of_cells_write_outside (cells : List (CpuTimes w)) (cpu : Nat) (now : CpuTimes w) (outside : ¬ cpu < cells.length) :
    (PrevArrays.ofCells cells).write cpu now = .error .outOfBounds := by
  rw [PrevArrays.write, PrevArrays.ofCells, block_write_outside _ _ _ (by rwa [List.length_map])]
  rfl

namespace LoadSoftwdt2

theorem statistics_loop_live (kcpustat : Nat → KCpuStat (BitVec w)) (cpus : List Nat) (cells : List (CpuTimes w))
    (range : InRange cpus cells) :
    statisticsLoop kcpustat cpus (.ofCells cells) = .ok (.ofCells (collect kcpustat cpus cells)) := by
  induction cpus generalizing cells with
  | nil => rfl
  | cons cpu rest ih =>
      obtain ⟨bound, later⟩ := (in_range_cons ..).mp range
      rw [statisticsLoop, of_cells_write cells cpu _ bound, except_ok_bind]
      exact ih _ ((in_range_set ..).mpr later)

theorem statistics_loop_outside (kcpustat : Nat → KCpuStat (BitVec w)) (cpus : List Nat) (cells : List (CpuTimes w))
    (outside : ¬ InRange cpus cells) : statisticsLoop kcpustat cpus (.ofCells cells) = .error .outOfBounds := by
  induction cpus generalizing cells with
  | nil => exact absurd (by simp [InRange]) outside
  | cons cpu rest ih =>
      by_cases bound : cpu < cells.length
      · have later : ¬ InRange rest cells := fun range => outside ((in_range_cons ..).mpr ⟨bound, range⟩)
        rw [statisticsLoop, of_cells_write cells cpu _ bound, except_ok_bind]
        exact ih _ (mt (in_range_set ..).mp later)
      · rw [statisticsLoop, of_cells_write_outside cells cpu _ bound]
        rfl

theorem usage_loop_outside (kcpustat : Nat → KCpuStat (BitVec w)) (cpus : List Nat) (cells : List (CpuTimes w))
    (outside : ¬ InRange cpus cells) : usageLoop kcpustat (.ofCells cells) cpus = .error .outOfBounds := by
  induction cpus with
  | nil => exact absurd (by simp [InRange]) outside
  | cons cpu rest ih =>
      by_cases bound : cpu < cells.length
      · have later : ¬ InRange rest cells := fun range => outside ((in_range_cons ..).mpr ⟨bound, range⟩)
        rw [usageLoop, of_cells_read cells cpu bound, except_ok_bind, ih later]
        rfl
      · rw [usageLoop, of_cells_read_outside cells cpu bound]
        rfl

variable [Add J] (p : Platform J)

theorem kick_live (env : Env w J) (m : Module J (PrevArrays w)) (cells : List (CpuTimes w))
    (saved : m.prev = .ofCells cells) (range : InRange p.possible cells) : ∃ next, kick p env m = .ok next := by
  rw [kick, statisticsCpuTime, saved, statistics_loop_live _ _ _ range]
  exact ⟨_, rfl⟩

theorem kick_outside (env : Env w J) (m : Module J (PrevArrays w)) (cells : List (CpuTimes w))
    (saved : m.prev = .ofCells cells) (outside : ¬ InRange p.possible cells) : kick p env m = .error .outOfBounds := by
  rw [kick, statisticsCpuTime, saved, statistics_loop_outside _ _ _ outside]
  rfl

theorem feed_valid_iff (env : Env w J) (m : Module J (PrevArrays w)) (cells : List (CpuTimes w))
    (saved : m.prev = .ofCells cells) (wq : m.monitor.wq = .live) (zero : 0 ∈ env.online) :
    (feedTask p env m ≠ .error .outOfBounds ∧
      ∀ out next, feedTask p env m = .ok (out, next) → ∀ cpu ∈ out.queuedOn, cpu ∈ env.online) ↔
    InRange p.possible cells := by
  refine feed_with_valid_iff p (kick p env) env m _ (fun range => ?_) (kick_outside p env m cells saved) zero
  obtain ⟨kicked, ran⟩ := kick_live p env m cells saved range
  exact ⟨kicked, ran, by rw [(kick_ok p env m kicked ran).2]; exact wq⟩

theorem report_and_kick_live (env : Env w J) (m : Module J (PrevArrays w)) (cells : List (CpuTimes w))
    (saved : m.prev = .ofCells cells) (range : InRange p.possible cells) (taskWq : m.monitor.taskWq = .live) :
    ∃ lines next, reportAndKick p env m = .ok (⟨some lines, [1]⟩, next) := by
  have calculated : calculateCpuUsage p env m.prev = .ok (p.possible.map (usage env.kcpustat cells)) := by
    rw [calculateCpuUsage, saved, usage_loop_cells _ _ _ range]
  have queued : m.monitor.queueWork = .ok { m.monitor with taskWork := true } := by
    simp [LoadMonitor.queueWork, taskWq, Queue.accept]
  obtain ⟨kicked, ran⟩ := kick_live p env { m with monitor := { m.monitor with taskWork := true } } cells saved range
  refine ⟨p.possible.map (usage env.kcpustat cells), kicked, ?_⟩
  simp only [reportAndKick, calculated, queued, ran, except_ok_bind]

theorem report_and_kick_outside (env : Env w J) (m : Module J (PrevArrays w)) (cells : List (CpuTimes w))
    (saved : m.prev = .ofCells cells) (outside : ¬ InRange p.possible cells) :
    reportAndKick p env m = .error .outOfBounds := by
  rw [reportAndKick, calculateCpuUsage, saved, usage_loop_outside _ _ _ outside]
  rfl

theorem timeout_valid_iff (env : Env w J) (m : Module J (PrevArrays w)) (cells : List (CpuTimes w))
    (saved : m.prev = .ofCells cells) (taskWq : m.monitor.taskWq = .live) :
    (timeout p env m ≠ .error .outOfBounds ∧
      ∀ out next, timeout p env m = .ok (out, next) → ∀ cpu ∈ out.queuedOn, cpu ∈ env.online) ↔
    (keepTry (m.monitor.timeoutCount + 1) = true → InRange p.possible cells ∧ 1 ∈ env.online) := by
  cases due : keepTry (m.monitor.timeoutCount + 1) with
  | false =>
      rw [timeout, keep_trying_not_due _ m.countTimeout due]
      simp
  | true =>
      rw [timeout, keep_trying_due _ m.countTimeout due]
      by_cases range : InRange p.possible cells
      · obtain ⟨lines, next, ran⟩ := report_and_kick_live p env m.countTimeout cells saved range taskWq
        simp [ran, range]
      · have failed := report_and_kick_outside p env m.countTimeout cells saved range
        simp [failed, range]

theorem valid_cpus_iff (m : Module J (PrevArrays w)) (ready : Ready p .ofCells m) (e : Firing w J) (zero : 0 ∈ e.env.online) :
    ValidCpus (driver p) m e ↔ CpusFit p m e := by
  obtain ⟨wq, taskWq, cells, saved, size⟩ := ready
  apply imp_congr_right
  intro _
  rw [Fit, ← size]
  cases e with
  | feed env =>
      refine (feed_valid_iff p env { m with monitor := { m.monitor with delayedWork := none } } cells saved
        wq zero).trans ?_
      simp [Reports, Firing.isTimeout, InRange]
  | timeout env =>
      refine (timeout_valid_iff p env { m with monitor := { m.monitor with timer := ⟨false, m.monitor.timer.expires⟩ } } cells
        saved taskWq).trans ?_
      simp only [Reports, Firing.isTimeout, InRange, Firing.env]
      tauto

theorem ready_fire (m next : Module J (PrevArrays w)) (ready : Ready p .ofCells m) (e : Firing w J) (out : Out w)
    (done : (driver p).fire m e = .ok (out, next)) : Ready p .ofCells next := by
  refine Softwdt.ready_fire _ p _ _ _ (follows p) (careful p) .ofCells ?_ m next ready e out done
  intro m e out next cells done saved
  have collects : statisticsCpuTime p e.env m.prev = .ok next.prev →
      ∃ after, next.prev = .ofCells after ∧ after.length = cells.length := by
    intro collected
    rw [statisticsCpuTime, saved] at collected
    exact ⟨_, (statistics_loop_range _ _ _ _ collected).2, collect_length ..⟩
  cases e with
  | feed env => exact collects (feed_task_ok p env _ next out done).1
  | timeout env =>
      obtain ⟨_, due, idle⟩ := timeout_ok p env _ next out done
      cases reports : keepTry (m.monitor.timeoutCount + 1) with
      | false => exact ⟨cells, (idle reports).1.trans saved, rfl⟩
      | true => exact collects (due reports).1

theorem ready_init (w : Nat) (jiffies : J) : Ready p .ofCells (init p w jiffies true true true true true).2 := by
  refine ⟨rfl, rfl, List.replicate p.possible.length ⟨0, 0, 0⟩, ?_, List.length_replicate⟩
  rw [PrevArrays.ofCells, List.map_replicate, List.map_replicate, List.map_replicate]
  rfl

end LoadSoftwdt2

theorem cpu_numbers_valid_iff [Add J] (p : Platform J) (w : Nat) (jiffies : J) (boot : List Nat) (evs : List (Firing w J))
    (booted : 0 ∈ boot) (history : ∀ e ∈ evs, 0 ∈ e.env.online) :
    (((∀ cpu ∈ startedOn (LoadSoftwdt3.init p w jiffies true true true).2, cpu ∈ boot) ∧
        Run.Always (LoadSoftwdt3.driver p).fire armedGuard (LoadSoftwdt3.init p w jiffies true true true).2
          (ValidCpus (LoadSoftwdt3.driver p)) evs) ↔
      Run.Always (LoadSoftwdt3.driver p).fire armedGuard (LoadSoftwdt3.init p w jiffies true true true).2
        (LoadSoftwdt3.CpusFit p) evs) ∧
    (((∀ cpu ∈ startedOn (LoadSoftwdt2.init p w jiffies true true true true true).2, cpu ∈ boot) ∧
        Run.Always (LoadSoftwdt2.driver p).fire armedGuard (LoadSoftwdt2.init p w jiffies true true true true true).2
          (ValidCpus (LoadSoftwdt2.driver p)) evs) ↔
      Run.Always (LoadSoftwdt2.driver p).fire armedGuard (LoadSoftwdt2.init p w jiffies true true true true true).2
        (LoadSoftwdt2.CpusFit p) evs) := by
  have started : ∀ cpu ∈ [0], cpu ∈ boot := by simpa using booted
  constructor
  · refine (and_iff_right started).trans (Run.always_iff _ _ _ _ _ (Ready p .live) (LoadSoftwdt3.ready_init p w jiffies)
      (fun m e out next ready _ done => LoadSoftwdt3.ready_fire p m next ready e out done) evs ?_)
    exact fun m e ready member => LoadSoftwdt3.valid_cpus_iff p m ready e (history e member)
  · refine (and_iff_right started).trans (Run.always_iff _ _ _ _ _ (Ready p .ofCells) (LoadSoftwdt2.ready_init p w jiffies)
      (fun m e out next ready _ done => LoadSoftwdt2.ready_fire p m next ready e out done) evs ?_)
    exact fun m e ready member => LoadSoftwdt2.valid_cpus_iff p m ready e (history e member)

def quietEnv (jiffies : Nat) (online : List Nat) : Env 64 Nat := ⟨jiffies, online, fun _ => ⟨0, 0, 0, 0, 0, 0, 0, 0, 0, 0⟩⟩

def allOnline : List (Firing 64 Nat) := [.feed (quietEnv 0 [0, 1]), .timeout (quietEnv 4000 [0, 1])]

instance (p : Platform Nat) {P : Type} (m : Module Nat P) (e : Firing 64 Nat) :
    Decidable (LoadSoftwdt3.CpusFit p m e) := by
  unfold LoadSoftwdt3.CpusFit Fit Reports
  infer_instance

instance (p : Platform Nat) {P : Type} (m : Module Nat P) (e : Firing 64 Nat) :
    Decidable (LoadSoftwdt2.CpusFit p m e) := by
  unfold LoadSoftwdt2.CpusFit Fit Reports
  infer_instance

theorem all_online_valid :
    Run.Always (LoadSoftwdt3.driver twoCpus).fire armedGuard (LoadSoftwdt3.init twoCpus 64 0 true true true).2
      (ValidCpus (LoadSoftwdt3.driver twoCpus)) allOnline ∧
    Run.Always (LoadSoftwdt2.driver twoCpus).fire armedGuard (LoadSoftwdt2.init twoCpus 64 0 true true true true true).2
      (ValidCpus (LoadSoftwdt2.driver twoCpus)) allOnline := by
  obtain ⟨newer, older⟩ := cpu_numbers_valid_iff twoCpus 64 0 [0, 1] allOnline (by decide) (by simp [allOnline, Firing.env, quietEnv])
  exact ⟨(newer.mpr (Run.check_always _ _ _ _ _ (by decide +kernel))).2,
    (older.mpr (Run.check_always _ _ _ _ _ (by decide +kernel))).2⟩

-- CPU numbers with a gap, and CPU 1 offline at the first timeout.
def gappy : Platform Nat := ⟨[0, 2], UInt32.toNat⟩

theorem cpu_numbers_invalid :
    (¬ Run.Always (LoadSoftwdt3.driver gappy).fire armedGuard (LoadSoftwdt3.init gappy 64 0 true true true).2
        (ValidCpus (LoadSoftwdt3.driver gappy)) [.feed (quietEnv 0 [0, 2])]) ∧
    (¬ Run.Always (LoadSoftwdt2.driver gappy).fire armedGuard (LoadSoftwdt2.init gappy 64 0 true true true true true).2
        (ValidCpus (LoadSoftwdt2.driver gappy)) [.feed (quietEnv 0 [0, 2])]) ∧
    (¬ Run.Always (LoadSoftwdt3.driver twoCpus).fire armedGuard (LoadSoftwdt3.init twoCpus 64 0 true true true).2
        (ValidCpus (LoadSoftwdt3.driver twoCpus)) [.feed (quietEnv 0 [0, 1]), .timeout (quietEnv 4000 [0])]) ∧
    ¬ Run.Always (LoadSoftwdt2.driver twoCpus).fire armedGuard (LoadSoftwdt2.init twoCpus 64 0 true true true true true).2
        (ValidCpus (LoadSoftwdt2.driver twoCpus)) [.feed (quietEnv 0 [0, 1]), .timeout (quietEnv 4000 [0])] := by
  refine ⟨fun always => ?_, fun always => ?_, fun always => ?_, fun always => ?_⟩
  · have valid := always [] _ [] [] _ rfl .start
    have fit := (LoadSoftwdt3.valid_cpus_iff gappy _ (LoadSoftwdt3.ready_init gappy 64 0) _ (by decide)).mp valid trivial
    exact absurd (fit.1 2 (by decide)) (by decide)
  · have valid := always [] _ [] [] _ rfl .start
    have fit := (LoadSoftwdt2.valid_cpus_iff gappy _ (LoadSoftwdt2.ready_init gappy 64 0) _ (by decide)).mp valid trivial
    exact absurd (fit.1 (.inl rfl) 2 (by decide)) (by decide)
  · have fed : Run (LoadSoftwdt3.driver twoCpus).fire armedGuard (LoadSoftwdt3.init twoCpus 64 0 true true true).2
        [.feed (quietEnv 0 [0, 1])] _ _ := .next [] [] _ _ _ _ .start trivial rfl
    have valid := always [_] _ [] _ _ rfl fed
    have ready := LoadSoftwdt3.ready_fire twoCpus _ _ (LoadSoftwdt3.ready_init twoCpus 64 0) (.feed (quietEnv 0 [0, 1])) _ rfl
    have fit := (LoadSoftwdt3.valid_cpus_iff twoCpus _ ready _ (by decide)).mp valid rfl
    exact absurd (fit.2 ⟨rfl, by decide⟩) (by decide)
  · have fed : Run (LoadSoftwdt2.driver twoCpus).fire armedGuard (LoadSoftwdt2.init twoCpus 64 0 true true true true true).2
        [.feed (quietEnv 0 [0, 1])] _ _ := .next [] [] _ _ _ _ .start trivial rfl
    have valid := always [_] _ [] _ _ rfl fed
    have ready := LoadSoftwdt2.ready_fire twoCpus _ _ (LoadSoftwdt2.ready_init twoCpus 64 0) (.feed (quietEnv 0 [0, 1])) _ rfl
    have fit := (LoadSoftwdt2.valid_cpus_iff twoCpus _ ready _ (by decide)).mp valid rfl
    exact absurd (fit.2 ⟨rfl, by decide⟩) (by decide)

end LinuxModule.Softwdt
