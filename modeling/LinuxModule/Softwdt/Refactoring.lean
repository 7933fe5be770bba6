import LinuxModule.Softwdt.Timeouts

set_option autoImplicit false

namespace LinuxModule.Softwdt

variable {w : Nat} {J : Type}

def collect (kcpustat : Nat → KCpuStat (BitVec w)) (cpus : List Nat) (cells : List (CpuTimes w)) : List (CpuTimes w) :=
  cpus.foldl (fun cells cpu => cells.set cpu (cpuTimes (kcpustat cpu))) cells

def usage (kcpustat : Nat → KCpuStat (BitVec w)) (cells : List (CpuTimes w)) (cpu : Nat) : CpuUsage w :=
  ⟨cpu, ((cpuTimes (kcpustat cpu)).diff (cells.getD cpu ⟨0, 0, 0⟩)).percent⟩

def InRange (cpus : List Nat) (cells : List (CpuTimes w)) : Prop := ∀ cpu ∈ cpus, cpu < cells.length

def SameSamples (cpus : List Nat) (old new : List (CpuTimes w)) : Prop := ∀ cpu ∈ cpus, old[cpu]? = new[cpu]?

theorem collect_length (kcpustat : Nat → KCpuStat (BitVec w)) (cpus : List Nat) (cells : List (CpuTimes w)) :
    (collect kcpustat cpus cells).length = cells.length := by
  induction cpus generalizing cells with
  | nil => rfl
  | cons cpu rest ih => rw [collect, List.foldl_cons, ← collect, ih, List.length_set]

-- A CPU visited twice gets the same sample twice.
theorem collect_at (kcpustat : Nat → KCpuStat (BitVec w)) (cpus : List Nat) (cells : List (CpuTimes w)) (cpu : Nat)
    (bound : cpu < cells.length) :
    (collect kcpustat cpus cells)[cpu]? = if cpu ∈ cpus then some (cpuTimes (kcpustat cpu)) else cells[cpu]? := by
  induction cpus generalizing cells with
  | nil => rfl
  | cons first rest ih =>
      rw [collect, List.foldl_cons, ← collect, ih _ (by rwa [List.length_set]), List.getElem?_set]
      by_cases later : cpu ∈ rest
      · simp [later]
      · by_cases same : first = cpu
        · simp [same, bound]
        · simp [later, same, Ne.symm same]

theorem collect_same_samples (kcpustat : Nat → KCpuStat (BitVec w)) (cpus : List Nat) (old new : List (CpuTimes w))
    (oldRange : InRange cpus old) (newRange : InRange cpus new) :
    SameSamples cpus (collect kcpustat cpus old) (collect kcpustat cpus new) := by
  intro cpu member
  rw [collect_at kcpustat cpus old cpu (oldRange cpu member), collect_at kcpustat cpus new cpu (newRange cpu member),
    if_pos member, if_pos member]

theorem same_samples_usage (kcpustat : Nat → KCpuStat (BitVec w)) (cpus : List Nat) (old new : List (CpuTimes w))
    (same : SameSamples cpus old new) : cpus.map (usage kcpustat old) = cpus.map (usage kcpustat new) := by
  apply List.map_congr_left
  intro cpu member
  rw [usage, usage, List.getD_eq_getElem?_getD, List.getD_eq_getElem?_getD, same cpu member]

theorem block_read_live {α : Type} (cells : List α) (i : Nat) (default : α) (bound : i < cells.length) :
    (Block.live cells).read i = .ok (cells.getD i default) := by
  simp [Block.read, bound]

theorem block_write_live {α : Type} (cells : List α) (i : Nat) (cell : α) (bound : i < cells.length) :
    (Block.live cells).write i cell = .ok (.live (cells.set i cell)) := by
  rw [Block.write, if_pos bound]

namespace LoadSoftwdt3

theorem collect_timings_live (kcpustat : Nat → KCpuStat (BitVec w)) (cpus : List Nat) (cells : List (CpuTimes w))
    (range : InRange cpus cells) :
    cpuStatsLoop .collectTimings kcpustat cpus (.live cells) = .ok ([], .live (collect kcpustat cpus cells)) := by
  induction cpus generalizing cells with
  | nil => rfl
  | cons cpu rest ih =>
      have bound : cpu < cells.length := range cpu (by simp)
      rw [cpuStatsLoop, block_read_live cells cpu ⟨0, 0, 0⟩ bound, except_ok_bind, block_write_live _ _ _ bound,
        except_ok_bind]
      exact ih _ fun other member => by
        rw [List.length_set]
        exact range other (by simp [member])

def usageLine (kcpustat : Nat → KCpuStat (BitVec w)) (cells : List (CpuTimes w)) (cpu : Nat) : UsageLine w :=
  ⟨usage kcpustat cells cpu, cpuTimes (kcpustat cpu), (cpuTimes (kcpustat cpu)).diff (cells.getD cpu ⟨0, 0, 0⟩)⟩

theorem calculate_usage_live (kcpustat : Nat → KCpuStat (BitVec w)) (cpus : List Nat) (cells : List (CpuTimes w))
    (range : InRange cpus cells) :
    cpuStatsLoop .calculateUsage kcpustat cpus (.live cells) = .ok (cpus.map (usageLine kcpustat cells), .live cells) := by
  induction cpus with
  | nil => rfl
  | cons cpu rest ih =>
      have read := block_read_live cells cpu ⟨0, 0, 0⟩ (range cpu (by simp))
      have later := ih fun other member => range other (by simp [member])
      simp only [cpuStatsLoop, read, later, except_ok_bind]
      rfl

theorem report_by_count_live (count : UInt32) (env : Env w J) (m : Module J (PrevCpuUsageStats w))
    (cells : List (CpuTimes w)) (saved : m.prev = .live cells) (range : InRange env.online cells)
    (taskWq : m.monitor.taskWq = .live) : ∃ out next, reportByCount count env m = .ok (out, next) := by
  have calculated := calculate_usage_live env.kcpustat env.online cells range
  cases due : cadence count with
  | false => exact ⟨_, _, report_by_count_not_due count env m due⟩
  | true =>
      rw [report_by_count_due count env m due]
      simp [report, calculateCpuStats, saved, calculated, LoadMonitor.queueWork, taskWq, Queue.accept]

end LoadSoftwdt3

-- The arrays of the first two versions are the columns of the third's.
def PrevArrays.ofCells (cells : List (CpuTimes w)) : PrevArrays w :=
  ⟨.live (cells.map CpuTimes.idle), .live (cells.map CpuTimes.total), .live (cells.map CpuTimes.interrupt)⟩

theorem of_cells_read (cells : List (CpuTimes w)) (cpu : Nat) (bound : cpu < cells.length) :
    (PrevArrays.ofCells cells).read cpu = .ok (cells.getD cpu ⟨0, 0, 0⟩) := by
  simp [PrevArrays.read, PrevArrays.ofCells, Block.read, List.getElem?_eq_getElem bound]

theorem of_cells_write (cells : List (CpuTimes w)) (cpu : Nat) (now : CpuTimes w) (bound : cpu < cells.length) :
    (PrevArrays.ofCells cells).write cpu now = .ok (.ofCells (cells.set cpu now)) := by
  simp [PrevArrays.write, PrevArrays.ofCells, Block.write, bound, List.map_set]

theorem of_cells_write_bound (cells : List (CpuTimes w)) (cpu : Nat) (now : CpuTimes w) (next : PrevArrays w)
    (done : (PrevArrays.ofCells cells).write cpu now = .ok next) : cpu < cells.length := by
  obtain ⟨idle, _, _, same, _, bound, _⟩ := prev_arrays_write_ok _ _ _ _ done
  obtain ⟨⟨⟩, _⟩ := PrevArrays.mk.inj same
  simpa using bound

namespace LoadSoftwdt2

theorem statistics_loop_range (kcpustat : Nat → KCpuStat (BitVec w)) (cpus : List Nat) (cells : List (CpuTimes w))
    (next : PrevArrays w) (done : statisticsLoop kcpustat cpus (.ofCells cells) = .ok next) :
    InRange cpus cells ∧ next = .ofCells (collect kcpustat cpus cells) := by
  induction cpus generalizing cells with
  | nil =>
      cases done
      exact ⟨by simp [InRange], rfl⟩
  | cons cpu rest ih =>
      obtain ⟨written, stored, ran⟩ := (except_bind_ok _ _ _).mp done
      have bound := of_cells_write_bound cells cpu _ written stored
      rw [of_cells_write cells cpu _ bound] at stored
      obtain rfl := Except.ok.inj stored
      obtain ⟨range, rfl⟩ := ih _ ran
      refine ⟨?_, rfl⟩
      intro other member
      rcases List.mem_cons.mp member with rfl | later
      · exact bound
      · simpa using range other later

theorem usage_loop_cells (kcpustat : Nat → KCpuStat (BitVec w)) (cpus : List Nat) (cells : List (CpuTimes w))
    (range : InRange cpus cells) : usageLoop kcpustat (.ofCells cells) cpus = .ok (cpus.map (usage kcpustat cells)) := by
  induction cpus with
  | nil => rfl
  | cons cpu rest ih =>
      rw [usageLoop, of_cells_read cells cpu (range cpu (by simp)), except_ok_bind,
        ih fun other member => range other (by simp [member]), except_ok_bind]
      rfl

end LoadSoftwdt2

section Simulation

variable [Add J] (p : Platform J)

namespace LoadSoftwdt3

theorem kick_live (env : Env w J) (m : Module J (PrevCpuUsageStats w)) (cells : List (CpuTimes w))
    (saved : m.prev = .live cells) (range : InRange env.online cells) :
    ∃ next, kick p env m = .ok next ∧ next.prev = .live (collect env.kcpustat env.online cells) := by
  have collected := collect_timings_live env.kcpustat env.online cells range
  simp [kick, calculateCpuStats, saved, collected]

theorem feed_task_live (env : Env w J) (m : Module J (PrevCpuUsageStats w)) (cells : List (CpuTimes w))
    (saved : m.prev = .live cells) (range : InRange env.online cells) (wq : m.monitor.wq = .live) :
    ∃ out next, feedTask p env m = .ok (out, next) ∧ next.prev = .live (collect env.kcpustat env.online cells) := by
  obtain ⟨kicked, ran, collected⟩ := kick_live p env m cells saved range
  obtain ⟨_, _, armed⟩ := kick_ok p env m kicked ran
  have sameWq : kicked.monitor.wq = .live := by
    rw [armed]
    exact wq
  simp [feedTask, feedWith, ran, LoadMonitor.queueDelayedWork, sameWq, Queue.accept, collected]

theorem timeout_live (env : Env w J) (m : Module J (PrevCpuUsageStats w)) (cells : List (CpuTimes w))
    (saved : m.prev = .live cells) (range : InRange env.online cells) (taskWq : m.monitor.taskWq = .live) :
    ∃ out next, timeout p env m = .ok (out, next) ∧ next.prev = .live (collect env.kcpustat env.online cells) := by
  obtain ⟨out, reported, first⟩ := report_by_count_live m.countTimeout.monitor.timeoutCount env m.countTimeout cells saved
    range taskWq
  have unchanged : reported.prev = .live cells := by
    rw [(report_by_count_ok _ env m.countTimeout reported out first).1]
    exact saved
  obtain ⟨next, kicked, collected⟩ := kick_live p env reported cells unchanged range
  refine ⟨out, next, ?_, collected⟩
  simp only [timeout, first, kicked, except_ok_bind]

end LoadSoftwdt3

def onlineGuard {P : Type} (m : Module J P) (e : Firing w J) : Prop := armedGuard m e ∧ e.env.online = p.possible

-- The saved samples are only tied together while the old version's timer is armed: at
-- the timeouts where it gives up, only the new version collects.
structure Agrees (old : Module J (PrevArrays w)) (new : Module J (LoadSoftwdt3.PrevCpuUsageStats w)) : Prop where
  queues : new.monitor.wq = .live ∧ new.monitor.taskWq = .live
  samples : ∃ oldCells newCells, old.prev = .ofCells oldCells ∧ new.prev = .live newCells ∧
    oldCells.length = newCells.length ∧ (old.monitor.timer.pending = true → new.monitor.timer.pending = true ∧
      InRange p.possible newCells ∧ SameSamples p.possible oldCells newCells)

theorem in_range_length (cpus : List Nat) (old new : List (CpuTimes w)) (lengths : old.length = new.length)
    (range : InRange cpus old) : InRange cpus new :=
  fun cpu member => lengths ▸ range cpu member

theorem agrees_feed (old next : Module J (PrevArrays w)) (new : Module J (LoadSoftwdt3.PrevCpuUsageStats w))
    (agrees : Agrees p old new) (env : Env w J) (online : env.online = p.possible) (out : LoadSoftwdt2.Out w)
    (done : LoadSoftwdt2.feedTask p env old = .ok (out, next)) :
    ∃ outNew after, LoadSoftwdt3.feedTask p env new = .ok (outNew, after) ∧ Agrees p next after := by
  obtain ⟨oldCells, newCells, oldSaved, newSaved, lengths, _⟩ := agrees.samples
  obtain ⟨oldKept, _⟩ := LoadSoftwdt2.feed_task_ok p env old next out done
  rw [oldSaved, LoadSoftwdt2.statisticsCpuTime] at oldKept
  obtain ⟨oldRange, oldAfter⟩ := LoadSoftwdt2.statistics_loop_range _ _ _ _ oldKept
  have newRange := in_range_length p.possible oldCells newCells lengths oldRange
  obtain ⟨outNew, after, ran, newAfter⟩ := LoadSoftwdt3.feed_task_live p env new newCells newSaved (online ▸ newRange)
    agrees.queues.1
  obtain ⟨_, _, armed⟩ := LoadSoftwdt3.feed_task_ok p env new after outNew ran
  refine ⟨outNew, after, ran, ?_, _, _, oldAfter, newAfter, ?_, fun _ => ⟨?_, ?_, ?_⟩⟩
  · rw [armed]
    exact agrees.queues
  · rw [collect_length, collect_length, lengths]
  · rw [armed]
    rfl
  · exact in_range_length _ _ _ (collect_length ..).symm newRange
  · rw [online]
    exact collect_same_samples _ _ _ _ oldRange newRange

theorem agrees_timeout (old next : Module J (PrevArrays w)) (new : Module J (LoadSoftwdt3.PrevCpuUsageStats w))
    (oldCells newCells : List (CpuTimes w)) (oldSaved : old.prev = .ofCells oldCells) (newSaved : new.prev = .live newCells)
    (lengths : oldCells.length = newCells.length) (range : InRange p.possible newCells)
    (queues : new.monitor.wq = .live ∧ new.monitor.taskWq = .live) (off : old.monitor.timer.pending = false)
    (env : Env w J) (online : env.online = p.possible) (out : LoadSoftwdt2.Out w)
    (done : LoadSoftwdt2.timeout p env old = .ok (out, next)) :
    ∃ outNew after, LoadSoftwdt3.timeout p env new = .ok (outNew, after) ∧ Agrees p next after := by
  obtain ⟨oldMonitor, due, idle⟩ := LoadSoftwdt2.timeout_ok p env old next out done
  obtain ⟨outNew, after, ran, newAfter⟩ := LoadSoftwdt3.timeout_live p env new newCells newSaved (online ▸ range) queues.2
  obtain ⟨_, newMonitor, _⟩ := LoadSoftwdt3.timeout_ok p env new after outNew ran
  have kept : after.monitor.wq = .live ∧ after.monitor.taskWq = .live := by
    rw [newMonitor]
    exact queues
  refine ⟨outNew, after, ran, kept, ?_⟩
  cases reports : keepTry (old.monitor.timeoutCount + 1) with
  | false =>
      -- The old version gives up: its timer stays off.
      refine ⟨oldCells, _, (idle reports).1.trans oldSaved, newAfter, by rw [collect_length, lengths], fun armed => ?_⟩
      rw [oldMonitor] at armed
      simp [LoadMonitor.afterTimeout, keepTryPolicy, reports, off] at armed
  | true =>
      have oldKept := (due reports).1
      rw [oldSaved, LoadSoftwdt2.statisticsCpuTime] at oldKept
      obtain ⟨oldRange, oldAfter⟩ := LoadSoftwdt2.statistics_loop_range _ _ _ _ oldKept
      refine ⟨_, _, oldAfter, newAfter, by rw [collect_length, collect_length, lengths], fun _ => ⟨?_, ?_, ?_⟩⟩
      · rw [newMonitor]
        rfl
      · exact in_range_length _ _ _ (collect_length ..).symm range
      · rw [online]
        exact collect_same_samples _ _ _ _ oldRange range

theorem agrees_fire (old next : Module J (PrevArrays w)) (new : Module J (LoadSoftwdt3.PrevCpuUsageStats w))
    (agrees : Agrees p old new) (e : Firing w J) (allowed : onlineGuard p old e) (out : LoadSoftwdt2.Out w)
    (done : (LoadSoftwdt2.driver p).fire old e = .ok (out, next)) :
    armedGuard new e ∧ ∃ outNew after, (LoadSoftwdt3.driver p).fire new e = .ok (outNew, after) ∧ Agrees p next after := by
  cases e with
  | feed env =>
      have fed := agrees_feed p { old with monitor := { old.monitor with delayedWork := none } } next
        { new with monitor := { new.monitor with delayedWork := none } } ⟨agrees.queues, agrees.samples⟩ env allowed.2 out done
      exact ⟨trivial, fed⟩
  | timeout env =>
      obtain ⟨oldCells, newCells, oldSaved, newSaved, lengths, tied⟩ := agrees.samples
      obtain ⟨armed, range, _⟩ := tied allowed.1
      have timedOut := agrees_timeout p { old with monitor := { old.monitor with timer := ⟨false, old.monitor.timer.expires⟩ } }
        next { new with monitor := { new.monitor with timer := ⟨false, new.monitor.timer.expires⟩ } } oldCells newCells oldSaved
        newSaved lengths range agrees.queues rfl env allowed.2 out done
      exact ⟨armed, timedOut⟩

theorem agrees_init (w : Nat) (jiffies : J) :
    Agrees p (LoadSoftwdt2.init p w jiffies true true true true true).2 (LoadSoftwdt3.init p w jiffies true true true).2 := by
  refine ⟨⟨rfl, rfl⟩, List.replicate p.possible.length ⟨0, 0, 0⟩, List.replicate p.possible.length ⟨0, 0, 0⟩, ?_, rfl, rfl,
    fun armed => ?_⟩
  · rw [PrevArrays.ofCells, List.map_replicate, List.map_replicate, List.map_replicate]
    rfl
  · cases armed

end Simulation

theorem agrees_usage (p : Platform J) (old : Module J (PrevArrays w)) (new : Module J (LoadSoftwdt3.PrevCpuUsageStats w))
    (agrees : Agrees p old new) (armed : old.monitor.timer.pending = true) (env : Env w J)
    (online : env.online = p.possible) :
    ∃ lines, LoadSoftwdt3.calculateCpuStats .calculateUsage env new.prev = .ok (lines, new.prev) ∧
      LoadSoftwdt2.calculateCpuUsage p env old.prev = .ok (lines.map LoadSoftwdt3.UsageLine.toCpuUsage) ∧
      lines.map (fun line => line.cpu) = p.possible := by
  obtain ⟨oldCells, newCells, oldSaved, newSaved, lengths, tied⟩ := agrees.samples
  obtain ⟨_, range, same⟩ := tied armed
  have oldRange := in_range_length p.possible newCells oldCells lengths.symm range
  refine ⟨p.possible.map (LoadSoftwdt3.usageLine env.kcpustat newCells), ?_, ?_, ?_⟩
  · rw [newSaved, LoadSoftwdt3.calculateCpuStats, online, LoadSoftwdt3.calculate_usage_live _ _ _ range]
  · rw [oldSaved, LoadSoftwdt2.calculateCpuUsage, LoadSoftwdt2.usage_loop_cells _ _ _ oldRange,
      same_samples_usage _ _ _ _ same, List.map_map]
    rfl
  · rw [List.map_map]
    exact List.map_id _

theorem refactoring_keeps_load [Add J] (p : Platform J) (w : Nat) (jiffies : J) (evs : List (Firing w J))
    (outs : List (LoadSoftwdt2.Out w)) (old : Module J (PrevArrays w))
    (run : Run (LoadSoftwdt2.driver p).fire (onlineGuard p) (LoadSoftwdt2.init p w jiffies true true true true true).2
      evs outs old) :
    ∃ outsNew new, Run (LoadSoftwdt3.driver p).fire armedGuard (LoadSoftwdt3.init p w jiffies true true true).2
      evs outsNew new ∧
      (old.monitor.timer.pending = true → new.monitor.timer.pending = true) ∧
      ∀ env : Env w J, onlineGuard p old (.timeout env) →
        ∃ lines, LoadSoftwdt3.calculateCpuStats .calculateUsage env new.prev = .ok (lines, new.prev) ∧
          LoadSoftwdt2.calculateCpuUsage p env old.prev = .ok (lines.map LoadSoftwdt3.UsageLine.toCpuUsage) ∧
          lines.map (fun line => line.cpu) = p.possible := by
  obtain ⟨outsNew, new, runNew, agrees⟩ := Run.simulates _ (onlineGuard p) (LoadSoftwdt3.driver p).fire armedGuard id
    (Agrees p) _ _ (agrees_init p w jiffies)
    (fun middle now e out after related allowed done => agrees_fire p middle after now related e allowed out done)
    evs outs old run
  rw [List.map_id] at runNew
  obtain ⟨_, _, _, _, _, tied⟩ := agrees.samples
  exact ⟨outsNew, new, runNew, fun armed => (tied armed).1,
    fun env allowed => agrees_usage p old new agrees allowed.1 env allowed.2⟩

instance {P : Type} (m : Module Nat P) (e : Firing w Nat) : Decidable (onlineGuard twoCpus m e) :=
  inferInstanceAs (Decidable (_ ∧ _))

def busyEnv (jiffies : Nat) : Env 64 Nat := ⟨jiffies, [0, 1], fun _ => ⟨30, 0, 0, 70, 0, 0, 0, 0, 0, 0⟩⟩

theorem same_load_after_feed : ∃ old new lines,
    Run.eval (LoadSoftwdt2.driver twoCpus).fire (onlineGuard twoCpus)
      (LoadSoftwdt2.init twoCpus 64 0 true true true true true).2 [.feed (idleEnv 0)] = some ([⟨none, [0]⟩], old) ∧
    LoadSoftwdt3.calculateCpuStats .calculateUsage (busyEnv 4000) new = .ok (lines, new) ∧
    LoadSoftwdt2.calculateCpuUsage twoCpus (busyEnv 4000) old.prev = .ok (lines.map LoadSoftwdt3.UsageLine.toCpuUsage) := by
  have computed : Run.eval (LoadSoftwdt2.driver twoCpus).fire (onlineGuard twoCpus)
      (LoadSoftwdt2.init twoCpus 64 0 true true true true true).2 [.feed (idleEnv 0)] = some ([⟨none, [0]⟩],
        ⟨⟨2000, some 2000, .live, ⟨true, 4000⟩, 0, false, .live⟩, 2, .ofCells [⟨0, 0, 0⟩, ⟨0, 0, 0⟩]⟩) := by decide +kernel
  obtain ⟨_, new, _, _, same⟩ := refactoring_keeps_load twoCpus 64 0 _ _ _ (Run.eval_run _ _ _ _ _ _ computed)
  obtain ⟨lines, newer, older, _⟩ := same (busyEnv 4000) ⟨rfl, rfl⟩
  exact ⟨_, new.prev, lines, computed, newer, older⟩

end LinuxModule.Softwdt
