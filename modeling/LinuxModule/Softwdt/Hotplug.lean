import LinuxModule.Softwdt.Refactoring

set_option autoImplicit false

namespace LinuxModule.Softwdt

variable {w : Nat} {J : Type}

-- What a CPU's counters stood at when an event last found it online, zeros before that.
-- Every event kicks, so this is what a kick has saved of the CPU.
def lastOnline (cpu : Nat) (evs : List (Firing w J)) : CpuTimes w :=
  evs.foldl (fun sample e => if cpu ∈ e.env.online then cpuTimes (e.env.kcpustat cpu) else sample) ⟨0, 0, 0⟩

theorem last_online_next (cpu : Nat) (evs : List (Firing w J)) (e : Firing w J) :
    lastOnline cpu (evs ++ [e]) = if cpu ∈ e.env.online then cpuTimes (e.env.kcpustat cpu) else lastOnline cpu evs := by
  rw [lastOnline, List.foldl_append]
  rfl

theorem diff_inj (now a b : CpuTimes w) : now.diff a = now.diff b ↔ a = b := by
  constructor
  · intro same
    obtain ⟨idle, total, interrupt⟩ := a
    obtain ⟨idle', total', interrupt'⟩ := b
    simpa only [CpuTimes.diff, CpuTimes.mk.injEq, BitVec.sub_right_inj] using same
  · rintro rfl
    rfl

namespace LoadSoftwdt3

theorem collect_timings_range (kcpustat : Nat → KCpuStat (BitVec w)) (cpus : List Nat) (cells : List (CpuTimes w))
    (lines : List (UsageLine w)) (next : PrevCpuUsageStats w)
    (done : cpuStatsLoop .collectTimings kcpustat cpus (.live cells) = .ok (lines, next)) :
    InRange cpus cells ∧ next = .live (collect kcpustat cpus cells) := by
  induction cpus generalizing cells with
  | nil =>
      cases done
      exact ⟨by simp [InRange], rfl⟩
  | cons cpu rest ih =>
      obtain ⟨saved, _, done⟩ := (except_bind_ok _ _ _).mp done
      obtain ⟨written, stored, ran⟩ := (except_bind_ok _ _ _).mp done
      obtain ⟨cells', same, rfl, bound⟩ := block_write_ok _ _ _ _ stored
      cases same
      obtain ⟨range, rfl⟩ := ih _ ran
      refine ⟨fun other member => ?_, rfl⟩
      rcases List.mem_cons.mp member with rfl | later
      · exact bound
      · simpa using range other later

section Reports

variable [Add J] (p : Platform J)

theorem fire_collects (m next : Module J (PrevCpuUsageStats w)) (e : Firing w J) (out : Out w)
    (done : (driver p).fire m e = .ok (out, next)) (cells : List (CpuTimes w)) (saved : m.prev = .live cells) :
    InRange e.env.online cells ∧ next.prev = .live (collect e.env.kcpustat e.env.online cells) := by
  have collected : ∃ lines, calculateCpuStats .collectTimings e.env m.prev = .ok (lines, next.prev) := by
    cases e with
    | feed env =>
        obtain ⟨lines, collected, _⟩ := feed_task_ok p env _ next out done
        exact ⟨lines, collected⟩
    | timeout env => exact (timeout_ok p env _ next out done).1
  obtain ⟨lines, collected⟩ := collected
  rw [saved] at collected
  exact collect_timings_range _ _ _ lines _ collected

theorem run_saves_last_online (jiffies : J) (evs : List (Firing w J)) (outs : List (Out w))
    (m : Module J (PrevCpuUsageStats w))
    (run : Run (driver p).fire armedGuard (init p w jiffies true true true).2 evs outs m) :
    ∃ cells, m.prev = .live cells ∧ ∀ cpu, cpu < cells.length → cells[cpu]? = some (lastOnline cpu evs) := by
  refine Run.rule _ _ _ (fun evs _ m => ∃ cells, m.prev = .live cells ∧
    ∀ cpu, cpu < cells.length → cells[cpu]? = some (lastOnline cpu evs)) ?_ ?_ evs outs m run
  · refine ⟨List.replicate p.possible.length ⟨0, 0, 0⟩, rfl, fun cpu bound => ?_⟩
    rw [List.getElem?_replicate_of_lt (by simpa using bound)]
    rfl
  · rintro evs outs middle e out after ⟨cells, saved, samples⟩ _ done
    obtain ⟨_, collected⟩ := fire_collects p middle after e out done cells saved
    refine ⟨_, collected, fun cpu bound => ?_⟩
    rw [collect_length] at bound
    rw [collect_at _ _ _ _ bound, last_online_next, samples cpu bound]
    split <;> rfl

theorem report_lines (m next : Module J (PrevCpuUsageStats w)) (env : Env w J) (out : Out w) (lines : List (UsageLine w))
    (done : (driver p).fire m (.timeout env) = .ok (out, next)) (reported : out.report = some lines)
    (cells : List (CpuTimes w)) (saved : m.prev = .live cells) : lines = env.online.map (usageLine env.kcpustat cells) := by
  have range : InRange env.online cells := (fire_collects p m next (.timeout env) out done cells saved).1
  obtain ⟨_, _, due, idle⟩ := timeout_ok p env _ next out done
  cases reports : cadence (m.monitor.timeoutCount + 1) with
  | false =>
      rw [idle reports] at reported
      cases reported
  | true =>
      obtain ⟨calculated, ran, rfl⟩ := due reports
      rw [calculateCpuStats, saved, calculate_usage_live _ _ _ range] at ran
      cases ran
      exact (Option.some.inj reported).symm

theorem init_unarmed (jiffies : J) : (init p w jiffies true true true).2.monitor.timer.pending = false := rfl

-- What a report of the run covers: for each CPU it covers the time since the last kick
-- exactly when that kick saved its counters, or found them where the saved sample is.
theorem report_since_last_kick_iff (jiffies : J) (evs : List (Firing w J)) (env : Env w J) (outs : List (Out w)) (out : Out w)
    (m : Module J (PrevCpuUsageStats w)) (lines : List (UsageLine w))
    (run : Run (driver p).fire armedGuard (init p w jiffies true true true).2 (evs ++ [.timeout env]) (outs ++ [out]) m)
    (reported : out.report = some lines) :
    ∃ earlier kick, evs = earlier ++ [kick] ∧ lines.map (fun line => line.cpu) = env.online ∧
      ((∀ line ∈ lines, line.diff =
          (cpuTimes (env.kcpustat line.cpu)).diff (cpuTimes (kick.env.kcpustat line.cpu))) ↔
        ∀ cpu ∈ env.online, cpu ∈ kick.env.online ∨ lastOnline cpu earlier = cpuTimes (kick.env.kcpustat cpu)) := by
  obtain ⟨outsBefore, last, middle, split, before, armed, done⟩ := Run.last_step _ _ _ _ _ _ _ run
  obtain ⟨rfl, same⟩ := List.append_inj' split rfl
  obtain rfl : out = last := by simpa using same
  obtain ⟨cells, saved, samples⟩ := run_saves_last_online p jiffies evs outs middle before
  obtain ⟨range, _⟩ := fire_collects p middle m (.timeout env) out done cells saved
  have shown := report_lines p middle m env out lines done reported cells saved
  rcases List.eq_nil_or_concat evs with rfl | ⟨earlier, kick, rfl⟩
  · -- The timer is not armed before the first kick.
    generalize none_yet : ([] : List (Firing w J)) = evs at before
    cases before with
    | start => exact absurd armed (by simp [armedGuard, init_unarmed])
    | next => simp at none_yet
  have cpus : lines.map (fun line => line.cpu) = env.online := by
    rw [shown, List.map_map]
    exact List.map_id env.online
  refine ⟨earlier, kick, by simp, cpus, ?_⟩
  have lineOf : ∀ cpu ∈ env.online, (usageLine env.kcpustat cells cpu).diff =
      (cpuTimes (env.kcpustat cpu)).diff (lastOnline cpu (earlier ++ [kick])) := by
    intro cpu member
    have sample := samples cpu (range cpu member)
    rw [usageLine, List.getD_eq_getElem?_getD, sample, List.concat_eq_append]
    rfl
  have perCpu : ∀ cpu ∈ env.online, (usageLine env.kcpustat cells cpu).diff =
      (cpuTimes (env.kcpustat cpu)).diff (cpuTimes (kick.env.kcpustat cpu)) ↔
        cpu ∈ kick.env.online ∨ lastOnline cpu earlier = cpuTimes (kick.env.kcpustat cpu) := by
    intro cpu member
    rw [lineOf cpu member, diff_inj, last_online_next]
    by_cases here : cpu ∈ kick.env.online <;> simp [here]
  rw [shown]
  constructor
  · intro covered cpu member
    exact (perCpu cpu member).mp (covered _ (List.mem_map_of_mem member))
  · intro condition line member
    obtain ⟨cpu, online, rfl⟩ := List.mem_map.mp member
    exact (perCpu cpu online).mpr (condition cpu online)

end Reports

def userTime (busy cpu : Nat) (ticks : BitVec 64) : KCpuStat (BitVec 64) :=
  ⟨if cpu = busy then ticks else 0, 0, 0, 0, 0, 0, 0, 0, 0, 0⟩

-- CPU 1 works for 100 ticks, and is offline at the kick that would have saved them.
def missedKick : List (Firing 64 Nat) :=
  [.feed ⟨0, [0, 1], fun cpu => userTime 1 cpu 0⟩, .feed ⟨2000, [0], fun cpu => userTime 1 cpu 100⟩]

def backOnline : Env 64 Nat := ⟨6000, [0, 1], fun cpu => userTime 1 cpu 100⟩

theorem missed_kick_reports : ∃ outs out m lines,
    Run (driver (w := 64) twoCpus).fire armedGuard (init twoCpus 64 0 true true true).2
      (missedKick ++ [.timeout backOnline]) (outs ++ [out]) m ∧ out.report = some lines ∧
      lines.map (fun line => (line.cpu, line.diff.total)) = [(0, 0), (1, 100)] := by
  have computed : (Run.eval (driver (w := 64) twoCpus).fire armedGuard (init twoCpus 64 0 true true true).2
      (missedKick ++ [.timeout backOnline])).map (fun result => result.1.getLast?.bind fun out =>
        out.report.map fun lines => lines.map fun line => (line.cpu, line.diff.total)) =
      some (some [(0, 0), (1, 100)]) := by decide +kernel
  obtain ⟨⟨outs, m⟩, ran, shown⟩ := Option.map_eq_some_iff.mp computed
  obtain ⟨out, isLast, reports⟩ := Option.bind_eq_some_iff.mp shown
  obtain ⟨lines, reported, shownLines⟩ := Option.map_eq_some_iff.mp reports
  have whole : outs.dropLast ++ [out] = outs := List.dropLast_append_getLast? out isLast
  exact ⟨_, out, m, lines, whole ▸ Run.eval_run _ _ _ _ _ _ ran, reported, shownLines⟩

theorem missed_kick_since_last_kick_iff : ∃ (lines : List (UsageLine 64)) (earlier : List (Firing 64 Nat))
    (kick : Firing 64 Nat), missedKick = earlier ++ [kick] ∧ lines.map (fun line => line.cpu) = backOnline.online ∧
      ((∀ line ∈ lines, line.diff =
          (cpuTimes (backOnline.kcpustat line.cpu)).diff (cpuTimes (kick.env.kcpustat line.cpu))) ↔
        ∀ cpu ∈ backOnline.online,
          cpu ∈ kick.env.online ∨ lastOnline cpu earlier = cpuTimes (kick.env.kcpustat cpu)) := by
  obtain ⟨outs, out, m, lines, run, reported, _⟩ := missed_kick_reports
  obtain ⟨earlier, kick, split, covers⟩ :=
    report_since_last_kick_iff twoCpus 0 missedKick backOnline outs out m lines run reported
  exact ⟨lines, earlier, kick, split, covers⟩

theorem missed_kick_misreports : ¬ ∀ (p : Platform Nat) (jiffies : Nat) (earlier : List (Firing 64 Nat))
    (kick : Firing 64 Nat) (env : Env 64 Nat) (outs : List (Out 64)) (out : Out 64)
    (m : Module Nat (PrevCpuUsageStats 64)) (lines : List (UsageLine 64)),
    Run (driver p).fire armedGuard (init p 64 jiffies true true true).2 (earlier ++ [kick, .timeout env]) (outs ++ [out]) m →
      out.report = some lines → ∀ line ∈ lines, line.diff =
        (cpuTimes (env.kcpustat line.cpu)).diff (cpuTimes (kick.env.kcpustat line.cpu)) := by
  intro claimed
  obtain ⟨outs, out, m, lines, run, reported, shown⟩ := missed_kick_reports
  have lineOf : (1, 100) ∈ lines.map (fun line => (line.cpu, line.diff.total)) := by
    rw [shown]
    decide
  obtain ⟨line, member, same⟩ := List.mem_map.mp lineOf
  obtain ⟨cpu, total⟩ := Prod.mk.inj same
  have increase := claimed twoCpus 0 [.feed ⟨0, [0, 1], fun cpu => userTime 1 cpu 0⟩] _ backOnline outs out m lines run
    reported line member
  rw [increase, cpu] at total
  exact absurd total (by decide)

end LoadSoftwdt3
end LinuxModule.Softwdt
