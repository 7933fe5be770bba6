import LinuxModule.Base.Runs
import LinuxModule.CpuUsage.ProcStat

set_option autoImplicit false

namespace LinuxModule

namespace ProcStat

variable {S R : Type} (m : Monitor S R) (numCpus : Nat)

def Monitor.tick (s : State S) (k : Services) : Except Scanf.Fault (List (Message R) × State S) :=
  m.calculateCpuUsage numCpus k s

def anyTick (_ : State S) (_ : Services) : Prop := True

-- What the module has not given back after a run of the function is what it was before.
def Monitor.HoldsNothing (s : State S) (k : Services) : Prop :=
  ∀ out next, m.tick numCpus s k = .ok (out, next) → next.buffers = s.buffers ∧ next.files = s.files

def allocated (k : Services) : Bool := k.kmalloc.isSome

-- The file is closed on every way out, and the buffer on none.
theorem tick_holds (s next : State S) (k : Services) (out : List (Message R)) (done : m.tick numCpus s k = .ok (out, next)) :
    next.files = s.files ∧ next.buffers = s.buffers + if allocated k then 1 else 0 := by
  obtain ⟨kmalloc, filpOpen, kernelRead⟩ := k
  cases kmalloc with
  | none =>
      cases done
      exact ⟨rfl, rfl⟩
  | some contents =>
      cases filpOpen with
      | error error =>
          cases done
          exact ⟨rfl, rfl⟩
      | ok opened =>
          match kernelRead, done with
          | .error _, done =>
              cases done
              exact ⟨rfl, rfl⟩
          | .ok [], done =>
              cases done
              exact ⟨rfl, rfl⟩
          | .ok (b :: bytes), done =>
              obtain ⟨_, _, same⟩ := (except_bind_ok _ _ _).mp done
              cases same
              exact ⟨rfl, rfl⟩

theorem ticks_hold (s : State S) (ticks : List Services) (outs : List (List (Message R))) (last : State S)
    (run : Run (m.tick numCpus) anyTick s ticks outs last) :
    last.files = s.files ∧ last.buffers = s.buffers + ticks.countP allocated := by
  refine Run.rule _ _ s (fun ticks _ last => last.files = s.files ∧ last.buffers = s.buffers + ticks.countP allocated)
    ⟨rfl, rfl⟩ ?_ ticks outs last run
  rintro ticks outs middle k out after ⟨files, buffers⟩ - done
  obtain ⟨filesAfter, buffersAfter⟩ := tick_holds m numCpus middle after k out done
  refine ⟨filesAfter.trans files, ?_⟩
  rw [buffersAfter, buffers, List.countP_append, List.countP_singleton, Nat.add_assoc]

theorem holds_nothing_iff (s next : State S) (k : Services) (out : List (Message R))
    (done : m.tick numCpus s k = .ok (out, next)) : m.HoldsNothing numCpus s k ↔ allocated k = false := by
  obtain ⟨files, buffers⟩ := tick_holds m numCpus s next k out done
  constructor
  · intro holds
    have same := (holds out next done).1
    cases failed : allocated k with
    | false => rfl
    | true => simp [buffers, failed] at same
  · intro failed out' next' done'
    obtain ⟨files', buffers'⟩ := tick_holds m numCpus s next' k out' done'
    exact ⟨by simp [buffers', failed], files'⟩

theorem always_holds_nothing_iff (s : State S) (ticks : List Services) (outs : List (List (Message R))) (last : State S)
    (run : Run (m.tick numCpus) anyTick s ticks outs last) :
    Run.Always (m.tick numCpus) anyTick s (m.HoldsNothing numCpus) ticks ↔ ∀ k ∈ ticks, allocated k = false := by
  induction run with
  | start => simp [Run.Always]
  | next ticks outs middle k out after before allowed done ih =>
      rw [Run.always_snoc_iff _ _ s _ ticks outs middle k before, ih, holds_nothing_iff m numCpus middle after k out done,
        List.forall_mem_append, List.forall_mem_singleton]

theorem ticks_grow_iff (s : State S) (ticks : List Services) (outs : List (List (Message R))) (last : State S)
    (run : Run (m.tick numCpus) anyTick s ticks outs last) :
    last.files = s.files ∧ last.buffers = s.buffers + ticks.countP allocated ∧
      (Run.Always (m.tick numCpus) anyTick s (m.HoldsNothing numCpus) ticks ↔ ∀ k ∈ ticks, allocated k = false) := by
  obtain ⟨files, buffers⟩ := ticks_hold m numCpus s ticks outs last run
  exact ⟨files, buffers, always_holds_nothing_iff m numCpus s ticks outs last run⟩

-- Left running, either monitor keeps one buffer more for every tick whose kmalloc succeeded.
theorem monitors_grow_iff (ticks : List Services) :
    (∀ s outs last, Run (PerCpuUsage.monitor.tick numCpus) anyTick s ticks outs last →
      last.files = s.files ∧ last.buffers = s.buffers + ticks.countP allocated ∧
      (Run.Always (PerCpuUsage.monitor.tick numCpus) anyTick s (PerCpuUsage.monitor.HoldsNothing numCpus) ticks ↔
        ∀ k ∈ ticks, allocated k = false)) ∧
    (∀ s outs last, Run (Softwdt.LoadSoftwdt.monitor.tick numCpus) anyTick s ticks outs last →
      last.files = s.files ∧ last.buffers = s.buffers + ticks.countP allocated ∧
      (Run.Always (Softwdt.LoadSoftwdt.monitor.tick numCpus) anyTick s (Softwdt.LoadSoftwdt.monitor.HoldsNothing numCpus)
          ticks ↔ ∀ k ∈ ticks, allocated k = false)) :=
  ⟨fun s outs last run => ticks_grow_iff _ numCpus s ticks outs last run,
    fun s outs last run => ticks_grow_iff _ numCpus s ticks outs last run⟩

-- kmalloc fails, then it succeeds and /proc/stat cannot be opened, then it cannot be read.
def failures : List Services :=
  [⟨none, .ok (), .ok []⟩, ⟨some (List.replicate cpuInfoBufsize 0), .error (-2), .ok []⟩,
    ⟨some (List.replicate cpuInfoBufsize 0), .ok (), .error (-5)⟩]

theorem failures_grow : ∃ outs last, Run (PerCpuUsage.monitor.tick 1) anyTick ⟨fun _ => ⟨0, 0⟩, 0, 0⟩ failures outs last ∧
    last.buffers = 2 := by
  have run : Run (PerCpuUsage.monitor.tick 1) anyTick ⟨fun _ => ⟨0, 0⟩, 0, 0⟩ failures _ _ :=
    .next [_, _] _ _ _ _ _ (.next [_] _ _ _ _ _ (.next [] [] _ _ _ _ .start trivial rfl) trivial rfl) trivial rfl
  exact ⟨_, _, run, ((monitors_grow_iff 1 failures).1 _ _ _ run).2.1⟩

-- One tick whose kmalloc succeeds is enough, here on the exit after filp_open has failed.
theorem failed_open_keeps_buffer :
    ¬ ∀ numCpus s ticks outs last, Run (PerCpuUsage.monitor.tick numCpus) anyTick s ticks outs last →
      Run.Always (PerCpuUsage.monitor.tick numCpus) anyTick s (PerCpuUsage.monitor.HoldsNothing numCpus) ticks := by
  intro claimed
  have run : Run (PerCpuUsage.monitor.tick 1) anyTick ⟨fun _ => ⟨0, 0⟩, 0, 0⟩
      [⟨some (List.replicate cpuInfoBufsize 0), .error (-2), .ok []⟩] _ _ := .next [] [] _ _ _ _ .start trivial rfl
  have none_allocated := (always_holds_nothing_iff _ 1 _ _ _ _ run).mp (claimed 1 _ _ _ _ run)
  exact absurd (none_allocated _ List.mem_cons_self) (by decide)

end ProcStat

end LinuxModule
