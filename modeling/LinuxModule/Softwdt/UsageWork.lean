import LinuxModule.CpuUsage.ConvertedLines
import LinuxModule.Softwdt.Refactoring

set_option autoImplicit false

namespace LinuxModule.Softwdt.LoadSoftwdt

def Sample.times (now : Sample) : CpuTimes 64 := ⟨now.idle.toBitVec, now.total.toBitVec, now.interrupt.toBitVec⟩

-- What calculate_cpu_usage does to prev_idle, prev_total and prev_interrupt, line by line.
def touchLine (prev : PrevArrays 64) (line : Nat × Sample) : Except Fault (PrevArrays 64) := do
  let _ ← prev.read line.1
  prev.write line.1 line.2.times

def touchLines (lines : List (Nat × Sample)) (prev : PrevArrays 64) : Except Fault (PrevArrays 64) :=
  lines.foldlM touchLine prev

theorem touch_cells (numCpus : Nat) (now : Nat → Sample) (line : Nat × Sample) (bound : line.1 < numCpus) :
    touchLine (.ofCells ((List.range numCpus).map fun cpu => (now cpu).times)) line =
      .ok (.ofCells ((List.range numCpus).map fun cpu => (ProcStat.Monitor.store now line.1 line.2 cpu).times)) := by
  have length : line.1 < ((List.range numCpus).map fun cpu => (now cpu).times).length := by simpa using bound
  rw [touchLine, of_cells_read _ _ length, except_ok_bind, of_cells_write _ _ _ length]
  have cells : ((List.range numCpus).map fun cpu => (now cpu).times).set line.1 line.2.times =
      (List.range numCpus).map fun cpu => (ProcStat.Monitor.store now line.1 line.2 cpu).times := by
    refine List.ext_getElem (by simp) fun i inside _ => ?_
    by_cases here : line.1 = i
    · simp [ProcStat.Monitor.store, here]
    · simp [ProcStat.Monitor.store, List.getElem_set_ne here, Ne.symm here]
  rw [cells]

theorem touch_stores (numCpus : Nat) (lines : List (Nat × Sample)) (now : Nat → Sample)
    (bound : ∀ line ∈ lines, line.1 < numCpus) :
    touchLines lines (.ofCells ((List.range numCpus).map fun cpu => (now cpu).times)) =
      .ok (.ofCells ((List.range numCpus).map fun cpu => (ProcStat.Monitor.storeLines now lines cpu).times)) := by
  induction lines generalizing now with
  | nil => rfl
  | cons line lines ih =>
      obtain ⟨here, later⟩ := List.forall_mem_cons.mp bound
      rw [touchLines, List.foldlM_cons, touch_cells numCpus now line here]
      exact ih _ later

-- On arrays that are allocated the work leaves what calculate_cpu_usage computes.
theorem usage_work_computes (numCpus : Nat) (k : ProcStat.Services) (s next : ProcStat.State Sample)
    (messages : List (ProcStat.Message (Int × Int))) (done : calculateCpuUsage numCpus k s = .ok (messages, next)) :
    ∃ lines, monitor.lines numCpus k = .ok lines ∧
      touchLines lines (.ofCells ((List.range numCpus).map fun cpu => (s.prev cpu).times)) =
        .ok (.ofCells ((List.range numCpus).map fun cpu => (next.prev cpu).times)) := by
  obtain ⟨lines, read, stored⟩ := monitor.lines_stored numCpus k s next messages done
  refine ⟨lines, read, ?_⟩
  rw [stored]
  exact touch_stores numCpus lines s.prev (monitor.lines_cpus numCpus k lines read)

theorem touch_error (lines : List (Nat × Sample)) (prev : PrevArrays 64) (fault : Fault)
    (failed : touchLines lines prev = .error fault) : Blame .live prev.Freed fault := by
  induction lines generalizing prev with
  | nil => cases failed
  | cons line lines ih =>
      rw [touchLines, List.foldlM_cons] at failed
      rcases (except_bind_error _ _ _).mp failed with first | ⟨next, touched, failed⟩
      · rcases (except_bind_error _ _ _).mp first with reading | ⟨_, _, writing⟩
        · exact prev_arrays_read_error prev line.1 .live fault reading
        · exact prev_arrays_write_error prev line.1 _ .live fault writing
      · obtain ⟨_, _, written⟩ := (except_bind_ok _ _ _).mp touched
        obtain ⟨idle, total, interrupt, rfl, rfl, _⟩ := prev_arrays_write_ok prev next line.1 _ written
        exact (ih _ failed).imp_right fun blamed gone => absurd (blamed gone) (by simp [PrevArrays.Freed])

theorem touch_ok (lines : List (Nat × Sample)) (prev next : PrevArrays 64) (done : touchLines lines prev = .ok next) :
    next = prev ∨ ∃ idle total interrupt idle' total' interrupt', prev = ⟨.live idle, .live total, .live interrupt⟩ ∧
      next = ⟨.live idle', .live total', .live interrupt'⟩ := by
  induction lines generalizing prev with
  | nil =>
      cases done
      exact .inl rfl
  | cons line lines ih =>
      rw [touchLines, List.foldlM_cons] at done
      obtain ⟨middle, touched, done⟩ := (except_bind_ok _ _ _).mp done
      obtain ⟨_, _, written⟩ := (except_bind_ok _ _ _).mp touched
      obtain ⟨idle, total, interrupt, rfl, rfl, _⟩ := prev_arrays_write_ok prev middle line.1 _ written
      refine .inr ?_
      rcases ih _ done with rfl | ⟨_, _, _, idle', total', interrupt', _, rfl⟩
      · exact ⟨idle, total, interrupt, _, _, _, rfl, rfl⟩
      · exact ⟨idle, total, interrupt, idle', total', interrupt', rfl, rfl⟩

end LinuxModule.Softwdt.LoadSoftwdt
