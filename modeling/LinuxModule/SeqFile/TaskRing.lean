import Mathlib.Dynamics.PeriodicPts.Defs

set_option autoImplicit false

namespace LinuxModule.SeqFile

-- The task list as next_task walks it: a circle of `size` tasks through init_task.
structure TaskRing (τ : Type) where
  initTask : τ
  nextTask : τ → τ
  comm : τ → List UInt8
  pid : τ → Int
  size : Nat
  nonempty : 0 < size
  closed : Function.minimalPeriod nextTask initTask = size

variable {τ : Type}

def TaskRing.task (ring : TaskRing τ) (k : Nat) : τ := ring.nextTask^[k] ring.initTask

def TaskRing.tasks (ring : TaskRing τ) : List τ := (List.range ring.size).map ring.task

@[simp] theorem task_zero (ring : TaskRing τ) : ring.task 0 = ring.initTask := rfl

@[simp] theorem next_of_task (ring : TaskRing τ) (k : Nat) : ring.nextTask (ring.task k) = ring.task (k + 1) :=
  (Function.iterate_succ_apply' ring.nextTask k ring.initTask).symm

theorem task_size (ring : TaskRing τ) : ring.task ring.size = ring.initTask := by
  have returns := Function.iterate_minimalPeriod (f := ring.nextTask) (x := ring.initTask)
  rwa [ring.closed] at returns

theorem task_apart (ring : TaskRing τ) (k : Nat) (positive : 0 < k) (below : k < ring.size) :
    ring.task k ≠ ring.initTask := by
  have different := Function.not_isPeriodicPt_of_pos_of_lt_minimalPeriod (f := ring.nextTask)
    (x := ring.initTask) (Nat.ne_of_gt positive) (ring.closed ▸ below)
  exact fun same => different same

theorem task_mod (ring : TaskRing τ) (k : Nat) : ring.task (k % ring.size) = ring.task k := by
  have wraps := Function.iterate_mod_minimalPeriod_eq (f := ring.nextTask) (x := ring.initTask) (n := k)
  rwa [ring.closed] at wraps

theorem tasks_distinct (ring : TaskRing τ) : ring.tasks.Nodup := by
  apply List.Nodup.map_on _ List.nodup_range
  intro j inJ k inK same
  have injective := Function.iterate_injOn_Iio_minimalPeriod (f := ring.nextTask) (x := ring.initTask)
  rw [ring.closed] at injective
  exact injective (List.mem_range.mp inJ) (List.mem_range.mp inK) same

theorem tasks_complete (ring : TaskRing τ) (t : τ) : t ∈ ring.tasks ↔ ∃ k, ring.task k = t := by
  simp only [TaskRing.tasks, List.mem_map, List.mem_range]
  constructor
  · rintro ⟨k, _, same⟩
    exact ⟨k, same⟩
  · rintro ⟨k, same⟩
    exact ⟨k % ring.size, Nat.mod_lt k ring.nonempty, by rw [task_mod, same]⟩

end LinuxModule.SeqFile
