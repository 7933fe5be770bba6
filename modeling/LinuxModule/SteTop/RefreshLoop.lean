import LinuxModule.SteTop.Walked

set_option autoImplicit false

namespace LinuxModule.SteTop

def refreshAll (hash : Hash) (rs : List Refresh) : W Unit := Walk.forEach rs (procsRefresh hash)

def Point.served : Point → Bool
  | .kmalloc _ ok => ok
  | _ => true

def AllServed {α : Type} (w : W α) (s : Globals) : Prop := ∀ m ∈ (w s).trace, m.1.served = true

instance {α : Type} (w : W α) (s : Globals) : Decidable (AllServed w s) :=
  inferInstanceAs (Decidable (∀ m ∈ (w s).trace, m.1.served = true))

def served : Point → Globals → Prop := fun point _ => point.served = true

theorem served_grows (visits : List Visit) : Grows served visits := fun _ _ _ _ _ _ granted _ => granted

theorem served_none_failed : ¬ ∃ what at_, served (.kmalloc what false) at_ := by
  rintro ⟨_, _, failed⟩
  exact Bool.false_ne_true failed

section Bounds

variable (hash : Hash) (rely : Point → Globals → Prop)

theorem refresh_all_meets (rs : List Refresh) (grows : ∀ r ∈ rs, Grows rely r.visits) :
    Walk.Meets (upkeep rely) (refreshAll hash rs) initial (fun _ s =>
      ∃ start old new rows, Walked hash s start old new rows) := by
  apply Walk.meets_for_each (upkeep rely) rs (procsRefresh hash)
    (fun _ s => ∃ start old new rows, Walked hash s start old new rows) initial
    ⟨0, [], [], [], sampling_initial hash, rows_initial⟩
  rintro done r rest s split ⟨start, old, new, rows, walked⟩
  apply Walk.meets_mono _ _ _ _ _ (procs_refresh_meets hash rely r s start old new rows walked
    (grows r (by simp [split])))
  rintro _ after ⟨later, placed, kept, _⟩
  exact ⟨_, _, later, placed, kept⟩

end Bounds

-- A failed growth moves n_alloc and leaves the array, so the next point is out of bounds.
theorem bounded_grows (visits : List Visit) : Grows Bounded visits := by
  intro v _ s _ full limit asked after
  have capacity : s.slots.nAlloc = s.slots.cells.length := asked.1
  have moved : nextAlloc s.slots.nAlloc = s.slots.cells.length := after.1
  exact absurd (moved.trans capacity.symm) (next_alloc_moves s.slots.nAlloc (by omega) limit)

theorem granted_grows_rely (visits : List Visit) :
    Grows (fun point _ => point ≠ .kmalloc .array false) visits := by
  intro v _ s _ _ _ asked _
  by_contra denied
  exact asked (by simp [denied])

theorem bounded_iff_growths_served (hash : Hash) (rs : List Refresh) :
    (∀ m ∈ (refreshAll hash rs initial).trace, Bounded m.1 m.2) ↔
      ∀ m ∈ (refreshAll hash rs initial).trace, m.1 ≠ .kmalloc .array false := by
  constructor
  · intro bounded m member
    exact ((refresh_all_meets hash Bounded rs (fun r _ => bounded_grows r.visits) bounded).1 m member).2.2.2
  · intro granted m member
    exact ((refresh_all_meets hash _ rs (fun r _ => granted_grows_rely r.visits) granted).1 m member).1

instance (point : Point) (s : Globals) : Decidable (Bounded point s) := inferInstanceAs (Decidable (_ ∧ _ ∧ (_ → _)))

def idleTask (pid : Pid) (cred : Nat) : Task where
  pid := pid
  comm := []
  prio := 120
  nice := 0
  state := 0
  exitState := 0
  utime := 0
  stime := 0
  cred := cred
  stateC := 82
  cutime := 0
  cstime := 0
  numThreads := 1
  mm := none

def blankRow : ProcInfo := ⟨0, 0, 0, 0, 0, 0, 0, 0, 0, 0, 0, 0, 0, 0, 0, [], 0⟩

def servedVisit (task : Task) : Visit := ⟨task, true, some blankRow, true⟩

def starved : Refresh where
  uptimeCur := ⟨1, 0⟩
  visits := [⟨idleTask 1 0, false, none, false⟩]

theorem starved_unbounded : ¬ ∀ m ∈ (refreshAll (fun _ => 0) [starved] initial).trace, Bounded m.1 m.2 := by
  decide +kernel

end LinuxModule.SteTop
