import LinuxModule.CpuUsage.ProcStat

set_option autoImplicit false

namespace LinuxModule

namespace ProcStat.Monitor

open Scanf

variable {S R : Type} (m : Monitor S R)

-- The CPUs that the loop converts a line for, with what it keeps of the line.
def lineLoop : List Nat → List UInt8 → Except Fault (List (Nat × S))
  | [], _ => .ok []
  | cpu :: rest, line => do
      let values ← sscanf cpuFormat line
      match converted values with
      | none => lineLoop rest line
      | some stat => do
          let line ← nextLine line
          let lines ← lineLoop rest line
          .ok ((cpu, m.sample stat) :: lines)

def lines (numCpus : Nat) (k : Services) : Except Fault (List (Nat × S)) :=
  match k.kmalloc, k.filpOpen, k.kernelRead with
  | some contents, .ok (), .ok (b :: bytes) => do
      let line ← nextLine ((b :: bytes) ++ contents.drop (b :: bytes).length)
      m.lineLoop (List.range numCpus) line
  | _, _, _ => .ok []

def storeLines (prev : Nat → S) (lines : List (Nat × S)) : Nat → S :=
  lines.foldl (fun prev line => store prev line.1 line.2) prev

theorem loop_stores (cpus : List Nat) (line : List UInt8) (prev next : Nat → S) (messages : List (Message R))
    (done : m.cpuLoop cpus line prev = .ok (messages, next)) :
    ∃ lines, m.lineLoop cpus line = .ok lines ∧ next = storeLines prev lines := by
  induction cpus generalizing line prev messages with
  | nil =>
      cases done
      exact ⟨[], rfl, rfl⟩
  | cons cpu rest ih =>
      obtain ⟨values, scanned, done⟩ := (except_bind_ok _ _ _).mp done
      rw [lineLoop, scanned, except_ok_bind]
      cases read : converted values with
      | none =>
          rw [read] at done
          exact ih line prev messages done
      | some stat =>
          rw [read] at done
          obtain ⟨line', ended, done⟩ := (except_bind_ok _ _ _).mp done
          obtain ⟨⟨more, last⟩, ran, same⟩ := (except_bind_ok _ _ _).mp done
          cases same
          obtain ⟨lines, looped, rfl⟩ := ih line' _ more ran
          refine ⟨(cpu, m.sample stat) :: lines, ?_, rfl⟩
          simp only [ended, looped, except_ok_bind]

theorem loop_cpus (cpus : List Nat) (line : List UInt8) (lines : List (Nat × S)) (done : m.lineLoop cpus line = .ok lines) :
    ∀ entry ∈ lines, entry.1 ∈ cpus := by
  induction cpus generalizing line lines with
  | nil =>
      cases done
      simp
  | cons cpu rest ih =>
      obtain ⟨values, scanned, done⟩ := (except_bind_ok _ _ _).mp done
      intro entry inside
      cases read : converted values with
      | none =>
          rw [read] at done
          exact List.mem_cons_of_mem _ (ih line lines done entry inside)
      | some stat =>
          rw [read] at done
          obtain ⟨line', ended, done⟩ := (except_bind_ok _ _ _).mp done
          obtain ⟨more, looped, same⟩ := (except_bind_ok _ _ _).mp done
          cases same
          rcases List.mem_cons.mp inside with rfl | later
          · exact List.mem_cons_self
          · exact List.mem_cons_of_mem _ (ih line' more looped entry later)

theorem lines_stored (numCpus : Nat) (k : Services) (s next : State S) (messages : List (Message R))
    (done : m.calculateCpuUsage numCpus k s = .ok (messages, next)) :
    ∃ lines, m.lines numCpus k = .ok lines ∧ next.prev = storeLines s.prev lines := by
  obtain ⟨kmalloc, filpOpen, kernelRead⟩ := k
  match kmalloc, filpOpen, kernelRead, done with
  | none, _, _, done =>
      cases done
      exact ⟨[], rfl, rfl⟩
  | some _, .error _, _, done =>
      cases done
      exact ⟨[], rfl, rfl⟩
  | some _, .ok (), .error _, done =>
      cases done
      exact ⟨[], rfl, rfl⟩
  | some _, .ok (), .ok [], done =>
      cases done
      exact ⟨[], rfl, rfl⟩
  | some contents, .ok (), .ok (b :: bytes), done =>
      obtain ⟨⟨_, prev⟩, parsed, same⟩ := (except_bind_ok _ _ _).mp done
      cases same
      obtain ⟨line, ended, looped⟩ := (except_bind_ok _ _ _).mp parsed
      obtain ⟨lines, read, stored⟩ := m.loop_stores _ line _ prev _ looped
      exact ⟨lines, by simp only [Monitor.lines, ended, except_ok_bind, read], stored⟩

theorem lines_cpus (numCpus : Nat) (k : Services) (lines : List (Nat × S)) (done : m.lines numCpus k = .ok lines) :
    ∀ entry ∈ lines, entry.1 < numCpus := by
  obtain ⟨kmalloc, filpOpen, kernelRead⟩ := k
  match kmalloc, filpOpen, kernelRead, done with
  | none, _, _, done =>
      cases done
      simp
  | some _, .error _, _, done =>
      cases done
      simp
  | some _, .ok (), .error _, done =>
      cases done
      simp
  | some _, .ok (), .ok [], done =>
      cases done
      simp
  | some contents, .ok (), .ok (b :: bytes), done =>
      obtain ⟨line, ended, looped⟩ := (except_bind_ok _ _ _).mp done
      exact fun entry inside => List.mem_range.mp (m.loop_cpus _ line lines looped entry inside)

end ProcStat.Monitor
end LinuxModule
