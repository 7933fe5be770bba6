import LinuxModule.Top.Table

set_option autoImplicit false

namespace LinuxModule.Top

-- No access outside an array, and none through a pointer to freed memory.
def harmless (e : Stop) : Prop := e ≠ .outOfBounds ∧ e ≠ .badAddress

theorem read_stat_stops (file : StatFile) (base : ProcInfo) (e : Stop) (failed : readStat file base = .error e) :
    e = .beyondBuffer := by
  cases text : file.text with
  | none => simp [readStat, text] at failed
  | some text' =>
      simp only [readStat, text, except_bind_error] at failed
      rcases failed with line | ⟨buf, _, impossible⟩
      · unfold statLine at line
        split at line
        · cases line
        · split at line
          · exact (Except.error.inj line).symm
          · cases line
      · cases impossible

theorem fill_thread_stops (pid : Int) (curProc base : ProcInfo) (t : Thread) (e : Stop)
    (failed : fillThread pid curProc t base = .error e) : e = .beyondBuffer := by
  rw [fillThread, except_bind_error] at failed
  rcases failed with stat | ⟨_, _, impossible⟩
  · exact read_stat_stops _ _ e stat
  · cases impossible

theorem fill_process_stops (p : Process) (base : ProcInfo) (e : Stop) (failed : fillProcess p base = .error e) :
    e = .beyondBuffer := by
  simp only [fillProcess, except_bind_error] at failed
  rcases failed with stat | ⟨_, _, impossible⟩
  · exact read_stat_stops _ _ e stat
  · cases impossible

theorem every_snapshot_serves (threads : Bool) (snap : Snapshot) : ServesSnapshot harmless threads snap := by
  have dies : ∀ message, harmless (.die message) := fun message => ⟨nofun, nofun⟩
  have crash : harmless .beyondBuffer := ⟨nofun, nofun⟩
  refine ⟨fun _ => dies, fun _ => ⟨nofun, nofun⟩, fun p _ _ => ?_⟩
  cases threads with
  | true => exact fun tasks _ t _ _ => ⟨fun _ => dies, fun base e failed => fill_thread_stops _ _ base t e failed ▸ crash⟩
  | false => exact ⟨fun _ => dies, fun base e failed => fill_process_stops p base e failed ▸ crash⟩

-- The records that are in use after these snapshots, newest first, and the most that
-- were in use at any time.
def Snapshot.taken (threads : Bool) (snap : Snapshot) : Nat := (snap.fills threads).length + snap.losses threads

def inUse (threads : Bool) : List Snapshot → Nat
  | [] => 0
  | snap :: older => (snap.fills threads).length + ((snap :: older).map (Snapshot.losses threads)).sum

def most (threads : Bool) : List Snapshot → Nat
  | [] => 0
  | snap :: older => max (most threads older) (inUse threads older + snap.taken threads)

structure Accounted (threads : Bool) (seen : List Snapshot) (m : Main) (rows lost : List Nat) : Prop where
  between : ∃ infos, Between m.globals rows lost infos
  rows : ∀ snap ∈ seen.head?, rows.length = (snap.fills threads).length
  lost : lost.length = (seen.map (Snapshot.losses threads)).sum
  size : m.globals.procs.size = most threads seen

theorem results_length (fills : List (ProcInfo → Except Stop ProcInfo)) (infos : List ProcInfo) (results : Results fills infos) :
    fills.length = infos.length := List.Forall₂.length_eq results

theorem accounted_in_use (threads : Bool) (snap : Snapshot) (older : List Snapshot) (m : Main) (rows lost : List Nat)
    (accounted : Accounted threads (snap :: older) m rows lost) : inUse threads (snap :: older) = rows.length + lost.length := by
  rw [inUse, ← accounted.lost, accounted.rows snap rfl]

theorem pass_accounted (opts : Options) (pageSize : Int) (sort : Qsort (Option Entry)) (sorts : sort.Sorts) (before : Snapshot)
    (older : List Snapshot) (m after : Main) (snap : Snapshot) (table : Table) (rows lost : List Nat)
    (accounted : Accounted opts.threads (before :: older) m rows lost)
    (done : pass opts pageSize sort m snap = .ok (table, after)) :
    ∃ rows' lost', Accounted opts.threads (snap :: before :: older) after rows' lost' := by
  obtain ⟨olds, between⟩ := accounted.between
  obtain ⟨rows', newLost, infos, passed⟩ := Ends.result harmless _ _ (table, after)
    (pass_spec harmless opts pageSize sort sorts m snap rows lost olds between (every_snapshot_serves _ _)
      fun _ => ⟨nofun, nofun⟩) done
  obtain ⟨found, results, permuted⟩ := passed.shows_.results
  have length : rows'.length = (snap.fills opts.threads).length := by
    rw [reads_length _ _ _ passed.between.reads, permuted.length_eq, List.length_map, results_length _ _ results]
  refine ⟨rows', newLost ++ lost, ⟨infos, passed.between⟩, by simpa using length, ?_, ?_⟩
  · rw [List.length_append, passed.losses, accounted.lost]
    rfl
  · rw [passed.size, most, accounted.size, accounted_in_use _ _ _ m rows lost accounted, Snapshot.taken, length, passed.losses]
    congr 1
    omega

theorem start_accounted (opts : Options) (first : Snapshot) (start : Main) (begun : startUp opts first = .ok start) :
    ∃ rows lost, Accounted opts.threads [first] start rows lost := by
  obtain ⟨rows, lost, infos, between, results, losses, _, size, _⟩ := Ends.result harmless _ _ start
    (start_up_spec harmless opts first (every_snapshot_serves _ _)) begun
  have length := (reads_length _ _ _ between.reads).trans (results_length _ _ results).symm
  refine ⟨rows, lost, ⟨infos, between⟩, by simpa using length, by simpa using losses, ?_⟩
  rw [size, length, losses]
  simp [most, inUse, Snapshot.taken]

theorem run_accounted (opts : Options) (pageSize : Int) (sort : Qsort (Option Entry)) (sorts : sort.Sorts) (first : Snapshot)
    (start : Main) (begun : startUp opts first = .ok start) (evs : List Snapshot) (outs : List Table) (m : Main)
    (run : Run (pass opts pageSize sort) goesOn start evs outs m) :
    ∃ rows lost, Accounted opts.threads (evs.reverse ++ [first]) m rows lost := by
  refine Run.rule _ _ _ (fun evs _ m => ∃ rows lost, Accounted opts.threads (evs.reverse ++ [first]) m rows lost) ?_ ?_ evs outs m run
  · exact start_accounted opts first start begun
  · rintro evs _ m snap table after ⟨rows, lost, accounted⟩ _ done
    rw [List.reverse_append, List.reverse_singleton, List.singleton_append, List.cons_append]
    cases seen : evs.reverse ++ [first] with
    | nil => simp at seen
    | cons before older =>
        rw [seen] at accounted
        exact pass_accounted opts pageSize sort sorts before older m after snap table rows lost accounted done

theorem in_use_bound (threads : Bool) (n : Nat) (seen : List Snapshot)
    (small : ∀ snap ∈ seen, snap.taken threads ≤ n ∧ snap.losses threads = 0) : inUse threads seen ≤ n := by
  cases seen with
  | nil => exact Nat.zero_le n
  | cons snap older =>
      have none_lost : ((snap :: older).map (Snapshot.losses threads)).sum = 0 := by
        rw [List.sum_eq_zero_iff_forall_eq_nat]
        rintro losses member
        obtain ⟨other, inSeen, rfl⟩ := List.mem_map.mp member
        exact (small other inSeen).2
      have here := (small snap List.mem_cons_self).1
      rw [inUse, none_lost, Nat.add_zero]
      exact Nat.le_trans (Nat.le_add_right _ _) here

theorem most_bound (threads : Bool) (n : Nat) (seen : List Snapshot)
    (small : ∀ snap ∈ seen, snap.taken threads ≤ n ∧ snap.losses threads = 0) : most threads seen ≤ 2 * n := by
  induction seen with
  | nil => exact Nat.zero_le _
  | cons snap older ih =>
      obtain ⟨here, later⟩ := List.forall_mem_cons.mp small
      have before := in_use_bound threads n older later
      have earlier := ih later
      rw [most]
      omega

-- What was ever allocated is the most that two readings in a row needed, with all that
-- had been lost; so without losses it does not grow with the number of passes.
theorem records_peak (opts : Options) (pageSize : Int) (sort : Qsort (Option Entry)) (sorts : sort.Sorts)
    (first : Snapshot) (start : Main) (begun : startUp opts first = .ok start) (evs : List Snapshot) (outs : List Table)
    (m : Main) (run : Run (pass opts pageSize sort) goesOn start evs outs m) :
    m.globals.procs.size = most opts.threads (evs.reverse ++ [first]) ∧
      ∀ n, (∀ snap ∈ first :: evs, snap.taken opts.threads ≤ n ∧ snap.losses opts.threads = 0) →
        m.globals.procs.size ≤ 2 * n := by
  obtain ⟨rows, lost, accounted⟩ := run_accounted opts pageSize sort sorts first start begun evs outs m run
  refine ⟨accounted.size, fun n small => ?_⟩
  rw [accounted.size]
  exact most_bound opts.threads n _ fun snap member => small snap (by simpa [or_comm] using member)

theorem records_peak_ex : ∃ start outs m, Run (pass sampleOptions 4096 (Qsort.insertion _)) goesOn start [sampleSnapshot 6] outs m ∧
    m.globals.procs.size = 4 := by
  obtain ⟨start, outs, m, begun, run⟩ := sample_run
  have peak := (records_peak sampleOptions 4096 (Qsort.insertion _) Qsort.insertion_sorts _ start begun _ outs m run).1
  exact ⟨start, outs, m, run, peak.trans (by decide +kernel)⟩

end LinuxModule.Top
