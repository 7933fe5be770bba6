import LinuxModule.CpuUsage.ProcStat

set_option autoImplicit false

namespace LinuxModule.ProcStat

open Scanf

-- The loop over so many CPUs, started at these bytes, ends among them: it has no CPU left, or
-- meets a mismatch, or reads a CPU line that ends, and ends from its newline on.
inductive ScansEnd : Nat → List UInt8 → Prop where
  | noneLeft (str : List UInt8) : ScansEnd 0 str
  | mismatch (count : Nat) (str : List UInt8) (notCut : ¬ CpuCut str) (notRead : ∀ values, ¬ CpuRead str values) :
      ScansEnd (count + 1) str
  | line (count : Nat) (line : List UInt8) (stop : UInt8) (rest : List UInt8) (values : List UInt64)
      (read : CpuRead (line ++ stop :: rest) values) (whole : Line line) (ends : Stop stop)
      (later : stop = newline → ScansEnd count rest) : ScansEnd (count + 1) (line ++ stop :: rest)

-- The first line ends among the bytes, and from its newline on the loop does.
def StaysInside (numCpus : Nat) (bytes : List UInt8) : Prop :=
  ∃ line stop rest, bytes = line ++ stop :: rest ∧ Line line ∧ Stop stop ∧ (stop = newline → ScansEnd numCpus rest)

variable {S R : Type} (m : Monitor S R)

theorem cut_is_not_read (str : List UInt8) (values : List UInt64) (cut : CpuCut str) : ¬ CpuRead str values := by
  intro read
  have scanned := (cpu_read_scan str values read).1
  rw [cpu_cut_scan str cut] at scanned
  cases scanned

theorem loop_at_nul (cpus : List Nat) (rest : List UInt8) (prev : Nat → S) :
    m.cpuLoop cpus (nul :: rest) prev = .ok ([], prev) := by
  induction cpus with
  | nil => rfl
  | cons cpu more ih =>
      have mismatch : sscanf cpuFormat (nul :: rest) = .ok [] := rfl
      rw [Monitor.cpu_loop_cons, mismatch, except_ok_bind]
      exact ih

theorem loop_mismatch (cpu : Nat) (cpus : List Nat) (str : List UInt8) (prev : Nat → S) (values : List UInt64)
    (scanned : sscanf cpuFormat str = .ok values) (few : values.length ≠ 10) :
    m.cpuLoop (cpu :: cpus) str prev = m.cpuLoop cpus str prev := by
  have unconverted : converted values = none := by
    rw [← Option.not_isSome_iff_eq_none, converted_length]
    exact few
  rw [Monitor.cpu_loop_cons, scanned, except_ok_bind, unconverted]

theorem loop_line (cpu : Nat) (cpus : List Nat) (str rest : List UInt8) (prev : Nat → S) (values : List UInt64)
    (stat : KCpuStat UInt64) (scanned : sscanf cpuFormat str = .ok values) (fields : converted values = some stat)
    (moved : nextLine str = .ok rest) :
    m.cpuLoop (cpu :: cpus) str prev = (m.cpuLoop cpus rest (Monitor.store prev cpu (m.sample stat))).map
      fun result => (m.shown cpu (prev cpu) (m.sample stat) ++ result.1, result.2) := by
  rw [Monitor.cpu_loop_cons, scanned, except_ok_bind, fields]
  simp only [moved, except_ok_bind]
  cases m.cpuLoop cpus rest (Monitor.store prev cpu (m.sample stat)) <;> rfl

theorem loop_line_cut (cpu : Nat) (cpus : List Nat) (str : List UInt8) (prev : Nat → S) (values : List UInt64)
    (stat : KCpuStat UInt64) (scanned : sscanf cpuFormat str = .ok values) (fields : converted values = some stat)
    (line : Line str) : m.cpuLoop (cpu :: cpus) str prev = .error .beyond := by
  rw [Monitor.cpu_loop_cons, scanned, except_ok_bind, fields]
  simp only [next_line_cut str line]
  rfl

theorem loop_stuck (cpus : List Nat) (str : List UInt8) (prev : Nat → S) (values : List UInt64)
    (scanned : sscanf cpuFormat str = .ok values) (few : values.length ≠ 10) :
    m.cpuLoop cpus str prev = .ok ([], prev) := by
  induction cpus with
  | nil => rfl
  | cons cpu more ih => rw [loop_mismatch m cpu more str prev values scanned few, ih]

theorem cut_does_not_end (count : Nat) (str : List UInt8) (cut : CpuCut str) : ¬ ScansEnd (count + 1) str := by
  intro ends
  cases ends with
  | mismatch _ _ notCut => exact absurd cut notCut
  | line _ _ _ _ values read => exact absurd read (cut_is_not_read _ values cut)

theorem unfinished_line_does_not_end (count : Nat) (str : List UInt8) (values : List UInt64) (read : CpuRead str values)
    (line : Line str) : ¬ ScansEnd (count + 1) str := by
  intro ends
  cases ends with
  | mismatch _ _ _ notRead => exact absurd read (notRead values)
  | line _ other stop rest _ _ _ stops => exact absurd line (line_has_no_stop other rest stop stops)

theorem line_ends_iff (count : Nat) (line : List UInt8) (stop : UInt8) (rest : List UInt8) (values : List UInt64)
    (read : CpuRead (line ++ stop :: rest) values) (whole : Line line) (ends : Stop stop) :
    ScansEnd (count + 1) (line ++ stop :: rest) ↔ (stop = newline → ScansEnd count rest) := by
  constructor
  · intro scans
    generalize text : line ++ stop :: rest = str at scans
    cases scans with
    | mismatch _ _ _ notRead => exact absurd (text ▸ read) (notRead values)
    | line _ other c after _ _ wholeOther stops later =>
        obtain ⟨rfl, rfl, rfl⟩ := line_unique line other stop c rest after text whole ends wholeOther stops
        exact later
  · exact .line count line stop rest values read whole ends

theorem mismatch_ends (count : Nat) (str : List UInt8) (values : List UInt64) (scanned : sscanf cpuFormat str = .ok values)
    (few : values.length ≠ 10) : ScansEnd count str := by
  cases count with
  | zero => exact .noneLeft str
  | succ count =>
      refine .mismatch count str (fun cut => ?_) fun others read => ?_
      · rw [cpu_cut_scan str cut] at scanned
        cases scanned
      · obtain ⟨again, ten⟩ := cpu_read_scan str others read
        rw [again] at scanned
        exact few (Except.ok.inj scanned ▸ ten)

theorem loop_ends_iff (cpus : List Nat) (str : List UInt8) (prev : Nat → S) :
    (∃ result, m.cpuLoop cpus str prev = .ok result) ↔ ScansEnd cpus.length str := by
  induction cpus generalizing str prev with
  | nil => exact ⟨fun _ => .noneLeft str, fun _ => ⟨_, rfl⟩⟩
  | cons cpu cpus ih =>
      rcases cpu_cases str with cut | ⟨values, read⟩ | ⟨values, scanned, few⟩
      · rw [Monitor.cpu_loop_cons, cpu_cut_scan str cut]
        simpa using cut_does_not_end cpus.length str cut
      · obtain ⟨scanned, ten⟩ := cpu_read_scan str values read
        obtain ⟨stat, fields⟩ := Option.isSome_iff_exists.mp ((converted_length values).mpr ten)
        rcases line_cases str with line | ⟨line, stop, rest, rfl, whole, ends⟩
        · rw [loop_line_cut m cpu cpus str prev values stat scanned fields line]
          simpa using unfinished_line_does_not_end cpus.length str values read line
        · rw [List.length_cons, line_ends_iff cpus.length line stop rest values read whole ends]
          rcases ends with rfl | rfl
          · rw [loop_line m cpu cpus _ rest prev values stat scanned fields (next_line_newline line rest whole),
              imp_iff_right rfl, ← ih rest (Monitor.store prev cpu (m.sample stat))]
            simp only [except_map_ok]
            exact ⟨fun ⟨_, middle, ran, _⟩ => ⟨middle, ran⟩, fun ⟨middle, ran⟩ => ⟨_, middle, ran, rfl⟩⟩
          · rw [loop_line m cpu cpus _ (nul :: rest) prev values stat scanned fields (next_line_nul line rest whole),
              loop_at_nul]
            exact ⟨fun _ same => absurd same (by decide), fun _ => ⟨_, rfl⟩⟩
      · rw [loop_stuck m (cpu :: cpus) str prev values scanned few]
        exact ⟨fun _ => mismatch_ends _ str values scanned few, fun _ => ⟨_, rfl⟩⟩

theorem parse_ends_iff (numCpus : Nat) (bytes : List UInt8) (prev : Nat → S) :
    (∃ result, m.parse numCpus bytes prev = .ok result) ↔ StaysInside numCpus bytes := by
  rcases line_cases bytes with line | ⟨line, stop, rest, rfl, whole, ends⟩
  · rw [Monitor.parse, next_line_cut bytes line]
    constructor
    · rintro ⟨result, ran⟩
      cases ran
    · rintro ⟨other, stop, rest, rfl, _, stops, _⟩
      exact absurd line (line_has_no_stop other rest stop stops)
  · have inside : StaysInside numCpus (line ++ stop :: rest) ↔ (stop = newline → ScansEnd numCpus rest) := by
      constructor
      · rintro ⟨other, c, after, same, wholeOther, stops, later⟩
        obtain ⟨rfl, rfl, rfl⟩ := line_unique line other stop c rest after same whole ends wholeOther stops
        exact later
      · exact fun later => ⟨line, stop, rest, rfl, whole, ends, later⟩
    rw [inside]
    rcases ends with rfl | rfl
    · rw [Monitor.parse, next_line_newline line rest whole, except_ok_bind, imp_iff_right rfl, loop_ends_iff,
        List.length_range]
    · rw [Monitor.parse, next_line_nul line rest whole, except_ok_bind, loop_at_nul]
      exact ⟨fun _ same => absurd same (by decide), fun _ => ⟨_, rfl⟩⟩

theorem next_line_more (str rest more : List UInt8) (done : nextLine str = .ok rest) :
    nextLine (str ++ more) = .ok (rest ++ more) := by
  rcases line_cases str with line | ⟨line, stop, after, rfl, whole, rfl | rfl⟩
  · rw [next_line_cut str line] at done
    cases done
  · rw [next_line_newline line after whole] at done
    cases done
    rw [List.append_assoc, List.cons_append, next_line_newline line _ whole]
  · rw [next_line_nul line after whole] at done
    cases done
    rw [List.append_assoc, List.cons_append, next_line_nul line _ whole]

theorem loop_more (cpus : List Nat) (str more : List UInt8) (prev : Nat → S) (result : List (Message R) × (Nat → S))
    (done : m.cpuLoop cpus str prev = .ok result) : m.cpuLoop cpus (str ++ more) prev = .ok result := by
  induction cpus generalizing str prev result with
  | nil => exact done
  | cons cpu cpus ih =>
      obtain ⟨values, scanned, done⟩ := (except_bind_ok _ _ _).mp done
      rw [Monitor.cpu_loop_cons, sscanf_more cpuFormat str more values scanned, except_ok_bind]
      cases fields : converted values with
      | none =>
          rw [fields] at done
          exact ih str prev result done
      | some stat =>
          rw [fields] at done
          obtain ⟨rest, moved, done⟩ := (except_bind_ok _ _ _).mp done
          obtain ⟨later, ran, same⟩ := (except_bind_ok _ _ _).mp done
          simp only [next_line_more str rest more moved, except_ok_bind, ih rest _ later ran]
          exact same

theorem parse_more (numCpus : Nat) (bytes more : List UInt8) (prev : Nat → S) (result : List (Message R) × (Nat → S))
    (done : m.parse numCpus bytes prev = .ok result) : m.parse numCpus (bytes ++ more) prev = .ok result := by
  obtain ⟨line, moved, ran⟩ := (except_bind_ok _ _ _).mp done
  rw [Monitor.parse, next_line_more bytes line more moved, except_ok_bind]
  exact loop_more m _ line more prev result ran

-- No read through the cursor touches position n of the buffer or one past it: the run
-- needs the first n bytes only.
def Inside (n numCpus : Nat) (buf : List UInt8) : Prop :=
  ∀ prev, ∃ result, m.parse numCpus (buf.take n) prev = .ok result ∧ m.parse numCpus buf prev = .ok result

theorem inside_iff [Inhabited S] (n numCpus : Nat) (buf : List UInt8) :
    Inside m n numCpus buf ↔ StaysInside numCpus (buf.take n) := by
  constructor
  · intro inside
    obtain ⟨result, ran, _⟩ := inside fun _ => default
    exact (parse_ends_iff m numCpus _ _).mp ⟨result, ran⟩
  · intro stays prev
    obtain ⟨result, ran⟩ := (parse_ends_iff m numCpus _ prev).mpr stays
    refine ⟨result, ran, ?_⟩
    have longer := parse_more m numCpus _ (buf.drop n) prev result ran
    rwa [List.take_append_drop] at longer

instance : Inhabited PerCpuUsage.Sample := ⟨⟨0, 0⟩⟩

instance : Inhabited Softwdt.LoadSoftwdt.Sample := ⟨⟨0, 0, 0⟩⟩

theorem cursor_inside_iff (n numCpus : Nat) (buf : List UInt8) :
    (Inside PerCpuUsage.monitor n numCpus buf ↔ StaysInside numCpus (buf.take n)) ∧
      (Inside Softwdt.LoadSoftwdt.monitor n numCpus buf ↔ StaysInside numCpus (buf.take n)) :=
  ⟨inside_iff PerCpuUsage.monitor n numCpus buf, inside_iff Softwdt.LoadSoftwdt.monitor n numCpus buf⟩

-- The lines of a machine that has just been started, all its counters 0.
def zeroLine (label : List UInt8) : List UInt8 := cpu ++ label ++ (List.replicate 10 [32, 48]).flatten ++ [newline]

def label (cpu : Nat) : List UInt8 := (Nat.toDigits 10 cpu).map fun c => UInt8.ofNat c.toNat

def startedStat (cpus : Nat) : List UInt8 := zeroLine [32] ++ (List.range cpus).flatMap fun cpu => zeroLine (label cpu)

-- With 200 CPUs the text is longer than the buffer, which ends in the middle of a CPU line.
theorem full_buffer_is_left : ¬ ∀ n numCpus buf, 0 < n → n ≤ cpuInfoBufsize → buf.length = cpuInfoBufsize →
    Inside PerCpuUsage.monitor n numCpus buf := by
  intro claimed
  have size : ((startedStat 200).take cpuInfoBufsize).length = cpuInfoBufsize := by decide +kernel
  obtain ⟨result, ran, _⟩ := claimed cpuInfoBufsize 200 _ (by decide) (by decide) size fun _ => default
  have faults : (PerCpuUsage.monitor.parse 200 (((startedStat 200).take cpuInfoBufsize).take cpuInfoBufsize)
      fun _ => default).toBool = false := by decide +kernel
  rw [ran] at faults
  cases faults

end LinuxModule.ProcStat
