import LinuxModule.SteTop.FrameLoop
import LinuxModule.Base.Words

set_option autoImplicit false

namespace LinuxModule.SteTop

-- A reading of the boot-time clock, a ktime_t, as ktime_get_boottime_ts64 stores it.
def bootTime (ns : Nat) : Timespec := ⟨ns / 1000000000, ns % 1000000000⟩

def clampedTime (cur sav : Nat) : Nat := max 10000000 (cur - sav)

def permille (column : UInt64 × UInt64) : Nat := 10 * column.1.toNat + column.2.toNat

-- The cap as it meets a u64: the int product 100 * num_threads, converted.
def threadCap (numThreads : Int) : UInt64 := UInt64.ofInt (cInt (100 * numThreads))

-- The two products of the column, 1000 * per_cpu_time in u64 and 100 * num_threads in
-- int, and when each of them does not matter although it wraps.
structure ColumnFits (et numThreads perCpuTime : Nat) : Prop where
  time : 1000 * perCpuTime < 2 ^ 64 ∨ 1000 * numThreads * et ≤ 1000 * perCpuTime % 2 ^ 64
  cap : 100 * numThreads < 2 ^ 31 ∨
    1000 * perCpuTime % 2 ^ 64 < (10 * min (100 * numThreads) (threadCap numThreads).toNat + 1) * et

theorem elapsed_boot_times (cur sav : Nat) (curFits : cur < 2 ^ 63) (savFits : sav < 2 ^ 63) :
    elapsed (bootTime cur) (bootTime sav) = clampedTime cur sav := by
  have seconds : cLong ((bootTime cur).sec - (bootTime sav).sec) = (cur / 1000000000 : Nat) - (sav / 1000000000 : Nat) := by
    simp only [bootTime, cLong, Int.bmod]
    omega
  have product : cLong (((cur / 1000000000 : Nat) - (sav / 1000000000 : Nat)) * nsecPerSec) =
      ((cur / 1000000000 : Nat) - (sav / 1000000000 : Nat)) * 1000000000 := by
    simp only [nsecPerSec, cLong, Int.bmod]
    omega
  have difference : cLong (((cur / 1000000000 : Nat) - (sav / 1000000000 : Nat)) * 1000000000 +
      ((bootTime cur).nsec - (bootTime sav).nsec)) = (cur : Int) - sav := by
    simp only [bootTime, cLong, Int.bmod]
    omega
  have hundredth : nsecPerSec / 100 = 10000000 := rfl
  rw [elapsed, seconds, product, difference, hundredth, clampedTime]
  by_cases short : (cur : Int) - sav < 10000000
  · rw [if_pos short]
    omega
  · rw [if_neg short]
    omega

theorem clamped_time_fits (cur sav : Nat) (curFits : cur < 2 ^ 63) :
    10000000 ≤ clampedTime cur sav ∧ clampedTime cur sav < 2 ^ 63 := by
  rw [clampedTime]
  omega

theorem uint64_of_int_value (x : Int) : (UInt64.ofInt x).toNat = (x % 2 ^ 64).toNat := by
  rw [UInt64.ofInt, UInt64.toNat_ofNat']
  omega

theorem thread_cap_iff (numThreads : Nat) (int : numThreads < 2 ^ 31) :
    (threadCap numThreads).toNat = 100 * numThreads ↔ 100 * numThreads < 2 ^ 31 := by
  rw [threadCap, uint64_of_int_value]
  constructor
  · intro equal
    have range : -2147483648 ≤ cInt (100 * numThreads) ∧ cInt (100 * numThreads) < 2147483648 := by
      simp only [cInt, Int.bmod]
      omega
    generalize cInt (100 * numThreads) = capped at equal range
    by_cases negative : capped < 0
    · have value : capped % 2 ^ 64 = capped + 2 ^ 64 := by omega
      omega
    · have value : capped % 2 ^ 64 = capped := Int.emod_eq_of_lt (by omega) (by omega)
      omega
  · intro fits
    have same : cInt (100 * numThreads) = 100 * numThreads := c_int_fits _ (by omega) (by omega)
    rw [same, Int.emod_eq_of_lt (by omega) (by omega)]
    omega

theorem permille_value (et : Nat) (info : ProcInfo) (fits : et < 2 ^ 64) :
    permille (cpuColumn et info) =
      min (10 * (threadCap info.numThreads).toNat) (1000 * info.perCpuTime.toNat % 2 ^ 64 / et) := by
  have whole : (info.perCpuTime * 1000 / UInt64.ofInt et).toNat = 1000 * info.perCpuTime.toNat % 2 ^ 64 / et := by
    have thousand : (1000 : UInt64).toNat = 1000 := rfl
    have divisor : ((et : Int) % 2 ^ 64).toNat = et := by omega
    rw [UInt64.toNat_div, UInt64.toNat_mul, uint64_of_int_value, divisor, thousand, Nat.mul_comm]
  have ten : (10 : UInt64).toNat = 10 := rfl
  rw [← whole, cpuColumn, ← threadCap]
  by_cases capped : info.perCpuTime * 1000 / UInt64.ofInt et / 10 ≥ threadCap info.numThreads
  · have reached := UInt64.le_iff_toNat_le.mp capped
    rw [UInt64.toNat_div, ten] at reached
    rw [if_pos capped]
    change 10 * (threadCap info.numThreads).toNat + 0 = _
    omega
  · have below : ¬ (threadCap info.numThreads).toNat ≤ _ := fun reached => capped (UInt64.le_iff_toNat_le.mpr reached)
    rw [UInt64.toNat_div, ten] at below
    rw [if_neg capped]
    change 10 * (_ / 10 : UInt64).toNat + (_ % 10 : UInt64).toNat = _
    rw [UInt64.toNat_div, UInt64.toNat_mod, ten]
    omega

theorem column_value_iff (et numThreads : Nat) (info : ProcInfo) (positive : 0 < et) (fits : et < 2 ^ 63)
    (threads : info.numThreads = numThreads) (int : numThreads < 2 ^ 31) :
    permille (cpuColumn et info) = min (1000 * numThreads) (1000 * info.perCpuTime.toNat / et) ↔
      ColumnFits et numThreads info.perCpuTime.toNat := by
  have wraps := wrapped_quotient_iff (2 ^ 64) (1000 * info.perCpuTime.toNat) et positive (by omega)
  have smaller := wrapped_quotient_lt (2 ^ 64) (1000 * info.perCpuTime.toNat) et positive (by omega)
  have capped := thread_cap_iff numThreads int
  have reached := Nat.le_div_iff_mul_le (x := 1000 * numThreads) (y := 1000 * info.perCpuTime.toNat % 2 ^ 64) positive
  have below := Nat.div_lt_iff_lt_mul (x := 1000 * info.perCpuTime.toNat % 2 ^ 64)
    (y := 10 * min (100 * numThreads) (threadCap numThreads).toNat + 1) positive
  rw [permille_value et info (by omega), threads]
  constructor
  · intro same
    exact ⟨by omega, by omega⟩
  · rintro ⟨time, cap⟩
    omega

-- What the next call of procs_hlp(NULL) measures from, and what show() divides by.
def clock (s : Globals) : Int × Timespec := (s.et, s.uptimeSav)

theorem on_slots_clock {α : Type} (f : Slots → Except Fault (α × Slots)) : Walk.Keeps clock (onSlots f) := by
  intro s a next ran
  obtain ⟨_, _, rfl⟩ := on_slots_result f s next a ran
  rfl

theorem on_tables_clock {α : Type} (f : Tables → Except Fault (α × Tables)) : Walk.Keeps clock (onTables f) := by
  intro s a next ran
  obtain ⟨_, _, rfl⟩ := on_tables_result f s next a ran
  rfl

theorem row_of_clock (slot : Option Nat) : Walk.Keeps clock (rowOf slot) := by
  intro s row next ran
  rw [row_of_result slot s next row ran]

theorem read_slot_clock : Walk.Keeps clock readSlot :=
  Walk.keeps_bind clock _ _ (Walk.keeps_mark clock _) fun _ => on_slots_clock _

theorem make_room_clock (array : Bool) : Walk.Keeps clock (makeRoom array) := by
  refine Walk.keeps_bind clock _ _ (Walk.keeps_get clock) fun s => ?_
  refine Walk.keeps_bind clock _ _ ?_ fun room => Walk.keeps_bind clock _ _ (Walk.keeps_mark clock _) fun _ =>
    Walk.keeps_pure clock room
  rw [growFull]
  split
  · exact Walk.keeps_bind clock _ _ (Walk.keeps_mark clock _) fun _ => on_slots_clock _
  · exact Walk.keeps_pure clock true

theorem place_row_clock (row : Option ProcInfo) : Walk.Keeps clock (placeRow row) := by
  refine Walk.keeps_bind clock _ _ read_slot_clock fun slot => Walk.keeps_bind clock _ _ ?_ fun _ =>
    Walk.keeps_bind clock _ _ read_slot_clock fun _ => Walk.keeps_pure clock _
  rw [allocRow]
  split
  · refine Walk.keeps_bind clock _ _ (Walk.keeps_mark clock _) fun _ => ?_
    exact Walk.keeps_bind clock _ _ (Walk.keeps_mark clock _) fun _ => on_slots_clock _
  · exact Walk.keeps_pure clock ()

section Clock

variable (hash : Hash)

theorem procs_hlp_clock (hst : Bool) (this : Nat) : Walk.Keeps clock (procsHlp hash hst this) := by
  refine Walk.keeps_bind clock _ _ (on_slots_clock _) fun info => ?_
  refine Walk.keeps_bind clock _ _ (Walk.keeps_modify clock _ fun _ => rfl) fun _ => ?_
  refine Walk.keeps_bind clock _ _ (Walk.keeps_mark clock _) fun _ => ?_
  cases hst with
  | false => exact Walk.keeps_pure clock ()
  | true => exact Walk.keeps_bind clock _ _ (on_tables_clock _) fun _ => on_slots_clock _

theorem record_task_clock (v : Visit) : Walk.Keeps clock (recordTask hash v) := by
  refine Walk.keeps_bind clock _ _ read_slot_clock fun slot => Walk.keeps_bind clock _ _ (row_of_clock slot) fun row => ?_
  refine Walk.keeps_bind clock _ _ (on_slots_clock _) fun _ => ?_
  refine Walk.keeps_bind clock _ _ (Walk.keeps_modify clock _ fun _ => rfl) fun _ => ?_
  refine Walk.keeps_bind clock _ _ read_slot_clock fun slot => Walk.keeps_bind clock _ _ (row_of_clock slot) fun row => ?_
  exact procs_hlp_clock hash v.hst row

theorem visit_task_clock (v : Visit) : Walk.Keeps clock (visitTask hash v) := by
  refine Walk.keeps_bind clock _ _ (Walk.keeps_mark clock _) fun _ => ?_
  refine Walk.keeps_bind clock _ _ (Walk.keeps_modify clock _ fun _ => rfl) fun _ => ?_
  refine Walk.keeps_bind clock _ _ (make_room_clock v.array) fun room => ?_
  cases room with
  | false => exact Walk.keeps_pure clock ()
  | true =>
      refine Walk.keeps_bind clock _ _ (place_row_clock v.row) fun placed => ?_
      cases placed with
      | false => exact Walk.keeps_pure clock ()
      | true => exact record_task_clock hash v

theorem procs_refresh_clock (r : Refresh) (s after : Globals) (ran : Walk.final (procsRefresh hash r) s = .ok after) :
    clock after = (elapsed r.uptimeCur s.uptimeSav, r.uptimeCur) := by
  obtain ⟨_, ready, reset, rest⟩ := (Walk.final_bind _ _ s after).mp ran
  have measured : clock ready = (elapsed r.uptimeCur s.uptimeSav, r.uptimeCur) := by
    obtain ⟨_, _, rfl⟩ := procs_hlp_null_result hash r.uptimeCur s ready reset
    rfl
  have walked : Walk.Keeps clock (do
      Walk.forEach r.visits (visitTask hash)
      Walk.mark .refreshed) :=
    Walk.keeps_bind clock _ _ (Walk.keeps_for_each clock _ _ fun v _ => visit_task_clock hash v) fun _ =>
      Walk.keeps_mark clock _
  exact (Walk.keeps_final clock _ walked ready after rest).trans measured

-- Nothing but procs_refresh touches the clock: sort, show and update_cpu_times find et as it left it.
theorem call_clock (call : Call) (still : call.refresh = none) : Walk.Keeps clock (call.run hash) := by
  cases call with
  | updateCpuTimes cpus =>
      exact Walk.keeps_bind clock _ _ (Walk.keeps_modify clock _ fun _ => rfl) fun _ => Walk.keeps_pure clock none
  | procsRefresh r => cases still
  | sortRows sort => exact Walk.keeps_bind clock _ _ (on_slots_clock _) fun _ => Walk.keeps_pure clock none
  | showProcs si =>
      refine Walk.keeps_bind clock _ _ ?_ fun shown => Walk.keeps_pure clock (some shown)
      refine Walk.keeps_bind clock _ _ (Walk.keeps_modify clock _ fun _ => rfl) fun _ => ?_
      refine Walk.keeps_bind clock _ _ (Walk.keeps_get clock) fun s => ?_
      exact Walk.keeps_bind clock _ _ (on_slots_clock _) fun rows => Walk.keeps_pure clock _

theorem run_calls_clock (r : Refresh) (later : List Call) (still : ∀ call ∈ later, call.refresh = none)
    (s after : Globals) (ran : Walk.final (runCalls hash (.procsRefresh r :: later)) s = .ok after) :
    clock after = (elapsed r.uptimeCur s.uptimeSav, r.uptimeCur) := by
  obtain ⟨refreshed, first, rest⟩ := (Walk.final_for_each_cons _ _ _ s after).mp ran
  rw [Walk.final_bind_pure] at first
  obtain ⟨_, next, done, returned⟩ := (Walk.final_bind _ _ s refreshed).mp first
  cases returned
  have measured := procs_refresh_clock hash r s next (by rw [Walk.final, done]; rfl)
  have kept : Walk.Keeps clock (runCalls hash later) :=
    Walk.keeps_for_each clock _ _ fun call member =>
      Walk.keeps_bind clock _ _ (call_clock hash call (still call member)) fun _ => Walk.keeps_pure clock ()
  exact (Walk.keeps_final clock _ kept _ after rest).trans measured

end Clock

theorem column_exact_iff (cur sav : Nat) (curFits : cur < 2 ^ 63) (savFits : sav < 2 ^ 63) (numThreads : Nat)
    (int : numThreads < 2 ^ 31) (info : ProcInfo) (counted : info.numThreads = numThreads) :
    elapsed (bootTime cur) (bootTime sav) = clampedTime cur sav ∧ 0 < elapsed (bootTime cur) (bootTime sav) ∧
      (∀ hash r later s after, r.uptimeCur = bootTime cur → s.uptimeSav = bootTime sav →
        (∀ call ∈ later, Call.refresh call = none) →
        Walk.final (runCalls hash (.procsRefresh r :: later)) s = .ok after →
        after.et = elapsed (bootTime cur) (bootTime sav)) ∧
      (permille (cpuColumn (elapsed (bootTime cur) (bootTime sav)) info) =
          min (1000 * numThreads) (1000 * info.perCpuTime.toNat / clampedTime cur sav) ↔
        ColumnFits (clampedTime cur sav) numThreads info.perCpuTime.toNat) := by
  obtain ⟨clamped, fits⟩ := clamped_time_fits cur sav curFits
  have measured := elapsed_boot_times cur sav curFits savFits
  refine ⟨measured, by omega, ?_, ?_⟩
  · intro hash r later s after reading saved still ran
    have left := run_calls_clock hash r later still s after ran
    rw [reading, saved] at left
    exact congrArg Prod.fst left
  · rw [measured]
    exact column_value_iff _ numThreads info (by omega) fits counted int

-- Three seconds of CPU time in two seconds, on four threads.
def busyThreads : ProcInfo := { blankRow with perCpuTime := 3000000000, numThreads := 4 }

theorem busy_threads_column :
    permille (cpuColumn (elapsed (bootTime 3000000000) (bootTime 1000000000)) busyThreads) = 1500 := by
  obtain ⟨_, _, _, shown⟩ := column_exact_iff 3000000000 1000000000 (by decide) (by decide) 4 (by decide) busyThreads rfl
  exact (shown.mpr ⟨.inl (by decide), .inl (by decide)⟩).trans (by decide)

-- A process of one thread whose whole life of 213 days of CPU time is taken as the delta.
def longRunning : ProcInfo := { blankRow with perCpuTime := 18446744073709552, numThreads := 1 }

theorem long_running_shows_zero :
    ¬ ∀ cur sav, cur < 2 ^ 63 → sav < 2 ^ 63 → ∀ (numThreads : Nat) (info : ProcInfo), 1 ≤ numThreads →
      numThreads < 2 ^ 31 → info.numThreads = numThreads →
      permille (cpuColumn (elapsed (bootTime cur) (bootTime sav)) info) =
        min (1000 * numThreads) (1000 * info.perCpuTime.toNat / clampedTime cur sav) := by
  intro claimed
  have shown := claimed 1000000000 0 (by decide) (by decide) 1 longRunning (by decide) (by decide) rfl
  exact absurd shown (by decide)

end LinuxModule.SteTop
