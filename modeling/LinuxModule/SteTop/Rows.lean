import LinuxModule.SteTop.Refresh
import Mathlib.Data.List.Range
import Mathlib.Data.List.Perm.Basic

set_option autoImplicit false

namespace LinuxModule.SteTop

-- The slots of the array process_info points to; none when it is NULL.
def Slots.cells (t : Slots) : List (Option Nat) :=
  match t.processInfo with
  | none => []
  | some address => (t.arrays.read address).getD []

-- n_alloc stays below this: growing from any larger capacity would overflow n_alloc * 5.
def maxAlloc : Int := 536870921

-- `rows` are the rows in slot order. They fill a prefix of the array, they are all
-- the rows there are, and the array is the only one alive.
structure RowsOwned (t : Slots) (rows : List Nat) : Prop where
  spare : ∃ k, t.cells = rows.map some ++ List.replicate k none
  capacity : t.nAlloc = t.cells.length
  limit : t.nAlloc ≤ maxAlloc
  arrays : ∀ address, t.arrays.Live address ↔ t.processInfo = some address
  owned : rows.Perm (List.range t.rows.size)
  kept : t.rows.freed = []
  filled : t.total ≤ rows.length

theorem rows_initial : RowsOwned initial.slots [] where
  spare := ⟨0, rfl⟩
  capacity := rfl
  limit := by decide
  arrays := by simp [initial, Heap.Live, Heap.empty, Heap.size]
  owned := List.Perm.refl _
  kept := rfl
  filled := Nat.le_refl _

theorem rows_fit (t : Slots) (rows : List Nat) (owned : RowsOwned t rows) : rows.length ≤ t.cells.length := by
  obtain ⟨k, cells⟩ := owned.spare
  simp [cells]

theorem rows_distinct (t : Slots) (rows : List Nat) (owned : RowsOwned t rows) : rows.Nodup :=
  owned.owned.nodup_iff.mpr List.nodup_range

theorem rows_live (t : Slots) (rows : List Nat) (owned : RowsOwned t rows) (row : Nat) :
    row ∈ rows ↔ t.rows.Live row := by
  simp [owned.owned.mem_iff, Heap.Live, owned.kept]

theorem rows_array (t : Slots) (rows : List Nat) (owned : RowsOwned t rows) (some_slot : 0 < t.cells.length) :
    ∃ address, t.processInfo = some address ∧ t.arrays.Live address ∧ t.arrays.read address = some t.cells := by
  cases at_null : t.processInfo with
  | none => simp [Slots.cells, at_null] at some_slot
  | some address =>
      have live := (owned.arrays address).mpr at_null
      obtain ⟨slots, read⟩ := Heap.live_read _ _ live
      exact ⟨address, rfl, live, by simp [Slots.cells, at_null, read]⟩

theorem slot_array_spec (t : Slots) (address : Nat) (slots : List (Option Nat))
    (here : t.processInfo = some address) (read : t.arrays.read address = some slots) :
    slotArray t = .ok (address, slots) := by
  simp only [slotArray, here, read]

theorem cells_access (t : Slots) (rows : List Nat) (owned : RowsOwned t rows) (i : Nat) (bound : i < t.cells.length) :
    t.cells[i]? = some rows[i]? := by
  obtain ⟨k, cells⟩ := owned.spare
  rw [cells] at bound ⊢
  by_cases inside : i < rows.length
  · rw [List.getElem?_append_left (by simpa using inside)]
    simp [inside]
  · have past : rows[i]? = none := List.getElem?_eq_none (by omega)
    rw [List.getElem?_append_right (by simpa using inside), past, List.getElem?_replicate_of_lt]
    simp only [List.length_append, List.length_map, List.length_replicate] at bound ⊢
    omega

theorem get_slot_spec (t : Slots) (rows : List Nat) (owned : RowsOwned t rows) (i : Nat) (bound : i < t.cells.length) :
    getSlot t i = .ok rows[i]? := by
  obtain ⟨address, here, _, read⟩ := rows_array t rows owned (by omega)
  have array := slot_array_spec t address _ here read
  simp only [getSlot, array, except_ok_bind, cells_access t rows owned i bound]

theorem set_slot_spec (t : Slots) (address : Nat) (i : Nat) (slot : Option Nat)
    (here : t.processInfo = some address) (live : t.arrays.Live address)
    (read : t.arrays.read address = some t.cells) (bound : i < t.cells.length) :
    setSlot t i slot = .ok { t with arrays := t.arrays.store address (t.cells.set i slot) } := by
  have array := slot_array_spec t address _ here read
  simp only [setSlot, array, except_ok_bind, if_pos bound, Heap.write_live _ _ _ live]

theorem cells_read (t : Slots) (address : Nat) (slots : List (Option Nat)) (here : t.processInfo = some address)
    (read : t.arrays.read address = some slots) : t.cells = slots := by
  simp only [Slots.cells, here, read, Option.getD_some]

theorem cells_store (t : Slots) (address : Nat) (slots : List (Option Nat)) (here : t.processInfo = some address)
    (live : t.arrays.Live address) : ({ t with arrays := t.arrays.store address slots } : Slots).cells = slots :=
  cells_read _ address slots here (Heap.read_store_here _ _ _ live)

theorem next_alloc_exact (nAlloc : Int) (low : 0 ≤ nAlloc) (high : nAlloc * 5 < 2 ^ 31) :
    nextAlloc nAlloc = 10 + nAlloc * 5 / 4 := by
  have product : cInt (nAlloc * 5) = nAlloc * 5 := c_int_fits _ (by omega) high
  have quotient : (nAlloc * 5).tdiv 4 = nAlloc * 5 / 4 := Int.tdiv_eq_ediv_of_nonneg (by omega)
  rw [nextAlloc, product, quotient, c_int_fits _ (by omega) (by omega)]

theorem next_alloc_overflow (nAlloc : Int) (low : 2 ^ 31 ≤ nAlloc * 5) (high : nAlloc ≤ maxAlloc) :
    nextAlloc nAlloc < 0 := by
  have limit : nAlloc ≤ 536870921 := high
  have product : cInt (nAlloc * 5) = nAlloc * 5 - 2 ^ 32 := c_int_overflows _ low (by omega)
  have quotient : (nAlloc * 5 - 2 ^ 32).tdiv 4 = -((2 ^ 32 - nAlloc * 5) / 4) := by
    have flip : nAlloc * 5 - 2 ^ 32 = -(2 ^ 32 - nAlloc * 5) := by omega
    rw [flip, Int.neg_tdiv, Int.tdiv_eq_ediv_of_nonneg (by omega)]
  rw [nextAlloc, product, quotient, c_int_fits _ (by omega) (by omega)]
  omega

theorem granted_grows (array : Bool) (nAlloc : Int) (low : 0 ≤ nAlloc) (high : nAlloc ≤ maxAlloc)
    (ok : granted array (nextAlloc nAlloc) = true) :
    nAlloc < nextAlloc nAlloc ∧ nextAlloc nAlloc ≤ maxAlloc := by
  have nonneg : 0 ≤ nextAlloc nAlloc := by simpa [granted] using (Bool.and_eq_true_iff.mp ok).2
  have limit : maxAlloc = 536870921 := rfl
  by_cases fits : nAlloc * 5 < 2 ^ 31
  · rw [next_alloc_exact nAlloc low fits] at nonneg ⊢
    omega
  · have negative := next_alloc_overflow nAlloc (by omega) high
    omega

-- The capacity never keeps its value, so a failed growth shows.
theorem next_alloc_moves (nAlloc : Int) (low : 0 ≤ nAlloc) (high : nAlloc ≤ maxAlloc) : nextAlloc nAlloc ≠ nAlloc := by
  by_cases fits : nAlloc * 5 < 2 ^ 31
  · rw [next_alloc_exact nAlloc low fits]
    omega
  · have negative := next_alloc_overflow nAlloc (by omega) high
    omega

theorem grow_array_spec (array : Bool) (t : Slots) (rows : List Nat) (owned : RowsOwned t rows)
    (full : t.nAlloc = t.total) (ok : granted array (nextAlloc t.nAlloc) = true) :
    ∃ next, growArray array t = .ok (true, next) ∧ RowsOwned next rows ∧ next.rows = t.rows ∧
      next.total = t.total ∧ t.total < next.cells.length := by
  have fit := rows_fit t rows owned
  have capacity := owned.capacity
  obtain ⟨grows, limit⟩ := granted_grows array t.nAlloc (by omega) owned.limit ok
  -- A full array has no spare slot, so total, rows and capacity agree.
  have exact_fit : t.total = t.cells.length := by omega
  have all_rows : rows.length = t.total := by
    have filled := owned.filled
    omega
  have old_cells : t.cells = rows.map some := by
    obtain ⟨k, cells⟩ := owned.spare
    have lengths := congrArg List.length cells
    simp only [List.length_append, List.length_map, List.length_replicate] at lengths
    have none_left : k = 0 := by omega
    simpa [none_left] using cells
  have copied : copySource t = .ok t.cells := by
    by_cases none_yet : t.total = 0
    · have no_cells : t.cells = [] := List.length_eq_zero_iff.mp (by omega)
      rw [copySource, if_pos none_yet, no_cells]
    · obtain ⟨address, here, _, read⟩ := rows_array t rows owned (by omega)
      rw [copySource, if_neg none_yet, slot_array_spec t address _ here read]
      rfl
  have roomy : t.total ≤ (nextAlloc t.nAlloc).toNat := by omega
  obtain ⟨arrays, freed, old_gone, kept_size⟩ :
      ∃ arrays, kfreeArray t.processInfo (t.arrays.alloc
          (t.cells.take t.total ++ List.replicate ((nextAlloc t.nAlloc).toNat - t.total) none)) = .ok arrays ∧
        (∀ a, arrays.Live a ↔ a = t.arrays.size) ∧
        arrays.read t.arrays.size =
          some (t.cells.take t.total ++ List.replicate ((nextAlloc t.nAlloc).toNat - t.total) none) := by
    cases at_null : t.processInfo with
    | none =>
        refine ⟨_, rfl, fun a => ?_, Heap.read_alloc_fresh _ _⟩
        simp [Heap.live_alloc, owned.arrays, at_null]
    | some address =>
        have live := (owned.arrays address).mpr at_null
        have still := (Heap.live_alloc t.arrays
          (t.cells.take t.total ++ List.replicate ((nextAlloc t.nAlloc).toNat - t.total) none) address).mpr (.inl live)
        have different : t.arrays.size ≠ address := Ne.symm (Nat.ne_of_lt live.1)
        refine ⟨_, by simp only [kfreeArray, Heap.free_live _ _ still]; rfl, fun a => ?_, ?_⟩
        · rw [Heap.live_release, Heap.live_alloc, owned.arrays, at_null, Option.some.injEq]
          omega
        · rw [Heap.read_release _ _ _ still different]
          exact Heap.read_alloc_fresh _ _
  have whole : t.cells.take t.total = rows.map some := by rw [exact_fit, List.take_length, old_cells]
  have cells : ({ t with nAlloc := nextAlloc t.nAlloc, processInfo := some t.arrays.size, arrays := arrays } : Slots).cells =
      rows.map some ++ List.replicate ((nextAlloc t.nAlloc).toNat - t.total) none := by
    rw [cells_read _ t.arrays.size _ rfl kept_size, whole]
  have length := congrArg List.length cells
  simp only [List.length_append, List.length_map, List.length_replicate] at length
  refine ⟨{ t with nAlloc := nextAlloc t.nAlloc, processInfo := some t.arrays.size, arrays := arrays },
    ?_, ⟨⟨_, cells⟩, ?_, limit, ?_, owned.owned, owned.kept, owned.filled⟩, rfl, rfl, ?_⟩
  · simp only [growArray, if_pos ok, copied]
    change (if t.cells.length < t.total ∨ (nextAlloc t.nAlloc).toNat < t.total then _ else _) = _
    rw [if_neg (by omega), freed]
    rfl
  · rw [length]
    change nextAlloc t.nAlloc = _
    omega
  · intro a
    rw [old_gone]
    simp [eq_comm]
  · rw [length]
    omega

theorem new_row_spec (t : Slots) (rows : List Nat) (owned : RowsOwned t rows) (info : ProcInfo)
    (free : t.total = rows.length) (bound : t.total < t.cells.length) :
    ∃ next, setSlot { t with rows := t.rows.alloc info } t.total (some t.rows.size) = .ok next ∧
      RowsOwned next (rows ++ [t.rows.size]) ∧ next.rows = t.rows.alloc info ∧ next.total = t.total ∧
      next.cells.length = t.cells.length := by
  obtain ⟨address, here, live, read⟩ := rows_array t rows owned (by omega)
  obtain ⟨k, cells⟩ := owned.spare
  have set := set_slot_spec { t with rows := t.rows.alloc info } address t.total (some t.rows.size) here live read bound
  have stored := cells_store { t with rows := t.rows.alloc info } address
    (t.cells.set t.total (some t.rows.size)) here live
  have same : ({ t with rows := t.rows.alloc info } : Slots).cells = t.cells := rfl
  rw [same] at set
  refine ⟨_, set, ⟨?_, ?_, owned.limit, ?_, ?_, owned.kept, ?_⟩, rfl, rfl, by rw [stored]; simp⟩
  · cases k with
    | zero =>
        have lengths := congrArg List.length cells
        simp at lengths
        omega
    | succ k =>
        refine ⟨k, ?_⟩
        rw [stored, cells, List.set_append_right _ _ (by simp [free])]
        simp [free, List.replicate_succ]
  · rw [stored, List.length_set]
    exact owned.capacity
  · intro a
    rw [Heap.live_store]
    exact owned.arrays a
  · simp only [Heap.size_alloc, List.range_succ]
    exact owned.owned.append_right _
  · simp only [List.length_append, List.length_cons, List.length_nil]
    omega

theorem no_row_spec (t : Slots) (rows : List Nat) (owned : RowsOwned t rows)
    (free : t.total = rows.length) (bound : t.total < t.cells.length) :
    ∃ next, setSlot t t.total none = .ok next ∧ RowsOwned next rows ∧ next.rows = t.rows ∧
      next.total = t.total ∧ next.cells = t.cells := by
  obtain ⟨address, here, live, read⟩ := rows_array t rows owned (by omega)
  have stored := cells_store t address (t.cells.set t.total none) here live
  have unchanged : t.cells.set t.total none = t.cells := by
    have already : t.cells[t.total] = none := by
      have access := cells_access t rows owned t.total bound
      rw [List.getElem?_eq_getElem bound, List.getElem?_eq_none (by omega : rows.length ≤ t.total)] at access
      exact Option.some.inj access
    apply List.ext_getElem (by simp)
    intro i _ inside
    by_cases here : t.total = i
    · subst here
      simp [already]
    · simp [List.getElem_set_ne here]
  rw [unchanged] at stored
  refine ⟨_, set_slot_spec t address t.total none here live read bound, ?_, rfl, rfl, by rw [unchanged, stored]⟩
  rw [unchanged]
  refine ⟨by rw [stored]; exact owned.spare, by rw [stored]; exact owned.capacity, owned.limit, fun a => ?_,
    owned.owned, owned.kept, owned.filled⟩
  rw [Heap.live_store]
  exact owned.arrays a

theorem store_row_owned (t : Slots) (rows : List Nat) (owned : RowsOwned t rows) (row : Nat) (info : ProcInfo) :
    RowsOwned { t with rows := t.rows.store row info } rows :=
  { owned with owned := by simpa using owned.owned }

theorem count_row_owned (t : Slots) (rows : List Nat) (owned : RowsOwned t rows) (next : t.total < rows.length) :
    RowsOwned { t with total := t.total + 1 } rows :=
  { owned with filled := next }

theorem reset_total_owned (t : Slots) (rows : List Nat) (owned : RowsOwned t rows) :
    RowsOwned { t with total := 0 } rows :=
  { owned with filled := Nat.zero_le _ }

end LinuxModule.SteTop
