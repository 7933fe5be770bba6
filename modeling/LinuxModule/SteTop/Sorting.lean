import LinuxModule.SteTop.Frame
import LinuxModule.SteTop.Rows

set_option autoImplicit false

namespace LinuxModule.SteTop

theorem collect_ok {α β : Type} (f : α → Except Fault β) (xs : List α) (ys : List β) :
    collect f xs = .ok ys ↔ xs.map f = ys.map .ok := by
  induction xs generalizing ys with
  | nil => cases ys <;> simp [collect]
  | cons x rest ih =>
      cases first : f x with
      | error fault => cases ys <;> simp [collect, first]
      | ok y =>
          cases ys with
          | nil =>
              simp only [collect, first, except_ok_bind, List.map_nil]
              cases collect f rest <;> simp
          | cons z later =>
              simp only [collect, first, except_ok_bind, List.map_cons, List.cons.injEq, ← ih]
              cases collect f rest <;> simp

theorem collect_length {α β : Type} (f : α → Except Fault β) (xs : List α) (ys : List β)
    (done : collect f xs = .ok ys) : ys.length = xs.length := by
  have lengths := congrArg List.length ((collect_ok f xs ys).mp done)
  simpa using lengths.symm

theorem collect_zip {α β : Type} (f : α → Except Fault β) (xs : List α) (ys : List β)
    (done : collect f xs = .ok ys) (pair : β × α) (member : pair ∈ ys.zip xs) : f pair.2 = .ok pair.1 := by
  rw [collect_ok] at done
  obtain ⟨i, access⟩ := List.mem_iff_getElem?.mp member
  obtain ⟨left, right⟩ := List.getElem?_zip_eq_some.mp access
  have here := congrArg (fun l => l[i]?) done
  simpa [left, right] using here

theorem collect_slots_ok (slots : List (Option Nat)) (rows : List Nat) :
    collect slotRow slots = .ok rows ↔ slots = rows.map some := by
  rw [collect_ok]
  induction slots generalizing rows with
  | nil => cases rows <;> simp
  | cons slot rest ih =>
      cases rows with
      | nil => simp
      | cons row later => cases slot <;> simp [slotRow, ih]

theorem slot_array_ok (t : Slots) (address : Nat) (slots : List (Option Nat))
    (here : slotArray t = .ok (address, slots)) :
    t.processInfo = some address ∧ t.arrays.read address = some slots := by
  cases at_null : t.processInfo with
  | none => simp [slotArray, at_null] at here
  | some start =>
      cases read : t.arrays.read start with
      | none => simp [slotArray, at_null, read] at here
      | some found =>
          obtain ⟨rfl, rfl⟩ : start = address ∧ found = slots := by simpa [slotArray, at_null, read] using here
          exact ⟨rfl, read⟩

theorem shown_slots_ok (t : Slots) (rows : List Nat) :
    shownSlots t = .ok rows ↔ rows.length = t.total ∧
      (t.total ≠ 0 → ∃ address slots, slotArray t = .ok (address, slots) ∧ slots.take t.total = rows.map some) := by
  by_cases none_yet : t.total = 0
  · rw [shownSlots, if_pos none_yet]
    simp only [none_yet, List.length_eq_zero_iff, Except.ok.injEq]
    exact ⟨fun same => ⟨same.symm, fun impossible => absurd rfl impossible⟩, fun same => same.1.symm⟩
  · cases found : slotArray t with
    | error fault => simp [shownSlots, none_yet, found]
    | ok pair =>
        obtain ⟨address, slots⟩ := pair
        by_cases short : slots.length < t.total
        · simp only [shownSlots, if_neg none_yet, found, except_ok_bind, if_pos short]
          constructor
          · intro impossible
            cases impossible
          · rintro ⟨length, here⟩
            obtain ⟨_, _, same, taken⟩ := here none_yet
            obtain ⟨rfl, rfl⟩ : address = _ ∧ slots = _ := by simpa using same
            have lengths := congrArg List.length taken
            simp only [List.length_take, List.length_map] at lengths
            omega
        · simp only [shownSlots, if_neg none_yet, found, except_ok_bind, if_neg short, collect_slots_ok]
          constructor
          · intro taken
            have lengths := congrArg List.length taken
            simp only [List.length_take, List.length_map] at lengths
            exact ⟨by omega, fun _ => ⟨address, slots, rfl, taken⟩⟩
          · rintro ⟨length, here⟩
            obtain ⟨_, _, same, taken⟩ := here none_yet
            obtain ⟨rfl, rfl⟩ : address = _ ∧ slots = _ := by simpa using same
            exact taken

-- sort() reads what show() reads, and then only replaces the slots below total.
theorem sort_slots_ok (sort : SortFn) (t : Slots) (rows : List Nat) (infos : List ProcInfo)
    (shown : shownSlots t = .ok rows) (read : collect (fun row => readRow row t) rows = .ok infos)
    (some_row : t.total ≠ 0) :
    ∃ address slots, slotArray t = .ok (address, slots) ∧ slots.take t.total = rows.map some ∧
      sortSlots sort t = .ok { t with
        arrays := t.arrays.store address
          (((sort.order compareProcInfo (infos.zip rows)).map Prod.snd).map some ++ slots.drop t.total) } := by
  obtain ⟨address, slots, here, taken⟩ := ((shown_slots_ok t rows).mp shown).2 some_row
  have live := Heap.read_some_live _ _ _ (slot_array_ok t address slots here).2
  refine ⟨address, slots, here, taken, ?_⟩
  simp only [sortSlots, if_neg some_row, here, except_ok_bind, shown, read, Heap.write_live _ _ _ live]

theorem shown_slots_store (t : Slots) (address : Nat) (slots : List (Option Nat)) (rows : List Nat)
    (here : slotArray t = .ok (address, slots)) (length : rows.length = t.total) :
    shownSlots { t with arrays := t.arrays.store address (rows.map some ++ slots.drop t.total) } = .ok rows := by
  obtain ⟨array, read⟩ := slot_array_ok t address slots here
  have stored := Heap.read_store_here t.arrays address (rows.map some ++ slots.drop t.total)
    (Heap.read_some_live _ _ _ read)
  refine (shown_slots_ok _ rows).mpr ⟨length, fun _ => ⟨address, _, slot_array_spec _ address _ array stored, ?_⟩⟩
  have fits : (rows.map some).length = t.total := by simpa using length
  change (rows.map some ++ slots.drop t.total).take t.total = rows.map some
  rw [List.take_append_of_le_length (Nat.le_of_eq fits.symm), List.take_of_length_le (Nat.le_of_eq fits)]

theorem sorted_pairs (sort : SortFn) (t : Slots) (rows : List Nat) (infos : List ProcInfo)
    (read : collect (fun row => readRow row t) rows = .ok infos) :
    ((sort.order compareProcInfo (infos.zip rows)).map Prod.snd).Perm rows ∧
      ((sort.order compareProcInfo (infos.zip rows)).map Prod.fst).Perm infos ∧
      collect (fun row => readRow row t) ((sort.order compareProcInfo (infos.zip rows)).map Prod.snd) =
        .ok ((sort.order compareProcInfo (infos.zip rows)).map Prod.fst) := by
  have lengths := collect_length _ _ _ read
  have permuted := sort.permutes compareProcInfo (infos.zip rows)
  refine ⟨?_, ?_, ?_⟩
  · simpa [List.map_snd_zip, lengths] using permuted.map Prod.snd
  · simpa [List.map_fst_zip, lengths] using permuted.map Prod.fst
  · rw [collect_ok, List.map_map, List.map_map]
    apply List.map_congr_left
    intro pair member
    exact collect_zip _ _ _ read pair (permuted.mem_iff.mp member)

theorem sort_slots_shows (sort : SortFn) (t next : Slots) (ran : sortSlots sort t = .ok next) :
    ∃ rows infos, shownRows t = .ok infos ∧
      shownRows next = .ok ((sort.order compareProcInfo (infos.zip rows)).map Prod.fst) ∧ infos.length = rows.length ∧
      next.rows = t.rows ∧ next.total = t.total := by
  by_cases none_yet : t.total = 0
  · rw [sortSlots, if_pos none_yet] at ran
    obtain rfl : t = next := by simpa using ran
    have nothing : shownSlots t = .ok [] := (shown_slots_ok t []).mpr ⟨none_yet.symm, fun some_row => absurd none_yet some_row⟩
    have empty : shownRows t = .ok [] := by
      rw [shownRows, nothing]
      rfl
    have kept : sort.order compareProcInfo (([] : List ProcInfo).zip ([] : List Nat)) = [] :=
      (sort.permutes compareProcInfo []).eq_nil
    exact ⟨[], [], empty, by rw [kept]; exact empty, rfl, rfl, rfl⟩
  · cases shown : shownSlots t with
    | error fault =>
        simp only [sortSlots, if_neg none_yet, shown] at ran
        cases found : slotArray t <;> simp [found] at ran
    | ok rows =>
        cases read : collect (fun row => readRow row t) rows with
        | error fault =>
            simp only [sortSlots, if_neg none_yet, shown] at ran
            cases found : slotArray t <;> simp [found, read] at ran
        | ok infos =>
            obtain ⟨address, slots, here, taken, sorted⟩ := sort_slots_ok sort t rows infos shown read none_yet
            obtain ⟨permuted, _, readBack⟩ := sorted_pairs sort t rows infos read
            have length := ((shown_slots_ok t rows).mp shown).1
            obtain rfl := Except.ok.inj (ran.symm.trans sorted)
            refine ⟨rows, infos, by rw [shownRows, shown]; exact read, ?_, collect_length _ _ _ read, rfl, rfl⟩
            rw [shownRows, shown_slots_store t address slots _ here (permuted.length_eq.trans length)]
            exact readBack

theorem shown_slots_owned (t : Slots) (rows : List Nat) (owned : RowsOwned t rows) :
    shownSlots t = .ok (rows.take t.total) := by
  have filled := owned.filled
  have fit := rows_fit t rows owned
  refine (shown_slots_ok t _).mpr ⟨by simpa using filled, fun some_row => ?_⟩
  obtain ⟨address, here, _, read⟩ := rows_array t rows owned (by omega)
  obtain ⟨k, cells⟩ := owned.spare
  refine ⟨address, t.cells, slot_array_spec t address _ here read, ?_⟩
  rw [cells, List.take_append_of_le_length (by simpa using filled), List.map_take]

theorem collect_rows_live (t : Slots) (rows : List Nat) (live : ∀ row ∈ rows, t.rows.Live row) :
    ∃ infos, collect (fun row => readRow row t) rows = .ok infos := by
  induction rows with
  | nil => exact ⟨[], rfl⟩
  | cons row rest ih =>
      obtain ⟨info, read⟩ := Heap.live_read t.rows row (live row (by simp))
      obtain ⟨later, found⟩ := ih (fun other member => live other (by simp [member]))
      have first : readRow row t = .ok info := by simp only [readRow, read]
      exact ⟨info :: later, by simp only [collect, first, except_ok_bind, found]⟩

theorem shown_rows_live (t : Slots) (rows : List Nat) (owned : RowsOwned t rows) :
    ∃ infos, collect (fun row => readRow row t) (rows.take t.total) = .ok infos :=
  collect_rows_live t _ fun row member => (rows_live t rows owned row).mp (List.mem_of_mem_take member)

theorem shown_rows_owned (t : Slots) (rows : List Nat) (owned : RowsOwned t rows) : ∃ infos, shownRows t = .ok infos := by
  rw [shownRows, shown_slots_owned t rows owned]
  exact shown_rows_live t rows owned

theorem sort_slots_owned (sort : SortFn) (t : Slots) (rows : List Nat) (owned : RowsOwned t rows) :
    ∃ next placed, sortSlots sort t = .ok next ∧ RowsOwned next placed ∧ placed.Perm rows ∧
      next.rows = t.rows ∧ next.total = t.total := by
  by_cases none_yet : t.total = 0
  · exact ⟨t, rows, by rw [sortSlots, if_pos none_yet], owned, List.Perm.refl _, rfl, rfl⟩
  · have shown := shown_slots_owned t rows owned
    obtain ⟨infos, read⟩ := shown_rows_live t rows owned
    obtain ⟨address, slots, here, _, sorted⟩ := sort_slots_ok sort t _ infos shown read none_yet
    obtain ⟨permuted, _, _⟩ := sorted_pairs sort t _ infos read
    obtain ⟨array, found⟩ := slot_array_ok t address slots here
    obtain rfl : t.cells = slots := cells_read t address slots array found
    have live := Heap.read_some_live _ _ _ found
    obtain ⟨k, cells⟩ := owned.spare
    have filled := owned.filled
    have placed : ((sort.order compareProcInfo (infos.zip (rows.take t.total))).map Prod.snd ++ rows.drop t.total).Perm rows :=
      calc List.Perm _ (rows.take t.total ++ rows.drop t.total) := permuted.append_right _
        _ = rows := List.take_append_drop _ _
    have stored := cells_store t address
      (((sort.order compareProcInfo (infos.zip (rows.take t.total))).map Prod.snd).map some ++ t.cells.drop t.total)
      array live
    have spare : t.cells.drop t.total = (rows.drop t.total).map some ++ List.replicate k none := by
      rw [cells, List.drop_append_of_le_length (by simpa using filled), List.map_drop]
    have length := placed.length_eq
    refine ⟨_, _, sorted, ⟨⟨k, ?_⟩, ?_, owned.limit, fun a => ?_, placed.trans owned.owned, owned.kept, ?_⟩, placed, rfl, rfl⟩
    · rw [stored, spare, List.map_append, List.append_assoc]
    · rw [stored, spare, ← List.append_assoc, ← List.map_append, List.length_append, List.length_map, length]
      simpa [cells] using owned.capacity
    · rw [Heap.live_store]
      exact owned.arrays a
    · rw [length]
      exact filled

end LinuxModule.SteTop
