import LinuxModule.SteTop.Samples
import LinuxModule.SteTop.Sorting

set_option autoImplicit false

namespace LinuxModule.SteTop

-- process_info leads to nothing that has been freed. Unlike RowsOwned this asks for
-- no memory to have been granted on the way.
structure Intact (t : Slots) : Prop where
  array : ∀ address ∈ t.processInfo, t.arrays.Live address
  rows : ∀ cell ∈ t.cells, ∀ row ∈ cell, t.rows.Live row

instance (t : Slots) : Decidable (Intact t) :=
  decidable_of_iff ((∀ address ∈ t.processInfo, t.arrays.Live address) ∧ ∀ cell ∈ t.cells, ∀ row ∈ cell, t.rows.Live row)
    ⟨fun both => ⟨both.1, both.2⟩, fun intact => ⟨intact.array, intact.rows⟩⟩

theorem intact_initial : Intact initial.slots := ⟨by simp [initial], by simp [initial, Slots.cells]⟩

-- What a step does when it does not fault; the one fault it must not stop with is the
-- access to freed memory.
def Spares {α : Type} (result : Except Fault α) (post : α → Prop) : Prop :=
  match result with
  | .ok a => post a
  | .error fault => fault ≠ .badAddress

theorem spares_bind {α β : Type} (x : Except Fault α) (f : α → Except Fault β) (post : β → Prop)
    (first : Spares x fun a => Spares (f a) post) : Spares (x >>= f) post := by
  cases x with
  | ok a => exact first
  | error fault => exact first

theorem spares_map {α β : Type} (x : Except Fault α) (f : α → β) (post : β → Prop)
    (first : Spares x fun a => post (f a)) : Spares (x.map f) post := by
  cases x with
  | ok a => exact first
  | error fault => exact first

theorem spares_mono {α : Type} (x : Except Fault α) (post weaker : α → Prop) (strong : Spares x post)
    (imp : ∀ a, post a → weaker a) : Spares x weaker := by
  cases x with
  | ok a => exact imp a strong
  | error fault => exact strong

theorem slot_array_spares (t : Slots) (intact : Intact t) :
    Spares (slotArray t) fun r => t.processInfo = some r.1 ∧ t.arrays.Live r.1 ∧ r.2 = t.cells := by
  cases here : t.processInfo with
  | none => simp [slotArray, here, Spares]
  | some address =>
      have live := intact.array address here
      obtain ⟨slots, read⟩ := Heap.live_read _ _ live
      rw [slot_array_spec t address slots here read]
      exact ⟨rfl, live, (cells_read t address slots here read).symm⟩

theorem get_slot_spares (t : Slots) (intact : Intact t) (i : Nat) : Spares (getSlot t i) fun slot => slot ∈ t.cells := by
  apply spares_bind
  apply spares_mono _ _ _ (slot_array_spares t intact)
  rintro ⟨address, slots⟩ ⟨_, _, rfl⟩
  cases access : t.cells[i]? with
  | none => simp [Spares, access]
  | some slot => simpa [Spares, access] using List.mem_of_getElem? access

theorem intact_store (t : Slots) (address : Nat) (slots : List (Option Nat)) (intact : Intact t)
    (here : t.processInfo = some address) (rows : ∀ cell ∈ slots, ∀ row ∈ cell, t.rows.Live row) :
    Intact { t with arrays := t.arrays.store address slots } := by
  constructor
  · intro a at_
    rw [Heap.live_store]
    exact intact.array a at_
  · rw [cells_store t address slots here (intact.array address here)]
    exact rows

theorem set_slot_spares (t : Slots) (intact : Intact t) (i : Nat) (slot : Option Nat)
    (live : ∀ row ∈ slot, t.rows.Live row) : Spares (setSlot t i slot) Intact := by
  apply spares_bind
  apply spares_mono _ _ _ (slot_array_spares t intact)
  rintro ⟨address, slots⟩ ⟨here, alive, rfl⟩
  by_cases bound : i < t.cells.length
  · simp only [if_pos bound, Heap.write_live _ _ _ alive]
    apply intact_store t address _ intact here
    intro cell member
    rcases List.mem_or_eq_of_mem_set member with before | new
    · exact intact.rows cell before
    · exact new ▸ live
  · simp [if_neg bound, Spares]

theorem read_row_spares (t : Slots) (row : Nat) (live : t.rows.Live row) : Spares (readRow row t) fun _ => True := by
  obtain ⟨info, read⟩ := Heap.live_read _ _ live
  simp [readRow, read, Spares]

theorem write_row_spares (t : Slots) (intact : Intact t) (row : Nat) (info : ProcInfo) (live : t.rows.Live row) :
    Spares (writeRow row info t) fun next => Intact next ∧ next.cells = t.cells := by
  simp only [writeRow, Heap.write_live _ _ _ live]
  refine ⟨⟨intact.array, fun cell member row inCell => ?_⟩, rfl⟩
  rw [Heap.live_store]
  exact intact.rows cell member row inCell

theorem intact_new_row (t : Slots) (intact : Intact t) (info : ProcInfo) :
    Intact { t with rows := t.rows.alloc info } :=
  ⟨intact.array, fun cell member row inCell =>
    (Heap.live_alloc t.rows info row).mpr (.inl (intact.rows cell member row inCell))⟩

theorem copy_source_spares (t : Slots) (intact : Intact t) :
    Spares (copySource t) fun old => ∀ cell ∈ old, cell ∈ t.cells := by
  by_cases none_yet : t.total = 0
  · simp [copySource, none_yet, Spares]
  · rw [copySource, if_neg none_yet]
    apply spares_map
    apply spares_mono _ _ _ (slot_array_spares t intact)
    rintro ⟨address, slots⟩ ⟨_, _, rfl⟩
    exact fun cell => id

theorem kfree_array_spares (processInfo : Option Nat) (arrays : Heap (List (Option Nat)))
    (live : ∀ address ∈ processInfo, arrays.Live address) :
    Spares (kfreeArray processInfo arrays) fun next =>
      ∀ address, arrays.Live address → address ∉ processInfo → next.Live address ∧ next.read address = arrays.read address := by
  cases processInfo with
  | none => exact fun address alive _ => ⟨alive, rfl⟩
  | some freed =>
      have alive := live freed rfl
      simp only [kfreeArray, Heap.free_live _ _ alive]
      intro address still different
      have apart : address ≠ freed := fun same => different (same ▸ rfl)
      exact ⟨(Heap.live_release _ _ _ alive).mpr ⟨still, apart⟩, Heap.read_release _ _ _ alive apart⟩

-- The new array lists rows of the old one only, and the old one is what kfree gets.
theorem grow_array_spares (array : Bool) (t : Slots) (intact : Intact t) :
    Spares (growArray array t) fun r => Intact r.2 := by
  by_cases ok : granted array (nextAlloc t.nAlloc) = true
  · simp only [growArray, if_pos ok]
    apply spares_bind
    apply spares_mono _ _ _ (copy_source_spares t intact)
    intro old copied
    by_cases short : old.length < t.total ∨ (nextAlloc t.nAlloc).toNat < t.total
    · simp [if_pos short, Spares]
    · rw [if_neg short]
      apply spares_bind
      apply spares_mono _ _ _ (kfree_array_spares t.processInfo _ fun address here =>
        (Heap.live_alloc t.arrays _ address).mpr (.inl (intact.array address here)))
      intro arrays kept
      have fresh : t.arrays.size ∉ t.processInfo := fun here =>
        Nat.lt_irrefl _ (intact.array t.arrays.size here).1
      obtain ⟨live, read⟩ := kept t.arrays.size ((Heap.live_alloc _ _ _).mpr (.inr rfl)) fresh
      rw [Heap.read_alloc_fresh] at read
      refine ⟨fun address here => Option.some.inj here ▸ live, ?_⟩
      rw [cells_read _ t.arrays.size _ rfl read]
      intro cell member row inCell
      rcases List.mem_append.mp member with before | blank
      · exact intact.rows cell (copied cell (List.mem_of_mem_take before)) row inCell
      · rw [List.eq_of_mem_replicate blank] at inCell
        cases inCell
  · simp only [growArray, if_neg ok]
    exact ⟨intact.array, intact.rows⟩

theorem collect_spares {α β : Type} (f : α → Except Fault β) (xs : List α) (q : α → β → Prop)
    (each : ∀ x ∈ xs, Spares (f x) (q x)) : Spares (collect f xs) fun ys => ∀ y ∈ ys, ∃ x ∈ xs, q x y := by
  induction xs with
  | nil => simp [collect, Spares]
  | cons x rest ih =>
      apply spares_bind
      apply spares_mono _ _ _ (each x (by simp))
      intro y here
      apply spares_bind
      apply spares_mono _ _ _ (ih fun other member => each other (by simp [member]))
      intro ys later z member
      rcases List.mem_cons.mp member with rfl | inRest
      · exact ⟨x, by simp, here⟩
      · obtain ⟨other, inXs, found⟩ := later z inRest
        exact ⟨other, by simp [inXs], found⟩

theorem shown_slots_spares (t : Slots) (intact : Intact t) :
    Spares (shownSlots t) fun rows => ∀ row ∈ rows, t.rows.Live row := by
  by_cases none_yet : t.total = 0
  · simp [shownSlots, none_yet, Spares]
  · rw [shownSlots, if_neg none_yet]
    apply spares_bind
    apply spares_mono _ _ _ (slot_array_spares t intact)
    rintro ⟨address, slots⟩ ⟨_, _, rfl⟩
    by_cases short : t.cells.length < t.total
    · simp [if_pos short, Spares]
    · simp only [if_neg short]
      have each : ∀ cell ∈ t.cells.take t.total, Spares (slotRow cell) (fun row => cell = some row) := by
        rintro (_ | row) _
        · simp [slotRow, Spares]
        · simp [slotRow, Spares]
      apply spares_mono _ _ _ (collect_spares slotRow _ _ each)
      intro rows listed row member
      obtain ⟨cell, taken, rfl⟩ := listed row member
      exact intact.rows _ (List.mem_of_mem_take taken) row rfl

theorem collect_rows_spares (t : Slots) (rows : List Nat) (live : ∀ row ∈ rows, t.rows.Live row) :
    Spares (collect (fun row => readRow row t) rows) fun _ => True :=
  spares_mono _ _ _ (collect_spares _ rows (fun _ _ => True) fun row member => read_row_spares t row (live row member))
    fun _ _ => trivial

theorem shown_rows_spares (t : Slots) (harmless : t.total = 0 ∨ Intact t) : Spares (shownRows t) fun _ => True := by
  rcases harmless with none_yet | intact
  · simp [shownRows, shownSlots, none_yet, collect, Spares]
  · apply spares_bind
    apply spares_mono _ _ _ (shown_slots_spares t intact)
    exact collect_rows_spares t

theorem sort_slots_spares (sort : SortFn) (t : Slots) (harmless : t.total = 0 ∨ Intact t) :
    Spares (sortSlots sort t) fun next => Intact t → Intact next := by
  by_cases none_yet : t.total = 0
  · simp [sortSlots, none_yet, Spares]
  · have intact := harmless.resolve_left none_yet
    rw [sortSlots, if_neg none_yet]
    apply spares_bind
    apply spares_mono _ _ _ (slot_array_spares t intact)
    rintro ⟨address, slots⟩ ⟨here, alive, rfl⟩
    apply spares_bind
    apply spares_mono _ _ _ (shown_slots_spares t intact)
    intro rows live
    apply spares_bind
    apply spares_mono _ _ _ (collect_rows_spares t rows live)
    intro infos _
    simp only [Heap.write_live _ _ _ alive]
    refine fun _ => intact_store t address _ intact here ?_
    intro cell member row inCell
    rcases List.mem_append.mp member with sorted | rest
    · obtain ⟨found, inSorted, rfl⟩ := List.mem_map.mp sorted
      obtain ⟨pair, inOrder, rfl⟩ := List.mem_map.mp inSorted
      have inZip := (sort.permutes compareProcInfo (infos.zip rows)).mem_iff.mp inOrder
      obtain rfl : pair.2 = row := Option.some.inj inCell
      exact live pair.2 (List.of_mem_zip inZip).2
    · exact intact.rows cell (List.mem_of_mem_drop rest) row inCell

-- The same over a walk: no point is relied on, and freed memory is never met.
def sparing : Walk.Contract Fault Point Globals where
  rely _ _ := True
  guar _ _ := True
  fault fault := fault ≠ .badAddress

theorem sparing_mark (point : Point) (s : Globals) (post : Unit → Globals → Prop) (holds : post () s) :
    Walk.Meets sparing (Walk.mark point) s post :=
  Walk.meets_mark sparing point s post fun _ => ⟨trivial, holds⟩

theorem sparing_act {α : Type} (f : Globals → Except Fault (α × Globals)) (s : Globals) (post : α → Globals → Prop)
    (spares : Spares (f s) fun r => post r.1 r.2) : Walk.Meets sparing (Walk.act f) s post := by
  intro _
  refine ⟨fun m member => absurd member List.not_mem_nil, ?_⟩
  cases ran : f s with
  | ok pair =>
      rw [ran] at spares
      simp only [Walk.act, ran]
      exact spares
  | error fault =>
      rw [ran] at spares
      simp only [Walk.act, ran]
      exact spares

theorem sparing_slots {α : Type} (f : Slots → Except Fault (α × Slots)) (s : Globals) (post : α → Globals → Prop)
    (spares : Spares (f s.slots) fun r => post r.1 { s with slots := r.2 }) : Walk.Meets sparing (onSlots f) s post :=
  sparing_act _ s post (spares_map _ _ _ spares)

theorem sparing_final {α : Type} (w : W α) (s : Globals) (post : α → Globals → Prop)
    (meets : Walk.Meets sparing w s post) : Spares (Walk.final w s) fun after => ∃ a, post a after := by
  obtain ⟨_, after⟩ := meets fun _ _ => trivial
  rw [Walk.final]
  apply spares_map
  cases ran : (w s).result with
  | ok pair =>
      rw [ran] at after
      exact ⟨pair.1, after⟩
  | error fault =>
      rw [ran] at after
      exact after

end LinuxModule.SteTop
