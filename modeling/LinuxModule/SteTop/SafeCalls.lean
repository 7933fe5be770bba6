import LinuxModule.SteTop.Memory
import LinuxModule.SteTop.Walked

set_option autoImplicit false

namespace LinuxModule.SteTop

def Sampled (hash : Hash) (t : Tables) : Prop := ∃ start old new, Sampling hash t start old new

structure Safe (hash : Hash) (s : Globals) : Prop where
  sampled : Sampled hash s.tables
  intact : Intact s.slots

theorem safe_initial (hash : Hash) : Safe hash initial := ⟨⟨0, [], [], sampling_initial hash⟩, intact_initial⟩

section Calls

variable (hash : Hash)

theorem read_slot_safe (s : Globals) (safe : Safe hash s) (post : Option Nat → Globals → Prop)
    (holds : ∀ slot, (∀ row ∈ slot, s.slots.rows.Live row) → post slot s) : Walk.Meets sparing readSlot s post := by
  apply Walk.meets_bind
  apply sparing_mark
  apply sparing_slots
  apply spares_map
  apply spares_mono _ _ _ (get_slot_spares s.slots safe.intact s.slots.total)
  exact fun slot member => holds slot (safe.intact.rows slot member)

theorem row_of_safe (slot : Option Nat) (s : Globals) (post : Nat → Globals → Prop)
    (holds : ∀ row, slot = some row → post row s) : Walk.Meets sparing (rowOf slot) s post := by
  apply sparing_act
  cases slot with
  | none => simp [Spares]
  | some row => exact holds row rfl

theorem make_room_safe (array : Bool) (s : Globals) (safe : Safe hash s) :
    Walk.Meets sparing (makeRoom array) s (fun _ after => Safe hash after) := by
  apply Walk.meets_bind
  apply Walk.meets_get
  apply Walk.meets_bind
  have close : ∀ (room : Bool) (after : Globals), Safe hash after →
      Walk.Meets sparing (do Walk.mark .grown; pure room) after (fun _ last => Safe hash last) := by
    intro room after kept
    apply Walk.meets_bind
    apply sparing_mark
    exact Walk.meets_pure _ _ _ _ kept
  by_cases full : s.slots.nAlloc % 2 ^ 32 = s.slots.total
  · rw [growFull, if_pos full]
    apply Walk.meets_bind
    apply sparing_mark
    apply sparing_slots
    apply spares_mono _ _ _ (grow_array_spares array s.slots safe.intact)
    exact fun r grown => close r.1 _ ⟨safe.sampled, grown⟩
  · rw [growFull, if_neg full]
    exact Walk.meets_pure _ _ _ _ (close true s safe)

theorem place_row_safe (row : Option ProcInfo) (s : Globals) (safe : Safe hash s) :
    Walk.Meets sparing (placeRow row) s (fun _ after => Safe hash after) := by
  apply Walk.meets_bind
  apply read_slot_safe hash s safe
  intro slot _
  have again : ∀ after, Safe hash after →
      Walk.Meets sparing (do let slot ← readSlot; pure slot.isSome) after (fun _ last => Safe hash last) := by
    intro after kept
    apply Walk.meets_bind
    apply read_slot_safe hash after kept
    exact fun _ _ => Walk.meets_pure _ _ _ _ kept
  apply Walk.meets_bind
  by_cases vacant : slot.isNone = true
  · rw [allocRow, if_pos vacant]
    apply Walk.meets_bind
    apply sparing_mark
    apply Walk.meets_bind
    apply sparing_mark
    apply sparing_slots
    cases row with
    | none =>
        apply spares_map
        apply spares_mono _ _ _ (set_slot_spares s.slots safe.intact s.slots.total none (by simp))
        exact fun next intact => again _ ⟨safe.sampled, intact⟩
    | some info =>
        apply spares_map
        apply spares_mono _ _ _ (set_slot_spares _ (intact_new_row s.slots safe.intact info) s.slots.total
          (some s.slots.rows.size) (by simp [Heap.live_alloc]))
        exact fun next intact => again _ ⟨safe.sampled, intact⟩
  · rw [allocRow, if_neg vacant]
    exact Walk.meets_pure _ _ _ _ (again s safe)

theorem procs_hlp_safe (hst : Bool) (this : Nat) (s : Globals) (safe : Safe hash s) (live : s.slots.rows.Live this) :
    Walk.Meets sparing (procsHlp hash hst this) s (fun _ after => Safe hash after) := by
  obtain ⟨info, read⟩ := Heap.live_read _ _ live
  apply Walk.meets_bind
  apply meets_on_slots _ _ s info s.slots
  · simp only [readRow, read]
    rfl
  apply Walk.meets_bind
  apply Walk.meets_modify
  have counted : Intact { s.slots with total := s.slots.total + 1 } := ⟨safe.intact.array, safe.intact.rows⟩
  apply Walk.meets_bind
  apply sparing_mark
  cases hst with
  | false => exact Walk.meets_pure _ _ _ _ ⟨safe.sampled, counted⟩
  | true =>
      obtain ⟨start, old, new, sampling⟩ := safe.sampled
      obtain ⟨perCpuTime, tables, ran, _, kept⟩ := take_sample_spec hash info s.tables start old new sampling
      apply Walk.meets_bind
      apply meets_on_tables _ _ { s with
        slots := { s.slots with total := s.slots.total + 1 }
        counters := countState info s.counters } perCpuTime tables _ ran
      apply sparing_slots
      apply spares_map
      apply spares_mono _ _ _ (write_row_spares _ counted this { info with perCpuTime := perCpuTime } live)
      exact fun next written => ⟨⟨_, _, _, kept⟩, written.1⟩

theorem record_task_safe (v : Visit) (s : Globals) (safe : Safe hash s) :
    Walk.Meets sparing (recordTask hash v) s (fun _ after => Safe hash after) := by
  apply Walk.meets_bind
  apply read_slot_safe hash s safe
  intro slot live
  apply Walk.meets_bind
  apply row_of_safe
  rintro row rfl
  apply Walk.meets_bind
  apply sparing_slots
  apply spares_bind
  apply spares_mono _ _ _ (read_row_spares s.slots row (live row rfl))
  intro info _
  apply spares_bind
  apply spares_mono _ _ _ (write_row_spares s.slots safe.intact row (fillRow v.task info) (live row rfl))
  rintro next ⟨intact, _⟩
  apply Walk.meets_bind
  apply Walk.meets_modify
  have filled : Safe hash (addCredRef v.task.cred (-1) { s with slots := next }) := ⟨safe.sampled, intact⟩
  apply Walk.meets_bind
  apply read_slot_safe hash _ filled
  intro again alive
  apply Walk.meets_bind
  apply row_of_safe
  rintro this rfl
  exact procs_hlp_safe hash v.hst this _ filled (alive this rfl)

theorem visit_task_safe (v : Visit) (s : Globals) (safe : Safe hash s) :
    Walk.Meets sparing (visitTask hash v) s (fun _ after => Safe hash after) := by
  apply Walk.meets_bind
  apply sparing_mark
  apply Walk.meets_bind
  apply Walk.meets_modify
  apply Walk.meets_bind
  have begun : Safe hash (addCredRef v.task.cred 1 s) := ⟨safe.sampled, safe.intact⟩
  apply Walk.meets_mono _ _ _ _ _ (make_room_safe hash v.array _ begun)
  intro room after kept
  by_cases goes : room = true
  · rw [if_pos goes]
    apply Walk.meets_bind
    apply Walk.meets_mono _ _ _ _ _ (place_row_safe hash v.row after kept)
    intro placed last safeLast
    by_cases held : placed = true
    · rw [if_pos held]
      exact record_task_safe hash v last safeLast
    · rw [if_neg held]
      exact Walk.meets_pure _ _ _ _ safeLast
  · rw [if_neg goes]
    exact Walk.meets_pure _ _ _ _ kept

-- The hash tables are in order whatever became of process_info.
theorem procs_hlp_null_sampled (uptimeCur : Timespec) (s : Globals) (sampled : Sampled hash s.tables) :
    Walk.Meets sparing (procsHlpNull hash uptimeCur) s (fun _ after =>
      Sampled hash after.tables ∧ after.slots = { s.slots with total := 0 }) := by
  obtain ⟨start, old, new, sampling⟩ := sampled
  obtain ⟨tables, rotated, kept⟩ := rotate_spec hash s.tables start old new sampling
  apply Walk.meets_bind
  apply Walk.meets_modify
  exact meets_on_tables _ _ _ () tables _ (by rw [rotated, except_ok_map]) ⟨⟨_, _, _, kept⟩, rfl⟩

-- The calls that meet no freed memory: those that do not go through process_info,
-- and those that find nothing freed behind it.
def Harmless (t : Slots) : Call → Prop
  | .updateCpuTimes _ => True
  | .procsRefresh r => r.visits = [] ∨ Intact t
  | .sortRows _ => t.total = 0 ∨ Intact t
  | .showProcs _ => t.total = 0 ∨ Intact t

instance (t : Slots) (call : Call) : Decidable (Harmless t call) :=
  match call with
  | .updateCpuTimes _ => inferInstanceAs (Decidable True)
  | .procsRefresh _ => inferInstanceAs (Decidable (_ ∨ _))
  | .sortRows _ => inferInstanceAs (Decidable (_ ∨ _))
  | .showProcs _ => inferInstanceAs (Decidable (_ ∨ _))

theorem intact_harmless (t : Slots) (intact : Intact t) (call : Call) : Harmless t call := by
  cases call with
  | updateCpuTimes cpus => trivial
  | procsRefresh r => exact .inr intact
  | sortRows sort => exact .inr intact
  | showProcs si => exact .inr intact

theorem procs_refresh_spares (r : Refresh) (s : Globals) (sampled : Sampled hash s.tables)
    (harmless : r.visits = [] ∨ Intact s.slots) :
    Walk.Meets sparing (procsRefresh hash r) s (fun _ after =>
      Sampled hash after.tables ∧ (Intact s.slots → Intact after.slots)) := by
  apply Walk.meets_bind
  apply Walk.meets_mono _ _ _ _ _ (procs_hlp_null_sampled hash r.uptimeCur s sampled)
  rintro _ ready ⟨readySampled, slots⟩
  have kept : Intact s.slots → Intact ready.slots := fun intact => slots ▸ ⟨intact.array, intact.rows⟩
  apply Walk.meets_bind
  rcases harmless with nobody | intact
  · rw [nobody]
    exact Walk.meets_pure _ _ _ _ (sparing_mark _ _ _ ⟨readySampled, kept⟩)
  · have loop := Walk.meets_for_each sparing r.visits (visitTask hash) (fun _ at_ => Safe hash at_) ready
      ⟨readySampled, kept intact⟩ (fun _ v _ at_ _ safe => visit_task_safe hash v at_ safe)
    apply Walk.meets_mono _ _ _ _ _ loop
    exact fun _ after safe => sparing_mark _ _ _ ⟨safe.sampled, fun _ => safe.intact⟩

theorem call_spares (call : Call) (s : Globals) (sampled : Sampled hash s.tables) (harmless : Harmless s.slots call) :
    Walk.Meets sparing (call.run hash) s (fun _ after =>
      Sampled hash after.tables ∧ (Intact s.slots → Intact after.slots)) := by
  cases call with
  | updateCpuTimes cpus =>
      apply Walk.meets_bind
      apply Walk.meets_modify
      exact Walk.meets_pure _ _ _ _ ⟨sampled, id⟩
  | procsRefresh r =>
      apply Walk.meets_bind
      apply Walk.meets_mono _ _ _ _ _ (procs_refresh_spares hash r s sampled harmless)
      exact fun _ after kept => Walk.meets_pure _ _ _ _ kept
  | sortRows sort =>
      apply Walk.meets_bind
      apply sparing_slots
      apply spares_map
      apply spares_mono _ _ _ (sort_slots_spares sort s.slots harmless)
      exact fun next kept => Walk.meets_pure _ _ _ _ ⟨sampled, kept⟩
  | showProcs si =>
      apply Walk.meets_bind
      apply Walk.meets_bind
      apply Walk.meets_modify
      apply Walk.meets_bind
      apply Walk.meets_get
      apply Walk.meets_bind
      apply sparing_slots
      apply spares_map
      apply spares_mono _ _ _ (shown_rows_spares s.slots harmless)
      exact fun infos _ => Walk.meets_pure _ _ _ _ (Walk.meets_pure _ _ _ _ ⟨sampled, id⟩)

end Calls

end LinuxModule.SteTop
