import LinuxModule.SteTop.RefreshLoop

set_option autoImplicit false

namespace LinuxModule.SteTop

-- What procs_refresh does to credentials when no array access does harm: process_info
-- has cells without end, and all that counts of a cell is whether it is not NULL.
structure Loose where
  nAlloc : Int
  total : Nat
  cells : Nat → Bool
  credRefs : Nat → Int

-- A visit, and what the heap holds behind the array its growth step would get.
structure LooseVisit where
  visit : Visit
  beyond : Nat → Bool

def addRef (cred : Nat) (change : Int) (refs : Nat → Int) : Nat → Int :=
  fun c => if c = cred then refs c + change else refs c

-- A stage of a visit: the kmallocs it asked for, each with its outcome, and whether
-- the walk goes on with the process.
structure Stage where
  asked : List (Alloc × Bool)
  goesOn : Bool
  state : Loose

def looseRoom (v : LooseVisit) (s : Loose) : Stage :=
  if s.nAlloc % 2 ^ 32 = s.total then
    if granted v.visit.array (nextAlloc s.nAlloc) then
      ⟨[(.array, true)], true, { s with
        nAlloc := nextAlloc s.nAlloc
        cells := fun i =>
          if i < s.total then s.cells i else if i < (nextAlloc s.nAlloc).toNat then false else v.beyond i }⟩
    else ⟨[(.array, false)], false, { s with nAlloc := nextAlloc s.nAlloc }⟩
  else ⟨[], true, s⟩

def looseRow (v : LooseVisit) (s : Loose) : Stage :=
  if s.cells s.total then ⟨[], true, s⟩
  else ⟨[(.row, v.visit.row.isSome)], v.visit.row.isSome,
    { s with cells := fun i => if i = s.total then v.visit.row.isSome else s.cells i }⟩

def looseRecord (v : LooseVisit) (s : Loose) : Loose :=
  { s with total := s.total + 1, credRefs := addRef v.visit.task.cred (-1) s.credRefs }

def looseHold (v : LooseVisit) (s : Loose) : Loose := { s with credRefs := addRef v.visit.task.cred 1 s.credRefs }

def looseVisit (v : LooseVisit) (s : Loose) : List (Alloc × Bool) × Loose :=
  match looseRoom v (looseHold v s) with
  | ⟨asked, false, s⟩ => (asked, s)
  | ⟨asked, true, s⟩ =>
      match looseRow v s with
      | ⟨askedRow, false, s⟩ => (asked ++ askedRow, s)
      | ⟨askedRow, true, s⟩ => (asked ++ askedRow, looseRecord v s)

def looseWalk : List LooseVisit → Loose → List (Alloc × Bool) × Loose
  | [], s => ([], s)
  | v :: rest, s =>
      let visited := looseVisit v s
      let walked := looseWalk rest visited.2
      (visited.1 ++ walked.1, walked.2)

def looseRefresh (visits : List LooseVisit) (s : Loose) : List (Alloc × Bool) × Loose :=
  looseWalk visits { s with total := 0 }

def allServed (asked : List (Alloc × Bool)) : Bool := asked.all Prod.snd

-- The credentials of the processes whose visit ends at a failed kmalloc.
def leaked : List LooseVisit → Loose → List Nat
  | [], _ => []
  | v :: rest, s =>
      let later := leaked rest (looseVisit v s).2
      if allServed (looseVisit v s).1 then later else v.visit.task.cred :: later

theorem add_ref_back (cred : Nat) (refs : Nat → Int) : addRef cred (-1) (addRef cred 1 refs) = refs := by
  funext c
  by_cases same : c = cred
  · simp [addRef, same]
  · simp [addRef, same]

theorem loose_room_refs (v : LooseVisit) (s : Loose) :
    (looseRoom v s).state.credRefs = s.credRefs ∧ (looseRoom v s).goesOn = allServed (looseRoom v s).asked := by
  by_cases full : s.nAlloc % 2 ^ 32 = s.total
  · rw [looseRoom, if_pos full]
    by_cases given : granted v.visit.array (nextAlloc s.nAlloc) = true
    · rw [if_pos given]
      exact ⟨rfl, rfl⟩
    · rw [if_neg given]
      exact ⟨rfl, rfl⟩
  · rw [looseRoom, if_neg full]
    exact ⟨rfl, rfl⟩

theorem loose_row_refs (v : LooseVisit) (s : Loose) :
    (looseRow v s).state.credRefs = s.credRefs ∧ (looseRow v s).goesOn = allServed (looseRow v s).asked := by
  by_cases taken : s.cells s.total = true
  · rw [looseRow, if_pos taken]
    exact ⟨rfl, rfl⟩
  · rw [looseRow, if_neg taken]
    exact ⟨rfl, by simp [allServed]⟩

-- Either every kmalloc of the visit is served and the reference is given back, or the
-- visit ends early and keeps it.
theorem loose_visit_refs (v : LooseVisit) (s : Loose) :
    (looseVisit v s).2.credRefs =
      if allServed (looseVisit v s).1 then s.credRefs else addRef v.visit.task.cred 1 s.credRefs := by
  have room := loose_room_refs v (looseHold v s)
  cases roomStage : looseRoom v (looseHold v s) with
  | mk asked goesOn state =>
      rw [roomStage] at room
      obtain ⟨sameRefs, served⟩ := room
      change state.credRefs = addRef v.visit.task.cred 1 s.credRefs at sameRefs
      change goesOn = allServed asked at served
      cases goesOn with
      | false =>
          have visited : looseVisit v s = (asked, state) := by simp only [looseVisit, roomStage]
          rw [visited, ← served]
          exact sameRefs
      | true =>
          have row := loose_row_refs v state
          cases rowStage : looseRow v state with
          | mk askedRow placed last =>
              rw [rowStage] at row
              obtain ⟨stillRefs, servedRow⟩ := row
              change last.credRefs = state.credRefs at stillRefs
              change placed = allServed askedRow at servedRow
              have both : allServed (asked ++ askedRow) = placed := by
                rw [allServed, List.all_append, ← allServed, ← allServed, ← served, ← servedRow, Bool.true_and]
              cases placed with
              | false =>
                  have visited : looseVisit v s = (asked ++ askedRow, last) := by
                    simp only [looseVisit, roomStage, rowStage]
                  rw [visited, both]
                  exact stillRefs.trans sameRefs
              | true =>
                  have visited : looseVisit v s = (asked ++ askedRow, looseRecord v last) := by
                    simp only [looseVisit, roomStage, rowStage]
                  rw [visited, both]
                  change addRef v.visit.task.cred (-1) last.credRefs = s.credRefs
                  rw [stillRefs, sameRefs, add_ref_back]

theorem loose_walk_refs (visits : List LooseVisit) (s : Loose) (c : Nat) :
    (looseWalk visits s).2.credRefs c = s.credRefs c + (leaked visits s).count c := by
  induction visits generalizing s with
  | nil => simp [looseWalk, leaked]
  | cons v rest ih =>
      have refs := loose_visit_refs v s
      rw [looseWalk, ih, leaked, refs]
      by_cases served : allServed (looseVisit v s).1 = true
      · rw [if_pos served, if_pos served]
      · rw [if_neg served, if_neg served, List.count_cons, addRef]
        by_cases same : c = v.visit.task.cred
        · rw [if_pos same, if_pos (by simp [same])]
          omega
        · rw [if_neg same, if_neg (by simpa using Ne.symm same)]
          omega

theorem leaked_nothing_iff (visits : List LooseVisit) (s : Loose) :
    leaked visits s = [] ↔ ∀ m ∈ (looseWalk visits s).1, m.2 = true := by
  induction visits generalizing s with
  | nil => simp [looseWalk, leaked]
  | cons v rest ih =>
      rw [leaked, looseWalk]
      simp only [List.forall_mem_append, ← ih]
      by_cases served : allServed (looseVisit v s).1 = true
      · have each : ∀ m ∈ (looseVisit v s).1, m.2 = true := List.all_eq_true.mp served
        rw [if_pos served]
        exact (and_iff_right each).symm
      · rw [if_neg served]
        constructor
        · intro impossible
          cases impossible
        · rintro ⟨each, _⟩
          exact absurd (List.all_eq_true.mpr each) served

-- The walk with checked accesses and the loose one agree on whatever can be read.
structure Matches (s : Globals) (l : Loose) : Prop where
  nAlloc : l.nAlloc = s.slots.nAlloc
  total : l.total = s.slots.total
  cells : ∀ i slot, getSlot s.slots i = .ok slot → l.cells i = slot.isSome
  credRefs : l.credRefs = s.credRefs

theorem get_slot_ok (t : Slots) (i : Nat) (slot : Option Nat) :
    getSlot t i = .ok slot ↔ ∃ address slots, t.processInfo = some address ∧ t.arrays.read address = some slots ∧
      slots[i]? = some slot := by
  cases at_null : t.processInfo with
  | none => simp [getSlot, slotArray, at_null]
  | some address =>
      cases read : t.arrays.read address with
      | none => simp [getSlot, slotArray, at_null, read]
      | some slots =>
          cases access : slots[i]? with
          | none => simp [getSlot, slotArray, at_null, read, access]
          | some found => simp [getSlot, slotArray, at_null, read, access]

theorem kfree_array_read (processInfo : Option Nat) (arrays freed : Heap (List (Option Nat))) (p : Nat)
    (slots : List (Option Nat)) (ran : kfreeArray processInfo arrays = .ok freed) (read : freed.read p = some slots) :
    arrays.read p = some slots := by
  cases processInfo with
  | none =>
      cases ran
      exact read
  | some address =>
      by_cases live : arrays.Live address
      · simp only [kfreeArray, Heap.free_live arrays address live] at ran
        cases ran
        have different := ((Heap.live_release arrays address p live).mp (Heap.read_some_live _ _ _ read)).2
        rw [← Heap.read_release arrays address p live different]
        exact read
      · have dead : arrays.free address = none := dif_neg live
        simp only [kfreeArray, dead] at ran
        cases ran

theorem copy_source_slot (t : Slots) (old : List (Option Nat)) (copied : copySource t = .ok old) (i : Nat)
    (slot : Option Nat) (access : old[i]? = some slot) : getSlot t i = .ok slot := by
  by_cases none_yet : t.total = 0
  · rw [copySource, if_pos none_yet] at copied
    cases copied
    simp at access
  · rw [copySource, if_neg none_yet] at copied
    obtain ⟨⟨address, slots⟩, array, rfl⟩ := (except_map_ok _ _ _).mp copied
    simp only [getSlot, array, except_ok_bind, access]

theorem grow_array_cells (array : Bool) (t next : Slots) (room : Bool) (ran : growArray array t = .ok (room, next)) :
    room = granted array (nextAlloc t.nAlloc) ∧ next.nAlloc = nextAlloc t.nAlloc ∧ next.total = t.total ∧
      ∀ i slot, getSlot next i = .ok slot →
        (room = false ∨ i < t.total) ∧ getSlot t i = .ok slot ∨
          room = true ∧ ¬ i < t.total ∧ i < (nextAlloc t.nAlloc).toNat ∧ slot = none := by
  rw [growArray] at ran
  by_cases given : granted array (nextAlloc t.nAlloc) = true
  · rw [if_pos given] at ran
    obtain ⟨old, copied, rest⟩ := (except_bind_ok _ _ _).mp ran
    by_cases short : old.length < t.total ∨ (nextAlloc t.nAlloc).toNat < t.total
    · rw [if_pos short] at rest
      cases rest
    · rw [if_neg short] at rest
      obtain ⟨arrays, freed, same⟩ := (except_bind_ok _ _ _).mp rest
      cases same
      refine ⟨given.symm, rfl, rfl, fun i slot read => ?_⟩
      obtain ⟨address, slots, here, found, access⟩ := (get_slot_ok _ _ _).mp read
      obtain rfl : t.arrays.size = address := Option.some.inj here
      have grown := kfree_array_read _ _ _ _ _ freed found
      rw [Heap.read_alloc_fresh] at grown
      obtain rfl := Option.some.inj grown
      by_cases copiedSlot : i < t.total
      · rw [List.getElem?_append_left (by simp; omega), List.getElem?_take_of_lt copiedSlot] at access
        exact .inl ⟨.inr copiedSlot, copy_source_slot t old copied i slot access⟩
      · rw [List.getElem?_append_right (by simp; omega), List.getElem?_replicate] at access
        by_cases inside : i - (old.take t.total).length < (nextAlloc t.nAlloc).toNat - t.total
        · rw [if_pos inside] at access
          simp only [List.length_take] at inside
          exact .inr ⟨rfl, copiedSlot, by omega, (Option.some.inj access).symm⟩
        · rw [if_neg inside] at access
          cases access
  · rw [if_neg given] at ran
    cases ran
    exact ⟨by simpa using given, rfl, rfl, fun i slot read => .inl ⟨.inl rfl, read⟩⟩

theorem make_room_matches (v : LooseVisit) (s next : Globals) (l : Loose) (room : Bool) (agree : Matches s l)
    (ran : (makeRoom v.visit.array s).result = .ok (room, next)) :
    (looseRoom v l).goesOn = room ∧ Matches next (looseRoom v l).state := by
  obtain ⟨_, _, got, rest⟩ := (Walk.result_bind _ _ _ _ _).mp ran
  cases got
  obtain ⟨room', grown, block, last⟩ := (Walk.result_bind _ _ _ _ _).mp rest
  cases last
  by_cases full : s.slots.nAlloc % 2 ^ 32 = s.slots.total
  · rw [growFull, if_pos full] at block
    obtain ⟨_, _, marked, block⟩ := (Walk.result_bind _ _ _ _ _).mp block
    cases marked
    obtain ⟨slots, grew, rfl⟩ := on_slots_result _ _ _ _ block
    obtain ⟨rfl, sameAlloc, sameTotal, cells⟩ := grow_array_cells _ _ _ _ grew
    have looseFull : l.nAlloc % 2 ^ 32 = l.total := by rw [agree.nAlloc, agree.total, full]
    rw [looseRoom, if_pos looseFull, agree.nAlloc]
    by_cases given : granted v.visit.array (nextAlloc s.slots.nAlloc) = true
    · rw [if_pos given]
      refine ⟨given.symm, sameAlloc.symm, agree.total.trans sameTotal.symm, fun i slot read => ?_, agree.credRefs⟩
      change (if i < l.total then l.cells i else if i < (nextAlloc s.slots.nAlloc).toNat then false else v.beyond i) = _
      rw [agree.total]
      obtain ⟨denied | copied, old⟩ | ⟨_, fresh, inside, rfl⟩ := cells i slot read
      · exact absurd (denied.symm.trans given) (by decide)
      · rw [if_pos copied]
        exact agree.cells i slot old
      · rw [if_neg fresh, if_pos inside]
        rfl
    · rw [if_neg given]
      refine ⟨by simpa using given, sameAlloc.symm, agree.total.trans sameTotal.symm, fun i slot read => ?_, agree.credRefs⟩
      obtain ⟨_, old⟩ | ⟨granted, _⟩ := cells i slot read
      · exact agree.cells i slot old
      · exact absurd granted given
  · rw [growFull, if_neg full] at block
    cases block
    have looseFull : ¬ l.nAlloc % 2 ^ 32 = l.total := by rwa [agree.nAlloc, agree.total]
    rw [looseRoom, if_neg looseFull]
    exact ⟨rfl, agree⟩

theorem set_slot_cells (t next : Slots) (i : Nat) (slot : Option Nat) (ran : setSlot t i slot = .ok next) :
    next.nAlloc = t.nAlloc ∧ next.total = t.total ∧ ∀ j now, getSlot next j = .ok now →
      j = i ∧ now = slot ∨ j ≠ i ∧ getSlot t j = .ok now := by
  obtain ⟨⟨address, slots⟩, array, rest⟩ := (except_bind_ok _ _ _).mp ran
  by_cases inside : i < slots.length
  · simp only [if_pos inside] at rest
    by_cases live : t.arrays.Live address
    · rw [Heap.write_live _ _ _ live] at rest
      cases rest
      have at_ : t.processInfo = some address := by
        cases at_null : t.processInfo with
        | none => simp [slotArray, at_null] at array
        | some other =>
            cases found : t.arrays.read other with
            | none => simp [slotArray, at_null, found] at array
            | some cells => simp [slotArray, at_null, found] at array; simp [array.1]
      refine ⟨rfl, rfl, fun j now read => ?_⟩
      obtain ⟨other, cells, here, found, access⟩ := (get_slot_ok _ _ _).mp read
      obtain rfl : address = other := Option.some.inj (at_.symm.trans here)
      change (t.arrays.store address (slots.set i slot)).read address = some cells at found
      rw [Heap.read_store_here _ _ _ live] at found
      obtain rfl := Option.some.inj found
      by_cases same : j = i
      · rw [same, List.getElem?_set_self inside] at access
        exact .inl ⟨same, (Option.some.inj access).symm⟩
      · rw [List.getElem?_set_ne (Ne.symm same)] at access
        refine .inr ⟨same, ?_⟩
        simp only [getSlot, array, except_ok_bind, access]
    · have dead : t.arrays.write address (slots.set i slot) = none := if_neg live
      simp only [dead] at rest
      cases rest
  · simp only [if_neg inside] at rest
    cases rest

theorem store_slot_result (row : Option ProcInfo) (s next : Globals) (ran : (storeSlot row s).result = .ok ((), next)) :
    next.credRefs = s.credRefs ∧ next.slots.nAlloc = s.slots.nAlloc ∧ next.slots.total = s.slots.total ∧
      ∀ j now, getSlot next.slots j = .ok now →
        j = s.slots.total ∧ now.isSome = row.isSome ∨ j ≠ s.slots.total ∧ getSlot s.slots j = .ok now := by
  obtain ⟨_, _, marked, rest⟩ := (Walk.result_bind _ _ _ _ _).mp ran
  cases marked
  obtain ⟨slots, stored, rfl⟩ := on_slots_result _ _ _ _ rest
  cases row with
  | none =>
      obtain ⟨after, set, same⟩ := (except_map_ok _ _ _).mp stored
      cases same
      obtain ⟨sameAlloc, sameTotal, cells⟩ := set_slot_cells _ _ _ _ set
      refine ⟨rfl, sameAlloc, sameTotal, fun j now read => ?_⟩
      obtain ⟨here, rfl⟩ | elsewhere := cells j now read
      · exact .inl ⟨here, rfl⟩
      · exact .inr elsewhere
  | some info =>
      obtain ⟨after, set, same⟩ := (except_map_ok _ _ _).mp stored
      cases same
      obtain ⟨sameAlloc, sameTotal, cells⟩ := set_slot_cells _ _ _ _ set
      refine ⟨rfl, sameAlloc, sameTotal, fun j now read => ?_⟩
      obtain ⟨here, rfl⟩ | elsewhere := cells j now read
      · exact .inl ⟨here, rfl⟩
      · exact .inr elsewhere

theorem place_row_matches (v : LooseVisit) (s next : Globals) (l : Loose) (placed : Bool) (agree : Matches s l)
    (ran : (placeRow v.visit.row s).result = .ok (placed, next)) :
    (looseRow v l).goesOn = placed ∧ Matches next (looseRow v l).state := by
  obtain ⟨slot, _, first, rest⟩ := (Walk.result_bind _ _ _ _ _).mp ran
  obtain ⟨read, rfl⟩ := read_slot_result _ _ _ first
  obtain ⟨_, stored, alloc, rest⟩ := (Walk.result_bind _ _ _ _ _).mp rest
  obtain ⟨again, _, second, last⟩ := (Walk.result_bind _ _ _ _ _).mp rest
  obtain ⟨readAgain, rfl⟩ := read_slot_result _ _ _ second
  cases last
  have here := agree.cells _ slot read
  rw [← agree.total] at here
  cases slot with
  | some row =>
      cases alloc
      obtain rfl := Except.ok.inj (readAgain.symm.trans read)
      have taken : l.cells l.total = true := here
      rw [looseRow, if_pos taken]
      exact ⟨rfl, agree⟩
  | none =>
      have missing : (none : Option Nat).isNone = true := rfl
      rw [allocRow, if_pos missing] at alloc
      obtain ⟨_, _, marked, alloc⟩ := (Walk.result_bind _ _ _ _ _).mp alloc
      cases marked
      obtain ⟨sameRefs, sameAlloc, sameTotal, cells⟩ := store_slot_result _ _ _ alloc
      have vacant : ¬ l.cells l.total = true := by simp [here]
      rw [looseRow, if_neg vacant]
      refine ⟨?_, agree.nAlloc.trans sameAlloc.symm, agree.total.trans sameTotal.symm, fun j now found => ?_,
        agree.credRefs.trans sameRefs.symm⟩
      · obtain ⟨_, same⟩ | ⟨different, _⟩ := cells _ again readAgain
        · exact same.symm
        · exact absurd sameTotal different
      · change (if j = l.total then v.visit.row.isSome else l.cells j) = now.isSome
        rw [agree.total]
        obtain ⟨rfl, same⟩ | ⟨elsewhere, old⟩ := cells j now found
        · rw [if_pos rfl, same]
        · rw [if_neg elsewhere]
          exact agree.cells j now old

-- Filling and sampling a row leave the array and n_alloc as they are.
def arrayView (s : Globals) : Int × Option Nat × Heap (List (Option Nat)) × (Nat → Int) × Nat :=
  (s.slots.nAlloc, s.slots.processInfo, s.slots.arrays, s.credRefs, s.slots.total)

theorem row_write_view (f : Slots → Except Fault (Unit × Slots))
    (writes : ∀ t next, f t = .ok ((), next) → ∃ rows, next = { t with rows := rows }) :
    Walk.Keeps arrayView (onSlots f) := by
  intro s a next ran
  obtain ⟨slots, done, rfl⟩ := on_slots_result _ _ _ _ ran
  obtain ⟨rows, rfl⟩ := writes _ _ done
  rfl

theorem write_row_rows (this : Nat) (info : ProcInfo) (t next : Slots) (ran : writeRow this info t = .ok next) :
    ∃ rows, next = { t with rows := rows } := by
  rw [writeRow] at ran
  cases wrote : t.rows.write this info with
  | none => simp [wrote] at ran
  | some rows =>
      simp only [wrote] at ran
      cases ran
      exact ⟨rows, rfl⟩

theorem procs_hlp_view (hash : Hash) (hst : Bool) (this : Nat) (s next : Globals)
    (ran : (procsHlp hash hst this s).result = .ok ((), next)) :
    arrayView next = arrayView { s with slots := { s.slots with total := s.slots.total + 1 } } := by
  obtain ⟨info, _, first, rest⟩ := (Walk.result_bind _ _ _ _ _).mp ran
  obtain ⟨slots, read, rfl⟩ := on_slots_result _ _ _ _ first
  obtain ⟨_, _, same⟩ := (except_map_ok _ _ _).mp read
  cases same
  obtain ⟨_, counted, modified, rest⟩ := (Walk.result_bind _ _ _ _ _).mp rest
  cases modified
  have sampled : Walk.Keeps arrayView (do
      Walk.mark (.kmalloc .hst hst)
      if hst then
        let perCpuTime ← onTables (takeSample hash info)
        onSlots fun t => (writeRow this { info with perCpuTime := perCpuTime } t).map fun t => ((), t)) := by
    refine Walk.keeps_bind arrayView _ _ (Walk.keeps_mark arrayView _) fun _ => ?_
    cases hst with
    | false => exact Walk.keeps_pure arrayView ()
    | true =>
        refine Walk.keeps_bind arrayView _ _ ?_ fun perCpuTime => row_write_view _ fun t next done => ?_
        · intro s a next ran
          obtain ⟨_, _, rfl⟩ := on_tables_result _ _ _ _ ran
          rfl
        · obtain ⟨_, wrote, same⟩ := (except_map_ok _ _ _).mp done
          cases same
          exact write_row_rows _ _ _ _ wrote
  have kept := sampled _ _ _ rest
  exact kept

theorem get_slot_view (t u : Slots) (sameInfo : t.processInfo = u.processInfo) (sameArrays : t.arrays = u.arrays) (i : Nat) :
    getSlot t i = getSlot u i := by
  rw [getSlot, getSlot, slotArray, slotArray, sameInfo, sameArrays]

theorem record_task_matches (hash : Hash) (v : LooseVisit) (s next : Globals) (l : Loose) (agree : Matches s l)
    (ran : (recordTask hash v.visit s).result = .ok ((), next)) : Matches next (looseRecord v l) := by
  obtain ⟨_, _, first, naming⟩ := (Walk.result_bind _ _ _ _ _).mp ran
  obtain ⟨_, rfl⟩ := read_slot_result _ _ _ first
  obtain ⟨row, _, known, filling⟩ := (Walk.result_bind _ _ _ _ _).mp naming
  obtain rfl := row_of_result _ _ _ _ known
  obtain ⟨_, filled, written, dropping⟩ := (Walk.result_bind _ _ _ _ _).mp filling
  have fills : ∀ t u, (do
      let info ← readRow row t
      let t ← writeRow row (fillRow v.visit.task info) t
      .ok ((), t)) = Except.ok ((), u) → ∃ rows, u = { t with rows := rows } := by
    intro t u done
    obtain ⟨_, _, done⟩ := (except_bind_ok _ _ _).mp done
    obtain ⟨_, wrote, same⟩ := (except_bind_ok _ _ _).mp done
    cases same
    exact write_row_rows _ _ _ _ wrote
  have view := row_write_view _ fills _ _ _ written
  obtain ⟨_, _, dropped, reading⟩ := (Walk.result_bind _ _ _ _ _).mp dropping
  cases dropped
  obtain ⟨_, _, again, namingAgain⟩ := (Walk.result_bind _ _ _ _ _).mp reading
  obtain ⟨_, rfl⟩ := read_slot_result _ _ _ again
  obtain ⟨this, _, knownAgain, sampling⟩ := (Walk.result_bind _ _ _ _ _).mp namingAgain
  obtain rfl := row_of_result _ _ _ _ knownAgain
  have sampled := procs_hlp_view hash _ this _ _ sampling
  simp only [arrayView, Prod.mk.injEq] at view sampled
  obtain ⟨alloc, info, arrays, refs, total⟩ := view
  obtain ⟨allocAfter, infoAfter, arraysAfter, refsAfter, totalAfter⟩ := sampled
  refine ⟨?_, ?_, fun i slot read => ?_, ?_⟩
  · exact agree.nAlloc.trans (alloc.symm.trans allocAfter.symm)
  · rw [totalAfter]
    exact congrArg (· + 1) (agree.total.trans total.symm)
  · refine agree.cells i slot (Eq.trans (get_slot_view _ _ ?_ ?_ i) read)
    · exact info.symm.trans infoAfter.symm
    · exact arrays.symm.trans arraysAfter.symm
  · rw [refsAfter]
    change addRef _ _ l.credRefs = addRef _ _ filled.credRefs
    rw [agree.credRefs, refs]

theorem visit_matches (hash : Hash) (v : LooseVisit) (s next : Globals) (l : Loose) (agree : Matches s l)
    (ran : (visitTask hash v.visit s).result = .ok ((), next)) : Matches next (looseVisit v l).2 := by
  obtain ⟨_, _, marked, holding⟩ := (Walk.result_bind _ _ _ _ _).mp ran
  cases marked
  obtain ⟨_, _, held, growing⟩ := (Walk.result_bind _ _ _ _ _).mp holding
  cases held
  have holds : Matches (addCredRef v.visit.task.cred 1 s) (looseHold v l) :=
    ⟨agree.nAlloc, agree.total, agree.cells, congrArg (addRef v.visit.task.cred 1) agree.credRefs⟩
  obtain ⟨room, _, grown, placing⟩ := (Walk.result_bind _ _ _ _ _).mp growing
  obtain ⟨hasRoom, roomy⟩ := make_room_matches v _ _ _ _ holds grown
  cases roomStage : looseRoom v (looseHold v l) with
  | mk asked goesOn state =>
      rw [roomStage] at hasRoom roomy
      obtain rfl : goesOn = room := hasRoom
      cases goesOn with
      | false =>
          cases placing
          simp only [looseVisit, roomStage]
          exact roomy
      | true =>
          obtain ⟨placed, _, rowed, recording⟩ := (Walk.result_bind _ _ _ _ _).mp placing
          obtain ⟨hasRow, filled⟩ := place_row_matches v _ _ _ _ roomy rowed
          change (looseRow v state).goesOn = placed at hasRow
          change Matches _ (looseRow v state).state at filled
          cases rowStage : looseRow v state with
          | mk askedRow took last =>
              rw [rowStage] at hasRow filled
              obtain rfl : took = placed := hasRow
              cases took with
              | false =>
                  cases recording
                  simp only [looseVisit, roomStage, rowStage]
                  exact filled
              | true =>
                  simp only [looseVisit, roomStage, rowStage]
                  exact record_task_matches hash v _ _ _ filled recording

theorem walk_matches (hash : Hash) (visits : List LooseVisit) (s next : Globals) (l : Loose) (agree : Matches s l)
    (ran : (Walk.forEach (visits.map LooseVisit.visit) (visitTask hash) s).result = .ok ((), next)) :
    Matches next (looseWalk visits l).2 := by
  induction visits generalizing s l with
  | nil =>
      cases ran
      exact agree
  | cons v rest ih =>
      obtain ⟨_, middle, first, later⟩ := (Walk.result_bind _ _ _ _ _).mp ran
      exact ih middle _ (visit_matches hash v s middle l agree first) later

def looseOf (s : Globals) : Loose where
  nAlloc := s.slots.nAlloc
  total := s.slots.total
  cells := fun i =>
    match getSlot s.slots i with
    | .ok slot => slot.isSome
    | .error _ => false
  credRefs := s.credRefs

theorem matches_loose_of (s : Globals) : Matches s (looseOf s) := by
  refine ⟨rfl, rfl, fun i slot read => ?_, rfl⟩
  simp only [looseOf, read]

theorem procs_refresh_loose (hash : Hash) (r : Refresh) (globals after : Globals) (visits : List LooseVisit) (s : Loose)
    (agree : Matches globals s) (walked : r.visits = visits.map LooseVisit.visit)
    (ran : Walk.final (procsRefresh hash r) globals = .ok after) : after.credRefs = (looseRefresh visits s).2.credRefs := by
  obtain ⟨_, ready, begun, walking⟩ := (Walk.final_bind _ _ globals after).mp ran
  obtain ⟨tables, _, rfl⟩ := procs_hlp_null_result hash r.uptimeCur globals ready begun
  obtain ⟨_, last, visited, marked⟩ := (Walk.final_bind _ _ _ after).mp walking
  cases marked
  rw [walked] at visited
  have start : Matches { globals with
      tables := tables
      slots := { globals.slots with total := 0 }
      counters := ⟨0, 0, 0, 0, 0⟩
      et := elapsed r.uptimeCur globals.uptimeSav
      uptimeSav := r.uptimeCur } { s with total := 0 } :=
    ⟨agree.nAlloc, rfl, agree.cells, agree.credRefs⟩
  have counted := walk_matches hash visits _ _ _ start visited
  exact counted.credRefs.symm

-- A process skipped after a failed kmalloc keeps the reference taken for it.
theorem cred_refs_kept_iff (visits : List LooseVisit) (s : Loose) :
    ((looseRefresh visits s).2.credRefs = s.credRefs ↔ ∀ m ∈ (looseRefresh visits s).1, m.2 = true) ∧
      ∀ (hash : Hash) (r : Refresh) (globals after : Globals), Matches globals s →
        r.visits = visits.map LooseVisit.visit → Walk.final (procsRefresh hash r) globals = .ok after →
          after.credRefs = (looseRefresh visits s).2.credRefs := by
  refine ⟨?_, fun hash r globals after => procs_refresh_loose hash r globals after visits s⟩
  rw [looseRefresh, ← leaked_nothing_iff]
  constructor
  · intro same
    by_contra leaks
    obtain ⟨cred, member⟩ := List.exists_mem_of_ne_nil _ leaks
    have refs := loose_walk_refs visits { s with total := 0 } cred
    rw [same] at refs
    have counted := List.count_pos_iff.mpr member
    change s.credRefs cred = s.credRefs cred + _ at refs
    omega
  · intro none
    funext c
    rw [loose_walk_refs, none]
    simp

theorem starved_keeps_reference :
    ∃ after, Walk.final (procsRefresh (fun _ => 0) starved) initial = .ok after ∧ after.credRefs ≠ initial.credRefs := by
  have refs : (Walk.final (procsRefresh (fun _ => 0) starved) initial).map (fun s => s.credRefs 0) = .ok 1 := by
    decide +kernel
  obtain ⟨after, ran, counted⟩ := (except_map_ok _ _ _).mp refs
  refine ⟨after, ran, fun same => ?_⟩
  rw [same] at counted
  exact absurd counted (by decide)

end LinuxModule.SteTop
