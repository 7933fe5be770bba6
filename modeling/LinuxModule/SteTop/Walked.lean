import LinuxModule.SteTop.Samples
import LinuxModule.SteTop.Rows

set_option autoImplicit false

namespace LinuxModule.SteTop

-- The bounds at one point of a walk: n_alloc is the number of slots, and whoever
-- touches process_info[total] is below it.
def Bounded (point : Point) (s : Globals) : Prop :=
  s.slots.nAlloc = s.slots.cells.length ∧ (s.slots.total : Int) ≤ s.slots.nAlloc ∧
    (point = .access → (s.slots.total : Int) < s.slots.nAlloc)

def DistinctRows (t : Slots) : Prop :=
  ∃ rows : List Nat, t.cells.take t.total = rows.map some ∧ rows.length = t.total ∧ rows.Nodup ∧
    ∀ row ∈ rows, t.rows.Live row

def HeldOnce (t : Slots) : Prop := ∀ row, row < t.rows.size → t.cells.count (some row) = 1

-- What a walk owes at every point, whatever it may rely on; it never faults.
def upkeep (rely : Point → Globals → Prop) : Walk.Contract Fault Point Globals where
  rely := rely
  guar point s := Bounded point s ∧ DistinctRows s.slots ∧ HeldOnce s.slots ∧ point ≠ .kmalloc .array false
  fault _ := False

-- What a growth step leaves when its kmalloc fails: n_alloc has moved, the array has not.
def refused (s : Globals) : Globals := { s with slots := { s.slots with nAlloc := nextAlloc s.slots.nAlloc } }

-- The growth steps of a walk over these processes can be relied on to get their
-- memory, from the step's own point and the one after it.
def Grows (rely : Point → Globals → Prop) (visits : List Visit) : Prop :=
  ∀ v ∈ visits, ∀ s : Globals, s.slots.total < visits.length → s.slots.nAlloc = s.slots.total →
    s.slots.nAlloc ≤ maxAlloc → rely (.kmalloc .array (granted v.array (nextAlloc s.slots.nAlloc))) s →
    rely .grown (refused s) → granted v.array (nextAlloc s.slots.nAlloc) = true

structure Walked (hash : Hash) (s : Globals) (start : Nat) (old new : List Hst) (rows : List Nat) : Prop where
  sampling : Sampling hash s.tables start old new
  owned : RowsOwned s.slots rows

theorem rows_bounded (s : Globals) (rows : List Nat) (owned : RowsOwned s.slots rows) (point : Point)
    (room : point = .access → s.slots.total < s.slots.cells.length) : Bounded point s := by
  have fit := rows_fit s.slots rows owned
  have filled := owned.filled
  refine ⟨owned.capacity, ?_, fun access => ?_⟩
  · rw [owned.capacity]
    omega
  · rw [owned.capacity]
    have below := room access
    omega

theorem rows_distinct_slots (t : Slots) (rows : List Nat) (owned : RowsOwned t rows) : DistinctRows t := by
  obtain ⟨k, cells⟩ := owned.spare
  have filled := owned.filled
  refine ⟨rows.take t.total, ?_, by simpa using filled, ?_, ?_⟩
  · rw [cells, List.take_append_of_le_length (by simpa using filled), List.map_take]
  · exact (rows_distinct t rows owned).sublist (List.take_sublist _ _)
  · exact fun row member => (rows_live t rows owned row).mp (List.mem_of_mem_take member)

theorem rows_held_once (t : Slots) (rows : List Nat) (owned : RowsOwned t rows) : HeldOnce t := by
  intro row bound
  obtain ⟨k, cells⟩ := owned.spare
  have member : row ∈ rows := owned.owned.mem_iff.mpr (List.mem_range.mpr bound)
  have spares : (List.replicate k (none : Option Nat)).count (some row) = 0 := by simp [List.count_replicate]
  have held : (rows.map some).count (some row) = rows.count row :=
    List.count_map_of_injective rows some (Option.some_injective Nat) row
  rw [cells, List.count_append, spares, held]
  exact List.count_eq_one_of_mem (rows_distinct t rows owned) member

theorem meets_on_slots {α : Type} (c : Walk.Contract Fault Point Globals) (f : Slots → Except Fault (α × Slots))
    (s : Globals) (a : α) (next : Slots) (post : α → Globals → Prop) (done : f s.slots = .ok (a, next))
    (holds : post a { s with slots := next }) : Walk.Meets c (onSlots f) s post :=
  Walk.meets_act c _ s { s with slots := next } a post (by rw [done]; rfl) holds

theorem meets_on_tables {α : Type} (c : Walk.Contract Fault Point Globals) (f : Tables → Except Fault (α × Tables))
    (s : Globals) (a : α) (next : Tables) (post : α → Globals → Prop) (done : f s.tables = .ok (a, next))
    (holds : post a { s with tables := next }) : Walk.Meets c (onTables f) s post :=
  Walk.meets_act c _ s { s with tables := next } a post (by rw [done]; rfl) holds

section Contracts

variable (hash : Hash) (rely : Point → Globals → Prop)

theorem meets_point (s : Globals) (rows : List Nat) (owned : RowsOwned s.slots rows) (point : Point)
    (room : point = .access → s.slots.total < s.slots.cells.length) (grew : point ≠ .kmalloc .array false)
    (post : Unit → Globals → Prop) (holds : rely point s → post () s) :
    Walk.Meets (upkeep rely) (Walk.mark point) s post :=
  Walk.meets_mark _ _ _ _ fun relied =>
    ⟨⟨rows_bounded s rows owned point room, rows_distinct_slots s.slots rows owned,
      rows_held_once s.slots rows owned, grew⟩, holds relied⟩

theorem read_slot_meets (s : Globals) (rows : List Nat) (owned : RowsOwned s.slots rows)
    (room : s.slots.total < s.slots.cells.length) (post : Option Nat → Globals → Prop)
    (holds : post rows[s.slots.total]? s) : Walk.Meets (upkeep rely) readSlot s post := by
  apply Walk.meets_bind
  apply meets_point rely s rows owned .access (fun _ => room) (by simp)
  intro _
  apply meets_on_slots _ _ s rows[s.slots.total]? s.slots
  · rw [get_slot_spec s.slots rows owned _ room]
    rfl
  · exact holds

theorem make_room_refused (array : Bool) (s : Globals) (full : s.slots.nAlloc % 2 ^ 32 = s.slots.total)
    (denied : granted array (nextAlloc s.slots.nAlloc) = false) :
    makeRoom array s =
      ⟨[(.kmalloc .array (granted array (nextAlloc s.slots.nAlloc)), s), (.grown, refused s)],
        .ok (false, refused s)⟩ := by
  have grown : growArray array s.slots = .ok (false, (refused s).slots) := by
    simp only [growArray, denied]
    rfl
  have block : growFull array s s =
      ⟨[(.kmalloc .array (granted array (nextAlloc s.slots.nAlloc)), s)], .ok (false, refused s)⟩ := by
    rw [growFull, if_pos full, Walk.bind_ok _ _ s s () _ rfl]
    simp only [onSlots, Walk.act, grown, except_ok_map]
    rfl
  rw [makeRoom, Walk.bind_ok _ _ s s s [] rfl, Walk.bind_ok _ _ s (refused s) false _ block]
  rfl

theorem make_room_meets (array : Bool) (s : Globals) (rows : List Nat) (owned : RowsOwned s.slots rows)
    (grows : s.slots.nAlloc = s.slots.total →
      rely (.kmalloc .array (granted array (nextAlloc s.slots.nAlloc))) s → rely .grown (refused s) →
      granted array (nextAlloc s.slots.nAlloc) = true) :
    Walk.Meets (upkeep rely) (makeRoom array) s (fun room after =>
      room = true ∧ after.tables = s.tables ∧ RowsOwned after.slots rows ∧ after.slots.rows = s.slots.rows ∧
        after.slots.total = s.slots.total ∧ s.slots.total < after.slots.cells.length) := by
  have capacity := owned.capacity
  have limit : s.slots.nAlloc ≤ 536870921 := owned.limit
  have unsigned : s.slots.nAlloc % 2 ^ 32 = s.slots.nAlloc := by omega
  by_cases full : s.slots.nAlloc = s.slots.total
  · by_cases ok : granted array (nextAlloc s.slots.nAlloc) = true
    · apply Walk.meets_bind
      apply Walk.meets_get
      apply Walk.meets_bind
      rw [growFull, unsigned, if_pos full]
      apply Walk.meets_bind
      apply meets_point rely s rows owned _ (by simp) (by simp [ok])
      intro _
      obtain ⟨slots, ran, keeps, sameRows, sameTotal, room⟩ := grow_array_spec array s.slots rows owned full ok
      apply meets_on_slots _ _ s true slots _ ran
      apply Walk.meets_bind
      apply meets_point rely _ rows keeps .grown (by simp) (by simp)
      intro _
      exact Walk.meets_pure _ _ _ _ ⟨rfl, rfl, keeps, sameRows, sameTotal, room⟩
    · have denied : granted array (nextAlloc s.slots.nAlloc) = false := by simpa using ok
      intro relied
      rw [make_room_refused array s (unsigned.trans full) denied] at relied
      exact absurd (grows full (relied (_, s) (by simp)) (relied (.grown, refused s) (by simp))) ok
  · apply Walk.meets_bind
    apply Walk.meets_get
    apply Walk.meets_bind
    rw [growFull, unsigned, if_neg full]
    have fit := rows_fit s.slots rows owned
    have filled := owned.filled
    apply Walk.meets_pure
    apply Walk.meets_bind
    apply meets_point rely s rows owned .grown (by simp) (by simp)
    intro _
    exact Walk.meets_pure _ _ _ _ ⟨rfl, rfl, owned, rfl, rfl, by omega⟩

-- What the walk finds in slot i before it fills it: the row that is there, or the
-- bytes of the row its kmalloc hands out.
def baseRow (rows : List Nat) (heap : Heap ProcInfo) (i : Nat) (row : Option ProcInfo) : Option ProcInfo :=
  match rows[i]? with
  | some slot => heap.read slot
  | none => row

theorem place_row_meets (row : Option ProcInfo) (s : Globals) (rows : List Nat) (owned : RowsOwned s.slots rows)
    (room : s.slots.total < s.slots.cells.length) :
    Walk.Meets (upkeep rely) (placeRow row) s (fun placed after =>
      ∃ later, after.tables = s.tables ∧ RowsOwned after.slots later ∧ after.slots.total = s.slots.total ∧
        (∀ i, i < rows.length → later[i]? = rows[i]?) ∧
        (∀ old ∈ rows, after.slots.rows.read old = s.slots.rows.read old) ∧
        ((placed = true ∧ later.length = max rows.length (s.slots.total + 1) ∧
            ∃ slot base, later[s.slots.total]? = some slot ∧
              baseRow rows s.slots.rows s.slots.total row = some base ∧ after.slots.rows.read slot = some base) ∨
          placed = false ∧ later = rows ∧ ∃ at_, rely (.kmalloc .row false) at_)) := by
  have filled := owned.filled
  apply Walk.meets_bind
  apply read_slot_meets rely s rows owned room
  by_cases taken : s.slots.total < rows.length
  · have here : rows[s.slots.total]? = some rows[s.slots.total] := List.getElem?_eq_getElem taken
    rw [here]
    apply Walk.meets_bind
    apply Walk.meets_pure
    apply Walk.meets_bind
    apply read_slot_meets rely s rows owned room
    rw [here]
    have live := (rows_live s.slots rows owned _).mp (List.getElem_mem taken)
    obtain ⟨base, read⟩ := Heap.live_read _ _ live
    refine Walk.meets_pure _ _ _ _ ⟨rows, rfl, owned, rfl, fun _ _ => rfl, fun _ _ => rfl,
      .inl ⟨rfl, by omega, _, base, here, ?_, read⟩⟩
    simp only [baseRow, here, read]
  · have free : s.slots.total = rows.length := by omega
    have vacant : rows[s.slots.total]? = none := List.getElem?_eq_none (by omega)
    rw [vacant]
    apply Walk.meets_bind
    apply Walk.meets_bind
    apply meets_point rely s rows owned _ (by simp) (by simp)
    intro relied
    apply Walk.meets_bind
    apply meets_point rely s rows owned .access (fun _ => room) (by simp)
    intro _
    cases row with
    | none =>
        obtain ⟨slots, ran, keeps, sameRows, sameTotal, sameCells⟩ := no_row_spec s.slots rows owned free room
        apply meets_on_slots _ _ s () slots
        · simp only [ran]
          rfl
        apply Walk.meets_bind
        apply read_slot_meets rely _ rows keeps (by rw [sameTotal, sameCells]; exact room)
        refine Walk.meets_pure _ _ _ _ ⟨rows, rfl, keeps, sameTotal, fun _ _ => rfl, fun _ _ => by rw [sameRows],
          .inr ⟨?_, rfl, s, relied⟩⟩
        change rows[slots.total]?.isSome = false
        rw [sameTotal, vacant]
        rfl
    | some info =>
        obtain ⟨slots, ran, keeps, newRows, sameTotal, sameLength⟩ := new_row_spec s.slots rows owned info free room
        apply meets_on_slots _ _ s () slots
        · simp only [ran]
          rfl
        apply Walk.meets_bind
        apply read_slot_meets rely _ _ keeps (by rw [sameTotal, sameLength]; exact room)
        refine Walk.meets_pure _ _ _ _ ⟨rows ++ [s.slots.rows.size], rfl, keeps, sameTotal,
          fun i inside => List.getElem?_append_left inside, fun old member => ?_, .inl ⟨?_, ?_, s.slots.rows.size, info, ?_, ?_, ?_⟩⟩
        · have live := (rows_live s.slots rows owned old).mp member
          rw [newRows, Heap.read_alloc_old _ _ _ (Nat.ne_of_lt live.1)]
        · change (rows ++ [s.slots.rows.size])[slots.total]?.isSome = true
          rw [sameTotal, free]
          simp
        · simp
          omega
        · rw [free]
          simp
        · simp only [baseRow, vacant]
        · rw [newRows]
          exact Heap.read_alloc_fresh _ _

def taskSample (task : Task) : Hst := ⟨task.pid, task.utime + task.stime, task.comm⟩

def Recorded (old : List Hst) (task : Task) (info : ProcInfo) : Prop :=
  ∃ base perCpuTime, info = { fillRow task base with perCpuTime := perCpuTime } ∧
    Used old (taskSample task) perCpuTime

-- The samples a walk over these processes takes.
def visitSamples (visits : List Visit) : List Hst := (visits.filter Visit.hst).map fun v => taskSample v.task

@[simp] theorem visit_samples_snoc (done : List Visit) (v : Visit) :
    visitSamples (done ++ [v]) = visitSamples done ++ visitSamples [v] := by
  simp [visitSamples]

-- What a visit leaves of the row it found: every field is filled, per_cpu_time only
-- where the sample got its memory.
def Filled (old : List Hst) (v : Visit) (base content : ProcInfo) : Prop :=
  if v.hst then
    ∃ perCpuTime, content = { fillRow v.task base with perCpuTime := perCpuTime } ∧
      Used old (taskSample v.task) perCpuTime
  else content = fillRow v.task base

theorem procs_hlp_meets (hst : Bool) (this : Nat) (s : Globals) (start : Nat) (old new : List Hst) (rows : List Nat)
    (info : ProcInfo) (walked : Walked hash s start old new rows) (next : s.slots.total < rows.length)
    (read : s.slots.rows.read this = some info) :
    Walk.Meets (upkeep rely) (procsHlp hash hst this) s (fun _ after =>
      ∃ later content, Walked hash after start old later rows ∧ after.slots.total = s.slots.total + 1 ∧
        after.slots.rows.read this = some content ∧
        (∀ other, other ≠ this → after.slots.rows.read other = s.slots.rows.read other) ∧
        ((hst = true ∧ later = new ++ [sampleOf info] ∧ ∃ perCpuTime, content = { info with perCpuTime := perCpuTime } ∧
            Used old (sampleOf info) perCpuTime) ∨
          hst = false ∧ later = new ∧ content = info ∧ ∃ at_, rely (.kmalloc .hst false) at_)) := by
  have live := Heap.read_some_live _ _ _ read
  apply Walk.meets_bind
  apply meets_on_slots _ _ s info s.slots
  · simp only [readRow, read]
    rfl
  apply Walk.meets_bind
  apply Walk.meets_modify
  have counted := count_row_owned s.slots rows walked.owned next
  apply Walk.meets_bind
  apply meets_point rely _ rows counted _ (by simp) (by simp)
  intro relied
  cases hst with
  | false =>
      exact Walk.meets_pure _ _ _ _ ⟨new, info, ⟨walked.sampling, counted⟩, rfl, read, fun _ _ => rfl,
        .inr ⟨rfl, rfl, rfl, _, relied⟩⟩
  | true =>
      obtain ⟨perCpuTime, tables, ran, used, sampling⟩ :=
        take_sample_spec hash info s.tables start old new walked.sampling
      apply Walk.meets_bind
      apply meets_on_tables _ _ { s with
        slots := { s.slots with total := s.slots.total + 1 }
        counters := countState info s.counters } perCpuTime tables _ ran
      apply meets_on_slots _ _ _ () { s.slots with
        total := s.slots.total + 1
        rows := s.slots.rows.store this { info with perCpuTime := perCpuTime } }
      · simp only [writeRow, Heap.write_live _ _ _ live]
        rfl
      · exact ⟨_, _, ⟨sampling, store_row_owned _ rows counted this _⟩, rfl, Heap.read_store_here _ _ _ live,
          fun other different => Heap.read_store_elsewhere _ _ _ _ different, .inl ⟨rfl, rfl, perCpuTime, rfl, used⟩⟩

theorem row_of_meets (c : Walk.Contract Fault Point Globals) (row : Nat) (s : Globals) (post : Nat → Globals → Prop)
    (holds : post row s) : Walk.Meets c (rowOf (some row)) s post :=
  Walk.meets_act c _ s s row post rfl holds

theorem record_task_meets (v : Visit) (s : Globals) (start : Nat) (old new : List Hst) (rows : List Nat) (row : Nat)
    (walked : Walked hash s start old new rows) (here : rows[s.slots.total]? = some row)
    (base : ProcInfo) (read : s.slots.rows.read row = some base) :
    Walk.Meets (upkeep rely) (recordTask hash v) s (fun _ after =>
      ∃ content, Walked hash after start old (new ++ visitSamples [v]) rows ∧
        after.slots.total = s.slots.total + 1 ∧ after.slots.rows.read row = some content ∧
        (∀ other, other ≠ row → after.slots.rows.read other = s.slots.rows.read other) ∧
        Filled old v base content ∧ (v.hst = false → ∃ at_, rely (.kmalloc .hst false) at_)) := by
  obtain ⟨next, _⟩ := List.getElem?_eq_some_iff.mp here
  have room : s.slots.total < s.slots.cells.length := Nat.lt_of_lt_of_le next (rows_fit s.slots rows walked.owned)
  have live := (rows_live s.slots rows walked.owned row).mp (List.mem_of_getElem? here)
  apply Walk.meets_bind
  apply read_slot_meets rely s rows walked.owned room
  rw [here]
  apply Walk.meets_bind
  apply row_of_meets
  apply Walk.meets_bind
  apply meets_on_slots _ _ s () { s.slots with rows := s.slots.rows.store row (fillRow v.task base) }
  · simp only [readRow, read, writeRow, except_ok_bind, Heap.write_live _ _ _ live]
  apply Walk.meets_bind
  apply Walk.meets_modify
  have stored := store_row_owned s.slots rows walked.owned row (fillRow v.task base)
  apply Walk.meets_bind
  apply read_slot_meets rely (addCredRef v.task.cred (-1)
    { s with slots := { s.slots with rows := s.slots.rows.store row (fillRow v.task base) } }) rows stored room
  apply Walk.meets_bind
  change Walk.Meets (upkeep rely) (rowOf rows[s.slots.total]?) _ _
  rw [here]
  apply row_of_meets
  apply Walk.meets_mono _ _ _ _ _ (procs_hlp_meets hash rely v.hst row (addCredRef v.task.cred (-1)
    { s with slots := { s.slots with rows := s.slots.rows.store row (fillRow v.task base) } }) start old new rows
    (fillRow v.task base) ⟨walked.sampling, stored⟩ next (Heap.read_store_here _ _ _ live))
  rintro _ after ⟨later, content, keeps, counted, readBack, others, outcome⟩
  have elsewhere : ∀ other, other ≠ row → after.slots.rows.read other = s.slots.rows.read other :=
    fun other different => (others other different).trans (Heap.read_store_elsewhere _ _ _ _ different)
  rcases outcome with ⟨taken, rfl, perCpuTime, filled, used⟩ | ⟨failed, rfl, filled, relied⟩
  · have samples : visitSamples [v] = [sampleOf (fillRow v.task base)] := by simp [visitSamples, taken]; rfl
    rw [samples]
    refine ⟨content, keeps, counted, readBack, elsewhere, ?_, fun failed => ?_⟩
    · rw [Filled, if_pos taken]
      exact ⟨perCpuTime, filled, used⟩
    · rw [taken] at failed
      cases failed
  · have samples : visitSamples [v] = [] := by simp [visitSamples, failed]
    rw [samples, List.append_nil]
    refine ⟨content, keeps, counted, readBack, elsewhere, ?_, fun _ => relied⟩
    rw [Filled, if_neg (by simp [failed])]
    exact filled

-- What a visit that puts its process in the next slot does to the rows: one more
-- slot is in use, a new row if there was none, and only that slot's row is written.
structure Advanced (s : Globals) (rows : List Nat) (after : Globals) (placed : List Nat) : Prop where
  counted : after.slots.total = s.slots.total + 1
  length : placed.length = max rows.length (s.slots.total + 1)
  kept : ∀ i, i < rows.length → placed[i]? = rows[i]?
  reads : ∀ i row, i ≠ s.slots.total → rows[i]? = some row → after.slots.rows.read row = s.slots.rows.read row

-- One pass of the loop body, for a walk that can rely on its growth steps. Either the
-- process is put in the next slot, sampled if there was memory for that, or some
-- kmalloc of the array or its row failed.
theorem visit_task_meets (v : Visit) (s : Globals) (start : Nat) (old new : List Hst) (rows : List Nat)
    (walked : Walked hash s start old new rows)
    (grows : ∀ at_ : Globals, at_.slots = s.slots → at_.slots.nAlloc = at_.slots.total →
      rely (.kmalloc .array (granted v.array (nextAlloc at_.slots.nAlloc))) at_ → rely .grown (refused at_) →
      granted v.array (nextAlloc at_.slots.nAlloc) = true) :
    Walk.Meets (upkeep rely) (visitTask hash v) s (fun _ after =>
      ∃ later placed, Walked hash after start old later placed ∧ after.slots.total ≤ s.slots.total + 1 ∧
        ((Advanced s rows after placed ∧ later = new ++ visitSamples [v] ∧
            (v.hst = false → ∃ at_, rely (.kmalloc .hst false) at_) ∧
            ∃ row base content, placed[s.slots.total]? = some row ∧
              baseRow rows s.slots.rows s.slots.total v.row = some base ∧
              after.slots.rows.read row = some content ∧ Filled old v base content) ∨
          ∃ what at_, what ≠ .hst ∧ rely (.kmalloc what false) at_)) := by
  apply Walk.meets_bind
  apply meets_point rely s rows walked.owned .visit (by simp) (by simp)
  intro _
  apply Walk.meets_bind
  apply Walk.meets_modify
  apply Walk.meets_bind
  apply Walk.meets_mono _ _ _ _ _ (make_room_meets rely v.array (addCredRef v.task.cred 1 s) rows
    walked.owned (grows _ rfl))
  rintro _ roomy ⟨rfl, sameTables, owned, sameRows, sameTotal, room⟩
  rw [if_pos rfl]
  apply Walk.meets_bind
  apply Walk.meets_mono _ _ _ _ _ (place_row_meets rely v.row roomy rows owned (by rw [sameTotal]; exact room))
  rintro placed ready ⟨later, stillTables, keeps, readyTotal, prefix_, reads, outcome⟩
  have total : ready.slots.total = s.slots.total := readyTotal.trans sameTotal
  have tables : ready.tables = s.tables := stillTables.trans sameTables
  have sampling : Sampling hash ready.tables start old new := by
    rw [tables]
    exact walked.sampling
  rcases outcome with ⟨rfl, length, row, base, here, found, read⟩ | ⟨rfl, rfl, at_, failed⟩
  · rw [sameTotal] at length here found
    rw [sameRows] at found
    change later.length = max rows.length (s.slots.total + 1) at length
    change later[s.slots.total]? = some row at here
    have inside : s.slots.total < later.length := by omega
    rw [if_pos rfl]
    apply Walk.meets_mono _ _ _ _ _ (record_task_meets hash rely v ready start old new later row
      ⟨sampling, keeps⟩ (by rw [total]; exact here) base read)
    rintro _ after ⟨content, finished, counted, readBack, others, filled, sampled⟩
    rw [total] at counted
    refine ⟨_, later, finished, by omega, .inl ⟨⟨counted, length, prefix_, ?_⟩, rfl, sampled, row, base, content, here,
      found, readBack, filled⟩⟩
    intro i other elsewhere access
    have bound : i < rows.length := (List.getElem?_eq_some_iff.mp access).1
    have stillThere : later[i]? = some other := (prefix_ i bound).trans access
    have different : other ≠ row := by
      intro same
      have both : later[i]? = later[s.slots.total]? := by rw [stillThere, same, here]
      exact elsewhere ((List.getElem?_inj (by omega) (rows_distinct _ later keeps)).mp both)
    rw [others other different, reads other (List.mem_of_getElem? access)]
    exact congrArg (fun h => h.read other) sameRows
  · rw [if_neg (by simp)]
    exact Walk.meets_pure _ _ _ _
      ⟨new, _, ⟨sampling, keeps⟩, Nat.le_succ_of_le (Nat.le_of_eq total), .inr ⟨.row, at_, by decide, failed⟩⟩

-- A walk that has recorded every process of `done`: the i-th of them in slot i, its
-- sample the i-th of this call, and no more new rows than the slots ran short of.
structure Complete (old : List Hst) (before : List Nat) (done : List Visit) (new : List Hst) (rows : List Nat)
    (s : Globals) : Prop where
  samples : new = done.map (fun v : Visit => taskSample v.task)
  total : s.slots.total = done.length
  length : rows.length = max before.length done.length
  reused : ∀ i, i < before.length → rows[i]? = before[i]?
  recorded : ∀ (i : Nat) (v : Visit), done[i]? = some v → ∃ row content, rows[i]? = some row ∧
    s.slots.rows.read row = some content ∧ Recorded old v.task content

-- A walk that has put every process of `done` in its slot: what it found there, and
-- what it left. heap holds the rows as they were before the walk.
structure Placed (old : List Hst) (heap : Heap ProcInfo) (before : List Nat) (done : List Visit) (new : List Hst)
    (rows : List Nat) (s : Globals) : Prop where
  samples : new = visitSamples done
  total : s.slots.total = done.length
  length : rows.length = max before.length done.length
  reused : ∀ i, i < before.length → rows[i]? = before[i]?
  untouched : ∀ i row, done.length ≤ i → before[i]? = some row → s.slots.rows.read row = heap.read row
  filled : ∀ (i : Nat) (v : Visit), done[i]? = some v → ∃ row base content, rows[i]? = some row ∧
    baseRow before heap i v.row = some base ∧ s.slots.rows.read row = some content ∧ Filled old v base content

theorem placed_visit (old : List Hst) (heap : Heap ProcInfo) (before : List Nat) (done : List Visit) (v : Visit)
    (new : List Hst) (rows placed : List Nat) (s after : Globals) (sofar : Placed old heap before done new rows s)
    (step : Advanced s rows after placed) (row : Nat) (base content : ProcInfo)
    (here : placed[s.slots.total]? = some row) (found : baseRow rows s.slots.rows s.slots.total v.row = some base)
    (readBack : after.slots.rows.read row = some content) (filled : Filled old v base content) :
    Placed old heap before (done ++ [v]) (new ++ visitSamples [v]) placed after := by
  have total := sofar.total
  have rowsLength := sofar.length
  have length := step.length
  refine ⟨by simp [sofar.samples], by simp [step.counted, total], ?_, fun i below => ?_, fun i other above access => ?_,
    fun i w access => ?_⟩
  · simp only [List.length_append, List.length_cons, List.length_nil]
    omega
  · exact (step.kept i (by omega)).trans (sofar.reused i below)
  · simp only [List.length_append, List.length_cons, List.length_nil] at above
    have bound : i < before.length := (List.getElem?_eq_some_iff.mp access).1
    rw [step.reads i other (by omega) ((sofar.reused i bound).trans access)]
    exact sofar.untouched i other (by omega) access
  · by_cases earlier : i < done.length
    · rw [List.getElem?_append_left earlier] at access
      obtain ⟨oldRow, oldBase, oldContent, slot, oldFound, oldRead, oldFilled⟩ := sofar.filled i w access
      refine ⟨oldRow, oldBase, oldContent, (step.kept i (by omega)).trans slot, oldFound, ?_, oldFilled⟩
      rw [step.reads i oldRow (by omega) slot, oldRead]
    · rw [List.getElem?_append_right (by omega)] at access
      obtain ⟨inside, same⟩ := List.getElem?_eq_some_iff.mp access
      have last : i = done.length := by
        simp only [List.length_cons, List.length_nil] at inside
        omega
      obtain rfl : v = w := by simpa [last] using same
      have slotBefore : baseRow before heap done.length v.row = some base := by
        rw [total] at found
        by_cases reused : done.length < before.length
        · have access := List.getElem?_eq_getElem reused
          simp only [baseRow, (sofar.reused _ reused).trans access] at found
          simp only [baseRow, access]
          rw [← sofar.untouched _ _ (Nat.le_refl _) access, found]
        · have vacant : rows[done.length]? = none := List.getElem?_eq_none (by omega)
          have vacantBefore : before[done.length]? = none := List.getElem?_eq_none (by omega)
          simp only [baseRow, vacant] at found
          simp only [baseRow, vacantBefore, found]
      rw [last]
      exact ⟨row, base, content, total ▸ here, slotBefore, readBack, filled⟩

theorem complete_of_placed (old : List Hst) (heap : Heap ProcInfo) (before : List Nat) (done : List Visit)
    (new : List Hst) (rows : List Nat) (s : Globals) (placed : Placed old heap before done new rows s)
    (served : ∀ v ∈ done, v.hst = true) : Complete old before done new rows s := by
  refine ⟨?_, placed.total, placed.length, placed.reused, fun i v access => ?_⟩
  · rw [placed.samples, visitSamples, List.filter_eq_self.mpr served]
  · obtain ⟨row, base, content, slot, _, read, filled⟩ := placed.filled i v access
    rw [Filled, if_pos (served v (List.mem_of_getElem? access))] at filled
    exact ⟨row, content, slot, read, base, filled⟩

theorem procs_hlp_null_meets (uptimeCur : Timespec) (s : Globals) (start : Nat) (old new : List Hst) (rows : List Nat)
    (walked : Walked hash s start old new rows) :
    Walk.Meets (upkeep rely) (procsHlpNull hash uptimeCur) s (fun _ after =>
      Walked hash after (start + old.length) new [] rows ∧ after.slots.total = 0 ∧ after.slots.rows = s.slots.rows) := by
  obtain ⟨tables, rotated, sampling⟩ := rotate_spec hash s.tables start old new walked.sampling
  apply Walk.meets_bind
  apply Walk.meets_modify
  refine meets_on_tables _ _ _ () tables _ ?_ ⟨⟨sampling, reset_total_owned s.slots rows walked.owned⟩, rfl, rfl⟩
  rw [rotated, except_ok_map]

theorem procs_refresh_places (r : Refresh) (s : Globals) (start : Nat) (old new : List Hst) (rows : List Nat)
    (walked : Walked hash s start old new rows) (grows : Grows rely r.visits) :
    Walk.Meets (upkeep rely) (procsRefresh hash r) s (fun _ after =>
      ∃ later placed, Walked hash after (start + old.length) new later placed ∧
        ((Placed new s.slots.rows rows r.visits later placed after ∧
            ∀ v ∈ r.visits, v.hst = false → ∃ at_, rely (.kmalloc .hst false) at_) ∨
          ∃ what at_, what ≠ .hst ∧ rely (.kmalloc what false) at_)) := by
  apply Walk.meets_bind
  apply Walk.meets_mono _ _ _ _ _ (procs_hlp_null_meets hash rely r.uptimeCur s start old new rows walked)
  rintro _ ready ⟨rotated, none_yet, sameRows⟩
  apply Walk.meets_bind
  have loop := Walk.meets_for_each (upkeep rely) r.visits (visitTask hash)
    (fun done at_ => ∃ later placed, Walked hash at_ (start + old.length) new later placed ∧
      at_.slots.total ≤ done.length ∧
      ((Placed new s.slots.rows rows done later placed at_ ∧
          ∀ v ∈ done, v.hst = false → ∃ at_, rely (.kmalloc .hst false) at_) ∨
        ∃ what at_, what ≠ .hst ∧ rely (.kmalloc what false) at_)) ready
    ⟨[], rows, rotated, by simp [none_yet],
      .inl ⟨⟨rfl, none_yet, by simp, fun _ _ => rfl, fun _ _ _ _ => by rw [sameRows], by simp⟩, by simp⟩⟩ (by
      rintro done v rest at_ split ⟨later, placed, sofar, bound, progress⟩
      have lengths := congrArg List.length split
      simp only [List.length_append, List.length_cons] at lengths
      have growth : ∀ here : Globals, here.slots = at_.slots → here.slots.nAlloc = here.slots.total →
          rely (.kmalloc .array (granted v.array (nextAlloc here.slots.nAlloc))) here → rely .grown (refused here) →
          granted v.array (nextAlloc here.slots.nAlloc) = true :=
        fun here same full => grows v (by simp [split]) here (by rw [same]; omega) full
          (by rw [same]; exact sofar.owned.limit)
      apply Walk.meets_mono _ _ _ _ _ (visit_task_meets hash rely v at_ _ new later placed sofar growth)
      rintro _ after ⟨laterNew, placedNew, kept, step, outcome⟩
      refine ⟨laterNew, placedNew, kept, by simp; omega, ?_⟩
      rcases outcome with ⟨advanced, rfl, sampled, row, base, content, here, found, readBack, filled⟩ | failed
      · rcases progress with ⟨allPlaced, allSampled⟩ | failed
        · refine .inl ⟨placed_visit new s.slots.rows rows done v later placed placedNew at_ after allPlaced advanced row
            base content here found readBack filled, fun w member => ?_⟩
          rcases List.mem_append.mp member with earlier | last
          · exact allSampled w earlier
          · rw [List.mem_singleton.mp last]
            exact sampled
        · exact .inr failed
      · exact .inr failed)
  apply Walk.meets_mono _ _ _ _ _ loop
  rintro _ after ⟨later, placed, kept, _, progress⟩
  exact meets_point rely after placed kept.owned .refreshed (by simp) (by simp) _ (fun _ => ⟨later, placed, kept, progress⟩)

theorem procs_refresh_meets (r : Refresh) (s : Globals) (start : Nat) (old new : List Hst) (rows : List Nat)
    (walked : Walked hash s start old new rows) (grows : Grows rely r.visits) :
    Walk.Meets (upkeep rely) (procsRefresh hash r) s (fun _ after =>
      ∃ later placed, Walked hash after (start + old.length) new later placed ∧
        (Complete new rows r.visits later placed after ∨ ∃ what at_, rely (.kmalloc what false) at_)) := by
  apply Walk.meets_mono _ _ _ _ _ (procs_refresh_places hash rely r s start old new rows walked grows)
  rintro _ after ⟨later, placed, kept, outcome⟩
  refine ⟨later, placed, kept, ?_⟩
  rcases outcome with ⟨allPlaced, sampled⟩ | ⟨what, at_, _, failed⟩
  · by_cases served : ∀ v ∈ r.visits, v.hst = true
    · exact .inl (complete_of_placed _ _ _ _ _ _ _ allPlaced served)
    · obtain ⟨v, member, unserved⟩ : ∃ v ∈ r.visits, v.hst = false := by simpa using served
      obtain ⟨at_, failed⟩ := sampled v member unserved
      exact .inr ⟨.hst, at_, failed⟩
  · exact .inr ⟨what, at_, failed⟩

end Contracts

end LinuxModule.SteTop
