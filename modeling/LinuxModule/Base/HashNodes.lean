import LinuxModule.Base.Heap
import LinuxModule.Base.Buckets
import Mathlib.Data.List.Range

set_option autoImplicit false

namespace LinuxModule

-- Nodes of a hash table whose memory was handed out in one piece: the items, in
-- the order they were allocated from `start` on, each in the bucket of its key.
structure HashNodes {α κ : Type} {n : Nat} (hash : κ → Fin n) (key : α → κ) (heap : Heap α) (table : Buckets n)
    (start : Nat) (items : List α) : Prop where
  nodes : table.entries.Perm (List.range' start items.length)
  stored : ∀ i item, items[i]? = some item → heap.read (start + i) = some item
  placed : ∀ i item, items[i]? = some item → start + i ∈ table (hash (key item))

namespace HashNodes

variable {α κ ρ φ σ : Type} {n : Nat}

theorem nothing (hash : κ → Fin n) (key : α → κ) (heap : Heap α) (start : Nat) :
    HashNodes hash key heap Buckets.empty start [] :=
  ⟨by simp, by simp, by simp⟩

theorem distinct (hash : κ → Fin n) (key : α → κ) (heap : Heap α) (table : Buckets n) (start : Nat) (items : List α)
    (holds : HashNodes hash key heap table start items) : table.entries.Nodup :=
  holds.nodes.nodup_iff.mpr List.nodup_range'

theorem mem_iff (hash : κ → Fin n) (key : α → κ) (heap : Heap α) (table : Buckets n) (start : Nat) (items : List α)
    (holds : HashNodes hash key heap table start items) (p : Nat) :
    p ∈ table.entries ↔ start ≤ p ∧ p < start + items.length := by
  rw [holds.nodes.mem_iff, List.mem_range'_1]

theorem entry (hash : κ → Fin n) (key : α → κ) (heap : Heap α) (table : Buckets n) (start : Nat) (items : List α)
    (holds : HashNodes hash key heap table start items) (p : Nat) (member : p ∈ table.entries) :
    ∃ i item, items[i]? = some item ∧ p = start + i ∧ heap.read p = some item ∧ p ∈ table (hash (key item)) := by
  obtain ⟨above, below⟩ := (mem_iff hash key heap table start items holds p).mp member
  obtain ⟨i, rfl⟩ := Nat.exists_eq_add_of_le above
  have bound : i < items.length := by omega
  have access := List.getElem?_eq_getElem bound
  exact ⟨i, items[i], access, rfl, holds.stored i _ access, holds.placed i _ access⟩

theorem read (hash : κ → Fin n) (key : α → κ) (heap : Heap α) (table : Buckets n) (start : Nat) (items : List α)
    (holds : HashNodes hash key heap table start items) (p : Nat) (member : p ∈ table.entries) :
    ∃ item ∈ items, heap.read p = some item := by
  obtain ⟨i, item, access, _, stored, _⟩ := entry hash key heap table start items holds p member
  exact ⟨item, List.mem_of_getElem? access, stored⟩

theorem live (hash : κ → Fin n) (key : α → κ) (heap : Heap α) (table : Buckets n) (start : Nat) (items : List α)
    (holds : HashNodes hash key heap table start items) (p : Nat) (member : p ∈ table.entries) : heap.Live p := by
  obtain ⟨item, _, stored⟩ := read hash key heap table start items holds p member
  exact Heap.read_some_live heap p item stored

theorem bucket_iff (hash : κ → Fin n) (key : α → κ) (heap : Heap α) (table : Buckets n) (start : Nat) (items : List α)
    (holds : HashNodes hash key heap table start items) (p : Nat) (item : α) (access : heap.read p = some item)
    (member : p ∈ table.entries) (b : Fin n) : p ∈ table b ↔ b = hash (key item) := by
  obtain ⟨_, other, _, _, stored, placed⟩ := entry hash key heap table start items holds p member
  obtain rfl : other = item := Option.some.inj (stored.symm.trans access)
  constructor
  · exact fun inB => Buckets.bucket_unique table (distinct hash key heap table start items holds) p b _ inB placed
  · rintro rfl
    exact placed

theorem vacant (hash : κ → Fin n) (key : α → κ) (heap : Heap α) (table : Buckets n) (start : Nat)
    (holds : HashNodes hash key heap table start []) : table = Buckets.empty := by
  have none_ : table.entries = [] := holds.nodes.eq_nil
  funext b
  apply List.eq_nil_iff_forall_not_mem.mpr
  intro p member
  have inside := (Buckets.mem_entries table p).mpr ⟨b, member⟩
  rw [none_] at inside
  exact List.not_mem_nil inside

theorem contents (hash : κ → Fin n) (key : α → κ) (heap : Heap α) (table : Buckets n) (start : Nat) (items : List α)
    (holds : HashNodes hash key heap table start items) : (table.entries.map heap.read).Perm (items.map some) := by
  have stored : (List.range' start items.length).map heap.read = items.map some := by
    apply List.ext_getElem (by simp)
    intro i inside _
    have bound : i < items.length := by simpa using inside
    simpa using holds.stored i items[i] (List.getElem?_eq_getElem bound)
  rw [← stored]
  exact holds.nodes.map heap.read

theorem reads (hash : κ → Fin n) (key : α → κ) (heap : Heap α) (table : Buckets n) (start : Nat) (items : List α)
    (holds : HashNodes hash key heap table start items) : (table.entries.filterMap heap.read).Perm items := by
  have found := (contents hash key heap table start items holds).filterMap id
  simpa [List.filterMap_map] using found

theorem transfer (hash : κ → Fin n) (key : α → κ) (heap next : Heap α) (table : Buckets n) (start : Nat)
    (items : List α) (holds : HashNodes hash key heap table start items)
    (kept : ∀ p ∈ table.entries, next.read p = heap.read p) : HashNodes hash key next table start items := by
  refine ⟨holds.nodes, fun i item access => ?_, holds.placed⟩
  rw [kept _ ((Buckets.mem_entries _ _).mpr ⟨_, holds.placed i item access⟩)]
  exact holds.stored i item access

theorem freed_below (hash : κ → Fin n) (key : α → κ) (heap next : Heap α) (table : Buckets n) (start : Nat)
    (items : List α) (holds : HashNodes hash key heap table start items) (gone : ∀ p, p < start → p ∈ heap.freed)
    (freed : ∀ p, p ∈ next.freed ↔ p ∈ heap.freed ∨ p ∈ table.entries) (p : Nat) (below : p < start + items.length) :
    p ∈ next.freed := by
  rw [freed, mem_iff hash key heap table start items holds]
  by_cases early : p < start
  · exact .inl (gone p early)
  · exact .inr ⟨by omega, below⟩

theorem push (hash : κ → Fin n) (key : α → κ) (heap : Heap α) (table : Buckets n) (start : Nat) (items : List α)
    (holds : HashNodes hash key heap table start items) (top : heap.size = start + items.length) (item : α) :
    HashNodes hash key (heap.alloc item) (table.insert (hash (key item)) heap.size) start (items ++ [item]) := by
  have split : ∀ i other, (items ++ [item])[i]? = some other →
      items[i]? = some other ∨ (start + i = heap.size ∧ other = item) := by
    intro i other access
    by_cases bound : i < items.length
    · exact .inl (by rwa [List.getElem?_append_left bound] at access)
    · right
      rw [List.getElem?_append_right (by omega)] at access
      obtain ⟨inside, same⟩ := List.getElem?_eq_some_iff.mp access
      have here : i - items.length = 0 := by simpa using inside
      exact ⟨by omega, by simpa [here] using same.symm⟩
  refine ⟨?_, ?_, ?_⟩
  · calc (table.insert (hash (key item)) heap.size).entries.Perm (heap.size :: table.entries) :=
          Buckets.entries_insert _ _ _
      List.Perm _ (heap.size :: List.range' start items.length) := holds.nodes.cons _
      List.Perm _ (List.range' start items.length ++ [heap.size]) := (List.perm_append_singleton _ _).symm
      _ = List.range' start (items ++ [item]).length := by simp [top, List.range'_concat]
  · intro i other access
    rcases split i other access with before | ⟨here, rfl⟩
    · exact Heap.read_alloc_some _ _ _ _ (holds.stored i other before)
    · rw [here]
      exact Heap.read_alloc_fresh heap other
  · intro i other access
    rcases split i other access with before | ⟨here, rfl⟩
    · simp only [Buckets.insert]
      split
      · exact List.mem_cons_of_mem _ (holds.placed i other before)
      · exact holds.placed i other before
    · simp [Buckets.insert, here]

-- Rule for a loop that unlinks and frees every node it visits. The body may count
-- on the memory of everything that was not yet visited.
theorem free_rule (table : σ → Buckets n) (heap : σ → Heap α) (body : Nat → σ → Except φ σ)
    (inv : List Nat → σ → Prop) (s : σ) (distinct : (table s).entries.Nodup)
    (live : ∀ p ∈ (table s).entries, (heap s).Live p)
    (step : ∀ done p now, p ∈ (table s).entries → p ∉ done → (∀ q ∈ done, q ∈ (table s).entries) →
      (∀ q, q ∉ done → (heap now).read q = (heap s).read q) → inv done now → ∀ alive : (heap now).Live p,
      ∃ next, body p now = .ok next ∧ table next = (table now).remove p ∧ heap next = (heap now).release p alive ∧
        inv (done ++ [p]) next)
    (holds : inv [] s) :
    ∃ next, Buckets.forEachSafe table body s = .ok next ∧ table next = Buckets.empty ∧
      (heap next).size = (heap s).size ∧
      (∀ p, p ∈ (heap next).freed ↔ p ∈ (heap s).freed ∨ p ∈ (table s).entries) ∧
      (∀ p, p ∉ (table s).entries → (heap next).read p = (heap s).read p) ∧ inv (table s).entries next := by
  have kept : ∀ (done : List Nat) (now : Heap α), now.cells = (heap s).cells →
      (∀ p, p ∈ now.freed ↔ p ∈ (heap s).freed ∨ p ∈ done) → ∀ q, q ∉ done → now.read q = (heap s).read q := by
    intro done now sameCells freed q unseen
    have same : now.Live q ↔ (heap s).Live q := by
      simp only [Heap.Live, Heap.size, sameCells, freed, unseen, or_false]
    simp only [Heap.read, same, sameCells]
  obtain ⟨next, ran, emptied, -, sameCells, freed, held⟩ := Buckets.for_each_safe_rule table body (table s)
    (fun done now => (∀ q ∈ done, q ∈ (table s).entries) ∧ (heap now).cells = (heap s).cells ∧
      (∀ p, p ∈ (heap now).freed ↔ p ∈ (heap s).freed ∨ p ∈ done) ∧ inv done now) distinct
    (by
      rintro done p now member unseen - ⟨within, sameCells, freed, held⟩
      have alive : (heap now).Live p := by
        refine ⟨by simpa only [Heap.size, sameCells] using (live p member).1, fun gone => ?_⟩
        exact ((freed p).mp gone).elim (live p member).2 unseen
      obtain ⟨next, ran, removed, released, after⟩ :=
        step done p now member unseen within (kept done (heap now) sameCells freed) held alive
      refine ⟨next, ran, removed, ?_, by rw [released]; exact sameCells, fun q => ?_, after⟩
      · intro q seen
        rcases List.mem_append.mp seen with before | here
        · exact within q before
        · exact List.mem_singleton.mp here ▸ member
      · rw [released, Heap.freed_release, List.mem_cons, freed, List.mem_append, List.mem_singleton, or_comm, or_assoc])
    s rfl ⟨by simp, rfl, by simp, holds⟩
  exact ⟨next, ran, emptied, by simp only [Heap.size, sameCells], freed, kept _ _ sameCells freed, held⟩

-- Rule for a loop that moves every node of one table into the other, which is empty.
theorem move_rule (hash : κ → Fin n) (key : α → κ) (source target : σ → Buckets n) (heap : σ → Heap α) (other : σ → ρ)
    (body : Nat → σ → Except φ σ) (s : σ) (start : Nat) (items : List α)
    (linked : HashNodes hash key (heap s) (source s) start items) (vacant : target s = Buckets.empty)
    (step : ∀ p now item, (heap now).read p = some item →
      ∃ next, body p now = .ok next ∧ source next = (source now).remove p ∧
        target next = (target now).insert (hash (key item)) p ∧ heap next = heap now ∧ other next = other now) :
    ∃ next, Buckets.forEachSafe source body s = .ok next ∧ source next = Buckets.empty ∧
      HashNodes hash key (heap s) (target next) start items ∧ heap next = heap s ∧ other next = other s := by
  obtain ⟨next, ran, emptied, moved, placed, sameHeap, sameOther⟩ := Buckets.for_each_safe_rule source body (source s)
    (fun done now => (target now).entries.Perm done ∧
      (∀ p ∈ done, ∀ item, (heap s).read p = some item → p ∈ target now (hash (key item))) ∧
      heap now = heap s ∧ other now = other s) (distinct hash key _ _ start items linked)
    (by
      rintro done p now member - - ⟨moved, placed, sameHeap, sameOther⟩
      obtain ⟨item, _, access⟩ := read hash key _ _ start items linked p member
      obtain ⟨next, ran, removed, inserted, heapNext, otherNext⟩ := step p now item (by rw [sameHeap, access])
      refine ⟨next, ran, removed, ?_, ?_, heapNext.trans sameHeap, otherNext.trans sameOther⟩
      · rw [inserted]
        calc ((target now).insert (hash (key item)) p).entries.Perm (p :: (target now).entries) :=
              Buckets.entries_insert _ _ _
          List.Perm _ (p :: done) := moved.cons p
          List.Perm _ (done ++ [p]) := (List.perm_append_singleton p done).symm
      · intro q seen found accessQ
        rw [inserted]
        rcases List.mem_append.mp seen with before | here
        · have there := placed q before found accessQ
          simp only [Buckets.insert]
          split
          · exact List.mem_cons_of_mem _ there
          · exact there
        · obtain rfl : q = p := by simpa using here
          obtain rfl : item = found := Option.some.inj (access.symm.trans accessQ)
          simp [Buckets.insert])
    s rfl ⟨by simp [vacant], by simp, rfl, rfl⟩
  refine ⟨next, ran, emptied, ⟨moved.trans linked.nodes, linked.stored, ?_⟩, sameHeap, sameOther⟩
  intro i item access
  exact placed _ ((Buckets.mem_entries _ _).mpr ⟨_, linked.placed i item access⟩) item (linked.stored i item access)

end HashNodes
end LinuxModule
