import Mathlib.Data.List.Basic
import Mathlib.Data.List.Nodup
import Mathlib.Data.List.Count

set_option autoImplicit false

namespace LinuxModule

-- Memory of one kind of object. An object's address is its allocation number, so
-- addresses are never reused and the log of frees says what happened to each one.
-- The two fields rule out a double free and the free of an address never handed out.
structure Heap (α : Type) where
  cells : List α
  freed : List Nat
  once : freed.Nodup
  allocated : ∀ p ∈ freed, p < cells.length

namespace Heap

variable {α : Type}

def empty : Heap α := ⟨[], [], List.nodup_nil, by simp⟩

def size (h : Heap α) : Nat := h.cells.length

def Live (h : Heap α) (p : Nat) : Prop := p < h.size ∧ p ∉ h.freed

instance (h : Heap α) (p : Nat) : Decidable (h.Live p) := inferInstanceAs (Decidable (_ ∧ _))

def alloc (h : Heap α) (content : α) : Heap α :=
  ⟨h.cells ++ [content], h.freed, h.once, fun p member => by
    simpa using Nat.lt_succ_of_lt (h.allocated p member)⟩

def read (h : Heap α) (p : Nat) : Option α := if h.Live p then h.cells[p]? else none

def store (h : Heap α) (p : Nat) (content : α) : Heap α :=
  ⟨h.cells.set p content, h.freed, h.once, fun q member => by simpa using h.allocated q member⟩

def write (h : Heap α) (p : Nat) (content : α) : Option (Heap α) :=
  if h.Live p then some (h.store p content) else none

def release (h : Heap α) (p : Nat) (live : h.Live p) : Heap α :=
  ⟨h.cells, p :: h.freed, List.nodup_cons.mpr ⟨live.2, h.once⟩, fun q member => by
    rcases List.mem_cons.mp member with same | before
    · exact same ▸ live.1
    · exact h.allocated q before⟩

def free (h : Heap α) (p : Nat) : Option (Heap α) :=
  if live : h.Live p then some (h.release p live) else none

theorem read_some_live (h : Heap α) (p : Nat) (content : α) (read : h.read p = some content) : h.Live p := by
  by_contra dead
  simp [Heap.read, dead] at read

theorem live_read (h : Heap α) (p : Nat) (live : h.Live p) : ∃ content, h.read p = some content := by
  have bound : p < h.cells.length := live.1
  exact ⟨h.cells[p], by simp only [read, if_pos live, List.getElem?_eq_getElem bound]⟩

@[simp] theorem size_alloc (h : Heap α) (content : α) : (h.alloc content).size = h.size + 1 := by
  simp [alloc, size]

@[simp] theorem freed_alloc (h : Heap α) (content : α) : (h.alloc content).freed = h.freed := rfl

theorem live_alloc (h : Heap α) (content : α) (p : Nat) :
    (h.alloc content).Live p ↔ h.Live p ∨ p = h.size := by
  have fresh : h.size ∉ h.freed := fun member => Nat.lt_irrefl _ (h.allocated _ member)
  simp only [Live, size_alloc, freed_alloc]
  constructor
  · rintro ⟨bound, kept⟩
    rcases Nat.lt_succ_iff_lt_or_eq.mp bound with lower | same
    · exact .inl ⟨lower, kept⟩
    · exact .inr same
  · rintro (⟨bound, kept⟩ | same)
    · exact ⟨Nat.lt_succ_of_lt bound, kept⟩
    · exact ⟨by omega, same ▸ fresh⟩

theorem read_alloc_fresh (h : Heap α) (content : α) : (h.alloc content).read h.size = some content := by
  have live : (h.alloc content).Live h.size := (live_alloc h content h.size).mpr (.inr rfl)
  simp only [read, if_pos live]
  simp [alloc, size]

theorem read_alloc_old (h : Heap α) (content : α) (p : Nat) (different : p ≠ h.size) :
    (h.alloc content).read p = h.read p := by
  by_cases live : h.Live p
  · have kept : (h.alloc content).Live p := (live_alloc h content p).mpr (.inl live)
    simp only [read, if_pos live, if_pos kept]
    exact List.getElem?_append_left live.1
  · have dead : ¬ (h.alloc content).Live p := by simp [live_alloc, live, different]
    simp only [read, if_neg live, if_neg dead]

theorem read_alloc_some (h : Heap α) (content old : α) (p : Nat) (before : h.read p = some old) :
    (h.alloc content).read p = some old := by
  have live := read_some_live h p old before
  rw [read_alloc_old h content p (Nat.ne_of_lt live.1), before]

@[simp] theorem size_store (h : Heap α) (p : Nat) (content : α) : (h.store p content).size = h.size := by
  simp [store, size]

@[simp] theorem freed_store (h : Heap α) (p : Nat) (content : α) : (h.store p content).freed = h.freed := rfl

@[simp] theorem live_store (h : Heap α) (p q : Nat) (content : α) : (h.store p content).Live q ↔ h.Live q := by
  simp only [Live, size_store, freed_store]

theorem write_live (h : Heap α) (p : Nat) (content : α) (live : h.Live p) :
    h.write p content = some (h.store p content) := if_pos live

theorem read_store_here (h : Heap α) (p : Nat) (content : α) (live : h.Live p) :
    (h.store p content).read p = some content := by
  have bound : p < h.cells.length := live.1
  simp only [read, live_store, if_pos live]
  simp [store, bound]

theorem read_store_elsewhere (h : Heap α) (p q : Nat) (content : α) (different : q ≠ p) :
    (h.store p content).read q = h.read q := by
  have cell : (h.store p content).cells[q]? = h.cells[q]? := List.getElem?_set_ne (Ne.symm different)
  simp only [read, live_store, cell]

theorem free_live (h : Heap α) (p : Nat) (live : h.Live p) : h.free p = some (h.release p live) := dif_pos live

@[simp] theorem size_release (h : Heap α) (p : Nat) (live : h.Live p) : (h.release p live).size = h.size := rfl

@[simp] theorem freed_release (h : Heap α) (p : Nat) (live : h.Live p) :
    (h.release p live).freed = p :: h.freed := rfl

theorem live_release (h : Heap α) (p q : Nat) (live : h.Live p) :
    (h.release p live).Live q ↔ h.Live q ∧ q ≠ p := by
  simp only [Live, size_release, freed_release, List.mem_cons, not_or]
  exact ⟨fun ⟨bound, different, kept⟩ => ⟨⟨bound, kept⟩, different⟩,
    fun ⟨⟨bound, kept⟩, different⟩ => ⟨bound, different, kept⟩⟩

theorem read_release (h : Heap α) (p q : Nat) (live : h.Live p) (different : q ≠ p) :
    (h.release p live).read q = h.read q := by
  have same : (h.release p live).Live q ↔ h.Live q := by simp [live_release, different]
  simp only [read, same]
  rfl

theorem freed_count (h : Heap α) (p : Nat) (freed : p ∈ h.freed) : h.freed.count p = 1 :=
  List.count_eq_one_of_mem h.once freed

theorem live_not_freed (h : Heap α) (p : Nat) (live : h.Live p) : h.freed.count p = 0 :=
  List.count_eq_zero.mpr live.2

def FreedOnce (h : Heap α) : Prop := ∀ p, p < h.size → h.freed.count p = 1

instance (h : Heap α) : Decidable h.FreedOnce := inferInstanceAs (Decidable (∀ p, p < h.size → _))

theorem freed_once_iff (h : Heap α) : h.FreedOnce ↔ ∀ p, ¬ h.Live p := by
  constructor
  · intro all p live
    have freed := all p live.1
    rw [live_not_freed h p live] at freed
    exact absurd freed (by decide)
  · intro none_live p bound
    by_cases gone : p ∈ h.freed
    · exact freed_count h p gone
    · exact absurd ⟨bound, gone⟩ (none_live p)

end Heap
end LinuxModule
