import LinuxModule.Base.Heap
import Mathlib.Data.List.Perm.Basic
import Mathlib.Data.List.Range

set_option autoImplicit false

namespace LinuxModule

-- Records that are recycled and never given back to the heap. The unused ones hang
-- on a list that runs through a field of their own, most recently returned first.
def Chain {α : Type} (next : α → Option Nat) (heap : Heap α) : Option Nat → List Nat → Prop
  | head, [] => head = none
  | head, p :: rest => head = some p ∧ ∃ record, heap.read p = some record ∧ Chain next heap (next record) rest

structure Pool {α : Type} (next : α → Option Nat) (heap : Heap α) (head : Option Nat) (free used : List Nat) : Prop where
  chain : Chain next heap head free
  all : (free ++ used).Perm (List.range heap.size)
  kept : heap.freed = []

variable {α : Type} (next : α → Option Nat)

theorem chain_frame (heap other : Heap α) (head : Option Nat) (free : List Nat)
    (same : ∀ p ∈ free, other.read p = heap.read p) (chain : Chain next heap head free) : Chain next other head free := by
  induction free generalizing head with
  | nil => exact chain
  | cons p rest ih =>
      obtain ⟨here, later⟩ := List.forall_mem_cons.mp same
      obtain ⟨first, record, read, tail⟩ := chain
      exact ⟨first, record, here.trans read, ih (next record) later tail⟩

namespace Pool

variable (heap : Heap α) (head : Option Nat) (free used : List Nat)

theorem empty : Pool next Heap.empty none [] [] := ⟨rfl, .nil, rfl⟩

theorem distinct (pool : Pool next heap head free used) : (free ++ used).Nodup :=
  pool.all.nodup_iff.mpr List.nodup_range

theorem apart (pool : Pool next heap head free used) (p : Nat) (inUse : p ∈ used) : p ∉ free := fun unused =>
  List.disjoint_of_nodup_append (distinct next heap head free used pool) unused inUse

theorem live (pool : Pool next heap head free used) (p : Nat) (member : p ∈ free ++ used) : heap.Live p := by
  have bound : p < heap.size := List.mem_range.mp (pool.all.mem_iff.mp member)
  refine ⟨bound, ?_⟩
  rw [pool.kept]
  exact List.not_mem_nil

theorem count (pool : Pool next heap head free used) : free.length + used.length = heap.size := by
  rw [← List.length_append, pool.all.length_eq, List.length_range]

theorem reorder (other : List Nat) (pool : Pool next heap head free used) (same : other.Perm used) :
    Pool next heap head free other :=
  ⟨pool.chain, (List.Perm.append_left free same).trans pool.all, pool.kept⟩

theorem none_free (pool : Pool next heap none free used) : free = [] := by
  cases free with
  | nil => rfl
  | cons p rest => cases pool.chain.1

-- The most recently returned record is handed out, as it was left.
theorem pop (p : Nat) (pool : Pool next heap (some p) free used) :
    ∃ record rest, free = p :: rest ∧ heap.read p = some record ∧ Pool next heap (next record) rest (p :: used) := by
  cases free with
  | nil => cases pool.chain
  | cons q rest =>
      obtain ⟨first, record, read, tail⟩ := pool.chain
      obtain rfl := Option.some.inj first
      exact ⟨record, rest, rfl, read, tail, List.perm_middle.trans pool.all, pool.kept⟩

theorem grow (record : α) (pool : Pool next heap none [] used) :
    Pool next (heap.alloc record) none [] (heap.size :: used) := by
  refine ⟨rfl, ?_, pool.kept⟩
  rw [Heap.size_alloc, List.range_succ]
  exact (List.Perm.cons heap.size pool.all).trans (List.perm_append_singleton _ _).symm

theorem store (p : Nat) (record : α) (pool : Pool next heap head free used) (inUse : p ∈ used) :
    Pool next (heap.store p record) head free used := by
  refine ⟨chain_frame next heap _ head free (fun q unused => ?_) pool.chain, ?_, pool.kept⟩
  · exact Heap.read_store_elsewhere heap p q record fun same => apart next heap head free used pool p inUse (same ▸ unused)
  · rw [Heap.size_store]
    exact pool.all

theorem push (p : Nat) (record : α) (pool : Pool next heap head free (p :: used)) (linked : next record = head) :
    Pool next (heap.store p record) (some p) (p :: free) used := by
  have stored := store next heap head free (p :: used) p record pool List.mem_cons_self
  have live : heap.Live p := Pool.live next heap head free (p :: used) pool p (by simp)
  refine ⟨⟨rfl, record, Heap.read_store_here heap p record live, ?_⟩, List.perm_middle.symm.trans stored.all, stored.kept⟩
  rw [linked]
  exact stored.chain

end Pool
end LinuxModule
