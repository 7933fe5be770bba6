import LinuxModule.Base.Heap
import Mathlib.Data.List.Perm.Basic

set_option autoImplicit false

namespace LinuxModule

-- Every object that is allocated has exactly one pointer to it in the list.
structure Owned {α : Type} (heap : Heap α) (pointers : List Nat) : Prop where
  distinct : pointers.Nodup
  live : ∀ p, heap.Live p ↔ p ∈ pointers

namespace Owned

variable {α : Type} (heap : Heap α) (pointers : List Nat)

theorem empty : Owned (Heap.empty : Heap α) [] :=
  ⟨List.nodup_nil, fun p => ⟨fun live => absurd live.1 (Nat.not_lt_zero p), fun member => absurd member List.not_mem_nil⟩⟩

theorem reorder (other : List Nat) (owned : Owned heap pointers) (same : other.Perm pointers) : Owned heap other :=
  ⟨same.nodup_iff.mpr owned.distinct, fun p => (owned.live p).trans same.mem_iff.symm⟩

theorem alloc (content : α) (owned : Owned heap pointers) : Owned (heap.alloc content) (heap.size :: pointers) := by
  refine ⟨List.nodup_cons.mpr ⟨fun member => ?_, owned.distinct⟩, fun p => ?_⟩
  · exact Nat.lt_irrefl _ ((owned.live heap.size).mpr member).1
  · rw [Heap.live_alloc, owned.live, List.mem_cons, or_comm]

theorem free (p : Nat) (owned : Owned heap (p :: pointers)) : ∃ after, heap.free p = some after ∧ Owned after pointers := by
  obtain ⟨fresh, distinct⟩ := List.nodup_cons.mp owned.distinct
  have live : heap.Live p := (owned.live p).mpr List.mem_cons_self
  refine ⟨_, Heap.free_live heap p live, distinct, fun q => ?_⟩
  rw [Heap.live_release, owned.live, List.mem_cons]
  constructor
  · rintro ⟨same | member, other⟩
    · exact absurd same other
    · exact member
  · exact fun member => ⟨.inr member, fun same => fresh (same ▸ member)⟩

end Owned
end LinuxModule
