import LinuxModule.Base.Words
import Mathlib.Data.List.Nodup

set_option autoImplicit false

namespace LinuxModule

-- A process as one snapshot shows it: who it is, the key it is looked up by in the
-- next snapshot, and the time it has accumulated.
structure Sighting (ι κ : Type) where
  process : ι
  key : κ
  cpuTime : Nat

namespace Sighting

variable {ι κ : Type}

def NonDecreasing (before now : List (Sighting ι κ)) : Prop :=
  ∀ a ∈ before, ∀ b ∈ now, a.process = b.process → a.cpuTime ≤ b.cpuTime

-- The differences of the times modulo 2^64 that do not exceed the later time.
def InStep (before now : Nat) : Prop := before ≤ now ∨ 2 ^ 64 ≤ before ∧ before ≤ now + 2 ^ 64

-- Whoever is found under the key of another process has used no less time than that one.
def NoTakeover (before now : List (Sighting ι κ)) : Prop :=
  ∀ a ∈ before, ∀ b ∈ now, a.key = b.key → a.process ≠ b.process → InStep a.cpuTime b.cpuTime

instance (before now : Nat) : Decidable (InStep before now) := inferInstanceAs (Decidable (_ ∨ _))

instance [DecidableEq ι] (before now : List (Sighting ι κ)) : Decidable (NonDecreasing before now) :=
  inferInstanceAs (Decidable (∀ a ∈ before, ∀ b ∈ now, _ → _))

instance [DecidableEq ι] [DecidableEq κ] (before now : List (Sighting ι κ)) : Decidable (NoTakeover before now) :=
  inferInstanceAs (Decidable (∀ a ∈ before, ∀ b ∈ now, _ → _ → _))

theorem difference_in_step_iff (utime stime utimeNow stimeNow : UInt64) :
    (utimeNow + stimeNow - (utime + stime)).toNat ≤ utimeNow.toNat + stimeNow.toNat ↔
      InStep (utime.toNat + stime.toNat) (utimeNow.toNat + stimeNow.toNat) := by
  have bound := utime.toNat_lt
  have bound' := stime.toNat_lt
  rw [UInt64.toNat_sub, UInt64.toNat_add, UInt64.toNat_add, InStep]
  omega

theorem no_takeover_iff (before now : List (Sighting ι κ)) (law : NonDecreasing before now) :
    NoTakeover before now ↔ ∀ a ∈ before, ∀ b ∈ now, a.key = b.key → InStep a.cpuTime b.cpuTime := by
  constructor
  · intro none a member b memberNow sameKey
    by_cases same : a.process = b.process
    · exact .inl (law a member b memberNow same)
    · exact none a member b memberNow sameKey same
  · intro all a member b memberNow sameKey _
    exact all a member b memberNow sameKey

end Sighting

theorem mem_map_filter {α β : Type} (p : α → Bool) (f : α → β) (xs : List α) (b : β) :
    b ∈ (xs.filter p).map f ↔ ∃ x ∈ xs, p x = true ∧ b = f x := by
  simp only [List.mem_map, List.mem_filter]
  constructor
  · rintro ⟨x, ⟨member, kept⟩, rfl⟩
    exact ⟨x, member, kept, rfl⟩
  · rintro ⟨x, member, kept, rfl⟩
    exact ⟨x, ⟨member, kept⟩, rfl⟩

end LinuxModule
