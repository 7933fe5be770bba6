import Mathlib.Data.List.Basic

set_option autoImplicit false

namespace LinuxModule

structure Semaphore (ω : Type) where
  count : Nat
  waitList : List ω
deriving DecidableEq

namespace Semaphore

variable {ω : Type}

def init (units : Nat) : Semaphore ω := ⟨units, []⟩

def down (s : Semaphore ω) (who : ω) : Bool × Semaphore ω :=
  if 0 < s.count then (true, { s with count := s.count - 1 })
  else (false, { s with waitList := s.waitList ++ [who] })

variable [DecidableEq ω]

def leave (s : Semaphore ω) (who : ω) : Semaphore ω := { s with waitList := s.waitList.erase who }

-- Hands the unit over to a sleeper, or puts it back when there is none.
def up (s : Semaphore ω) : Option ω → Semaphore ω
  | none => { s with count := s.count + 1 }
  | some next => { s with waitList := s.waitList.erase next }

def Picks (s : Semaphore ω) : Option ω → Prop
  | none => s.waitList = []
  | some next => next ∈ s.waitList

instance (s : Semaphore ω) (next : Option ω) : Decidable (s.Picks next) :=
  match next with
  | none => inferInstanceAs (Decidable (s.waitList = []))
  | some _ => inferInstanceAs (Decidable (_ ∈ _))

-- No unit is lost or made while `held` of them are out, and nobody sleeps next to a free one.
structure Balanced (s : Semaphore ω) (held units : Nat) : Prop where
  conserved : s.count + held = units
  busy : s.waitList ≠ [] → s.count = 0

omit [DecidableEq ω] in
theorem balanced_init (units : Nat) : Balanced (init units : Semaphore ω) 0 units :=
  ⟨rfl, fun some_sleeper => absurd rfl some_sleeper⟩

omit [DecidableEq ω] in
theorem down_free (s : Semaphore ω) (who : ω) (free : 0 < s.count) :
    s.down who = (true, { s with count := s.count - 1 }) := if_pos free

omit [DecidableEq ω] in
theorem down_busy (s : Semaphore ω) (who : ω) (busy : s.count = 0) :
    s.down who = (false, { s with waitList := s.waitList ++ [who] }) := if_neg (by omega)

omit [DecidableEq ω] in
theorem balanced_down (s : Semaphore ω) (who : ω) (held units : Nat) (balanced : Balanced s held units) :
    Balanced (s.down who).2 (held + (s.down who).1.toNat) units := by
  obtain ⟨conserved, busy⟩ := balanced
  by_cases free : 0 < s.count
  · rw [down_free s who free]
    refine ⟨?_, fun sleepers => absurd (busy sleepers) (by omega)⟩
    simp only [Bool.toNat_true]
    omega
  · rw [down_busy s who (by omega)]
    exact ⟨conserved, fun _ => by simpa using free⟩

theorem balanced_leave (s : Semaphore ω) (who : ω) (held units : Nat) (balanced : Balanced s held units) :
    Balanced (s.leave who) held units := by
  refine ⟨balanced.conserved, fun sleepers => balanced.busy fun nobody => sleepers ?_⟩
  rw [leave, nobody]
  rfl

theorem balanced_up (s : Semaphore ω) (next : Option ω) (held units : Nat) (picks : s.Picks next)
    (balanced : Balanced s (held + 1) units) : Balanced (s.up next) (held + next.isSome.toNat) units := by
  obtain ⟨conserved, busy⟩ := balanced
  cases next with
  | none =>
      refine ⟨?_, fun sleepers => absurd picks sleepers⟩
      simp only [up, Option.isSome_none, Bool.toNat_false]
      omega
  | some who =>
      refine ⟨conserved, fun _ => busy fun nobody => ?_⟩
      have member : who ∈ s.waitList := picks
      rw [nobody] at member
      cases member

end Semaphore
end LinuxModule
