import LinuxModule.Base.Ends
import LinuxModule.Base.Runs
import LinuxModule.Livepatch.State

set_option autoImplicit false

namespace LinuxModule.Livepatch

inductive Event where
  | modInit
  | allocWork (version : Option Patch) (memory : Memory) (jiffies : UInt64)
  | cleanupWork (choose : Nat → Choice) (jiffies : UInt64)
  | modExit (choose : Nat → Option Patch)
  | fixInit (p : Patch)
  | complete
  | write (p : Patch) (enabled : Bool)
  | fixExit (p : Patch)

def addresses (s : State) : List Nat := s.dummyList.map Dummy.address

def Settled (s : State) : Prop := ∀ entry ∈ s.stack, entry.2 = .patched

instance (s : State) : Decidable (Settled s) := inferInstanceAs (Decidable (∀ entry ∈ s.stack, _))

-- Writing to the enabled file of a patch: one transition at a time, but the one under way
-- can be turned round.
def CanWrite (s : State) (p : Patch) (enabled : Bool) : Prop :=
  (Settled s ∧ (p, .patched) ∈ s.stack ∧ enabled = false) ∨ ((p, .patching) ∈ s.stack ∧ enabled = false) ∨
    ((p, .unpatching) ∈ s.stack ∧ enabled = true)

instance (s : State) (p : Patch) (enabled : Bool) : Decidable (CanWrite s p enabled) :=
  inferInstanceAs (Decidable (_ ∨ _ ∨ _))

-- kzalloc hands out memory that is not in use. A livepatch module can be removed once it is
-- off the stack.
def guard (s : State) : Event → Prop
  | .modInit => s.mod = false
  | .allocWork version memory _ => s.mod = true ∧ s.allocDwork = true ∧ version ∈ versions replacesAlloc s.stack ∧
      ∀ d ∈ memory.dummy, d ∉ addresses s
  | .cleanupWork choose _ => s.mod = true ∧ s.cleanupDwork = true ∧ ∀ d ∈ addresses s,
      (choose d).check ∈ versions replacesCheck s.stack ∧ (choose d).free ∈ versions replacesFree s.stack
  | .modExit choose => s.mod = true ∧ ∀ d ∈ addresses s, choose d ∈ versions replacesFree s.stack
  | .fixInit p => p ∉ s.loaded ∧ Settled s
  | .complete => ¬ Settled s
  | .write p enabled => CanWrite s p enabled
  | .fixExit p => p ∈ s.loaded ∧ p ∉ s.stack.map Prod.fst

instance : ∀ (s : State) (e : Event), Decidable (guard s e)
  | s, .modInit => inferInstanceAs (Decidable (s.mod = false))
  | s, .allocWork version memory _ => inferInstanceAs (Decidable (s.mod = true ∧ s.allocDwork = true ∧
      version ∈ versions replacesAlloc s.stack ∧ ∀ d ∈ memory.dummy, d ∉ addresses s))
  | s, .cleanupWork choose _ => inferInstanceAs (Decidable (s.mod = true ∧ s.cleanupDwork = true ∧ ∀ d ∈ addresses s,
      (choose d).check ∈ versions replacesCheck s.stack ∧ (choose d).free ∈ versions replacesFree s.stack))
  | s, .modExit choose => inferInstanceAs (Decidable (s.mod = true ∧ ∀ d ∈ addresses s, choose d ∈ versions replacesFree s.stack))
  | s, .fixInit p => inferInstanceAs (Decidable (p ∉ s.loaded ∧ Settled s))
  | s, .complete => inferInstanceAs (Decidable (¬ Settled s))
  | s, .write p enabled => inferInstanceAs (Decidable (CanWrite s p enabled))
  | s, .fixExit p => inferInstanceAs (Decidable (p ∈ s.loaded ∧ p ∉ s.stack.map Prod.fst))

def completed : Patch × Phase → Option (Patch × Phase)
  | (p, .patching) => some (p, .patched)
  | (p, .patched) => some (p, .patched)
  | (_, .unpatching) => none

def turned (p : Patch) (enabled : Bool) (entry : Patch × Phase) : Patch × Phase :=
  if entry.1 = p then (p, if enabled then .patching else .unpatching) else entry

def fixExitOf : Patch → State → Except Fault (State × List Message)
  | .fix1 => livepatchShadowFix1Exit
  | .fix2 => livepatchShadowFix2Exit

def step (expirePeriod : UInt64) (s : State) : Event → Except Fault (List Message × State)
  | .modInit => .ok ([], livepatchShadowModInit s)
  | .allocWork version memory jiffies => allocWorkFunc expirePeriod version memory jiffies s
  | .cleanupWork choose jiffies => cleanupWorkFunc choose jiffies s
  | .modExit choose => livepatchShadowModExit choose s
  | .fixInit p => .ok ([], { s with loaded := p :: s.loaded, stack := (p, .patching) :: s.stack })
  | .complete => .ok ([], { s with stack := s.stack.filterMap completed })
  | .write p enabled => .ok ([], { s with stack := s.stack.map (turned p enabled) })
  | .fixExit p => (fixExitOf p s).map fun r => (r.2, { r.1 with loaded := s.loaded.filter (· ≠ p) })

-- Any function that can be met is the module's own or belongs to a patch on the stack.
theorem versions_on_stack (replaces : Patch → Bool) (stack : List (Patch × Phase)) (p : Patch)
    (met : some p ∈ versions replaces stack) : p ∈ stack.map Prod.fst ∧ replaces p = true := by
  induction stack with
  | nil => simp [versions] at met
  | cons entry rest ih =>
      obtain ⟨q, phase⟩ := entry
      by_cases replaced : replaces q = true
      · by_cases patched : phase = .patched
        · obtain rfl : p = q := by simpa [versions, replaced, patched] using met
          exact ⟨List.mem_cons_self, replaced⟩
        · rw [versions, if_pos replaced, if_neg patched] at met
          rcases List.mem_cons.mp met with same | later
          · obtain rfl := Option.some.inj same
            exact ⟨List.mem_cons_self, replaced⟩
          · exact ⟨List.mem_cons_of_mem _ (ih later).1, (ih later).2⟩
      · rw [versions, if_neg replaced] at met
        exact ⟨List.mem_cons_of_mem _ (ih met).1, (ih met).2⟩

-- Where a patch of the function is in place nobody meets the old one.
theorem versions_settled (replaces : Patch → Bool) (stack : List (Patch × Phase)) (p : Patch) (here : (p, .patched) ∈ stack)
    (replaced : replaces p = true) : none ∉ versions replaces stack := by
  induction stack with
  | nil => cases here
  | cons entry rest ih =>
      obtain ⟨q, phase⟩ := entry
      rcases List.mem_cons.mp here with same | later
      · cases same
        simp [versions, replaced]
      · have below := ih later
        by_cases other : replaces q = true
        · by_cases patched : phase = .patched
          · simp [versions, other, patched]
          · simpa [versions, other, patched] using below
        · simpa [versions, other] using below

end LinuxModule.Livepatch
