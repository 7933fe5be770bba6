import LinuxModule.Base.Acquire

set_option autoImplicit false

namespace LinuxModule

open Acquire

namespace Sema

-- The chrdev region of "hello", helloclass and the device test.
inductive Resource where
  | chrdev | cls | device
deriving DecidableEq, Repr

def helloInitFailed : Nat → List Resource
  | 1 => [.chrdev]
  | 2 => [.cls, .chrdev]
  | _ => []

def helloExit : List Resource := [.device, .cls, .chrdev]

def loading : Plan Resource := ⟨[.chrdev, .cls, .device], helloInitFailed, helloExit⟩

end Sema

namespace CdevDriver

-- The region of "mychardev", my_cdev, my_class and my_device.
inductive Resource where
  | region | cdev | cls | device
deriving DecidableEq, Repr

def myInitFailed : Nat → List Resource
  | 1 => [.region]
  | 2 => [.cdev, .region]
  | 3 => [.cls, .cdev, .region]
  | _ => []

-- class_destroy unregisters the class, and class_unregister has done so just before.
def myExit : List Resource := [.device, .cls, .cls, .cdev, .region]

def loading : Plan Resource := ⟨[.region, .cdev, .cls, .device], myInitFailed, myExit⟩

theorem excess_class : ¬ loading.exit.Subperm loading.init := by
  intro within
  exact absurd (within.count_le .cls) (by decide)

-- my_exit comes as far as class_destroy, and no further.
theorem stuck_at_class (s : Machine Resource) (given rest : List Resource) (r : Resource) (stuck : Stuck loading s given r rest)
    (late : 2 ≤ given.length) :
    given.length = 2 ∧ r = .cls ∧ ∀ ok, step loading s (.call ok) = .error .notHeld := by
  obtain ⟨whole, same, point⟩ := stuck
  have classes : s.held.count .cls + given.count .cls = 1 := by
    rw [← List.count_append]
    exact (same.count_eq .cls).trans (by decide)
  obtain ⟨before, more, rfl, two⟩ : ∃ before more, given = before ++ more ∧ before.length = 2 :=
    ⟨given.take 2, given.drop 2, (List.take_append_drop 2 given).symm, List.length_take_of_le late⟩
  rw [List.append_assoc] at whole
  obtain ⟨first, last⟩ : [Resource.device, .cls] = before ∧ [Resource.cls, .cdev, .region] = more ++ r :: rest :=
    List.append_inj whole two.symm
  rw [← first, List.count_append] at classes
  have once : [Resource.device, .cls].count .cls = 1 := by decide
  have none_given : more.count .cls = 0 := by omega
  cases more with
  | nil =>
      obtain ⟨rfl, rfl⟩ := List.cons.inj last
      have gone : Resource.cls ∉ s.held := List.count_eq_zero.mp (by omega)
      exact ⟨by simpa using two, rfl, fun ok => by simp only [step, point, if_neg gone]⟩
  | cons third more =>
      obtain ⟨rfl, -⟩ := List.cons.inj last
      rw [List.count_cons_self] at none_given
      omega

-- hello_exit gives back what hello_init took, and each of the two inits what it took before a failure. So does
-- my_exit, but for the class: it never gets past class_destroy, which is given a class that is gone.
theorem class_destroyed_twice :
    Sema.loading.Clean ∧ ∀ evs outs last, Run (step loading) guard boot evs outs last →
      (.unload ∉ evs → (∀ e, guard last e → ∃ out after, step loading last e = .ok (out, after)) ∧
        (last.point = .out → last.held = [])) ∧
      (.unload ∈ evs → ∃ given r rest, myExit = given ++ r :: rest ∧ last.point = .releasing (r :: rest) ∧ given.length ≤ 2 ∧
        (given.length = 2 → r = .cls ∧ ∀ ok, step loading last (.call ok) = .error .notHeld)) := by
  have unwinds : loading.Unwinds := by decide
  refine ⟨balanced_clean Sema.loading (by decide) (by decide), fun evs outs last run => ⟨fun never => ?_, fun unload => ?_⟩⟩
  · have accounted := run_accounted loading unwinds evs outs last run fun unload => absurd unload never
    refine ⟨fun e allowed => ?_, fun out => ?_⟩
    · by_cases unload : e = .unload
      · subst unload
        exact ⟨_, _, rfl⟩
      · obtain ⟨nothing, after, done, -⟩ := accounted_step loading last e unwinds (fun same => absurd same unload) accounted allowed
        exact ⟨nothing, after, done⟩
    · have held := accounted.held
      rw [out] at held
      exact List.perm_nil.mp held
  · obtain ⟨given, r, rest, stuck⟩ := run_stuck loading unwinds excess_class evs outs last run unload
    refine ⟨given, r, rest, stuck.whole, stuck.point, ?_, fun two => (stuck_at_class last given rest r stuck (by omega)).2⟩
    by_contra late
    have two := (stuck_at_class last given rest r stuck (by omega)).1
    omega

def exitEvents : List Event := [.load, .call true, .call true, .call true, .call true, .unload, .call true, .call true]

theorem class_destroyed_twice_ex : ∃ outs last, Run (step loading) guard boot exitEvents outs last ∧
    step loading last (.call true) = .error .notHeld := by
  have run : Run (step loading) guard boot exitEvents _ ⟨[.cdev, .region], .releasing [.cls, .cdev, .region]⟩ :=
    Run.eval_run _ _ _ _ _ (List.replicate 8 ()) (by decide +kernel)
  obtain ⟨given, r, rest, whole, point, -, faults⟩ := (class_destroyed_twice.2 _ _ _ run).2 (by decide)
  obtain ⟨rfl, rfl⟩ : Resource.cls = r ∧ [Resource.cdev, .region] = rest := by simpa using point
  have sizes : myExit.length = given.length + 3 := by simp [whole]
  have five : myExit.length = 5 := rfl
  exact ⟨_, _, run, (faults (by omega)).2 true⟩

end CdevDriver
end LinuxModule
