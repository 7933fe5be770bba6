import LinuxModule.Base.Runs
import Mathlib.Data.List.Perm.Basic

set_option autoImplicit false

namespace LinuxModule.Acquire

-- What is taken one after the other when a module is loaded, and what is given back: when the call
-- for number k has failed, and when the module is unloaded.
structure Plan (R : Type) where
  init : List R
  failed : Nat → List R
  exit : List R

inductive Point (R : Type) where
  | out
  | taking (k : Nat)
  | releasing (rest : List R)
  | in_
deriving DecidableEq

structure Machine (R : Type) where
  held : List R
  point : Point R
deriving DecidableEq

inductive Event where
  | load
  | call (ok : Bool)
  | unload
deriving DecidableEq, Repr

inductive Fault where
  | notHeld
deriving DecidableEq, Repr

variable {R : Type}

def Point.releases (rest : List R) : Point R := if rest.isEmpty then .out else .releasing rest

def Plan.takes (plan : Plan R) (k : Nat) : Point R := if k < plan.init.length then .taking k else .in_

def boot : Machine R := ⟨[], .out⟩

def guard (s : Machine R) : Event → Prop
  | .load => s.point = .out
  | .call _ => s.point ≠ .out ∧ s.point ≠ .in_
  | .unload => s.point = .in_

section Steps

variable [DecidableEq R] (plan : Plan R)

def step (s : Machine R) : Event → Except Fault (Unit × Machine R)
  | .load => .ok ((), { s with point := plan.takes 0 })
  | .call ok =>
      match s.point with
      | .taking k =>
          match plan.init[k]? with
          | none => .ok ((), s)
          | some r =>
              if ok then .ok ((), ⟨r :: s.held, plan.takes (k + 1)⟩)
              else .ok ((), { s with point := .releases (plan.failed k) })
      | .releasing (r :: rest) =>
          if r ∈ s.held then .ok ((), ⟨s.held.erase r, .releases rest⟩) else .error .notHeld
      | _ => .ok ((), s)
  | .unload => .ok ((), { s with point := .releases plan.exit })

instance (s : Machine R) (e : Event) : Decidable (guard s e) :=
  match e with
  | .load => inferInstanceAs (Decidable (_ = _))
  | .call _ => inferInstanceAs (Decidable (_ ∧ _))
  | .unload => inferInstanceAs (Decidable (_ = _))

-- What should be held at this point.
def Plan.owed : Point R → List R
  | .out => []
  | .taking k => plan.init.take k
  | .releasing rest => rest
  | .in_ => plan.init

-- An init that fails gives back what it has taken.
def Plan.Unwinds : Prop := ∀ k < plan.init.length, (plan.failed k).Perm (plan.init.take k)

instance : Decidable plan.Unwinds := inferInstanceAs (Decidable (∀ k < plan.init.length, _))

structure Accounted (s : Machine R) : Prop where
  held : s.held.Perm (plan.owed s.point)
  within : ∀ k, s.point = .taking k → k < plan.init.length
  rest : s.point ≠ .releasing []

omit [DecidableEq R] in
theorem accounted_releases (held rest : List R) (same : held.Perm rest) : Accounted plan ⟨held, .releases rest⟩ := by
  cases rest with
  | nil => exact ⟨same, fun k other => (by cases other), fun other => (by cases other)⟩
  | cons r rest => exact ⟨same, fun k other => (by cases other), fun other => (by cases other)⟩

omit [DecidableEq R] in
theorem accounted_takes (held : List R) (k : Nat) (same : held.Perm (plan.init.take k)) :
    Accounted plan ⟨held, plan.takes k⟩ := by
  by_cases more : k < plan.init.length
  · rw [Plan.takes, if_pos more]
    refine ⟨same, fun k' taking => ?_, fun other => (by cases other)⟩
    cases taking
    exact more
  · rw [Plan.takes, if_neg more]
    rw [List.take_of_length_le (Nat.le_of_not_lt more)] at same
    exact ⟨same, fun k' other => (by cases other), fun other => (by cases other)⟩

-- Everything but an unload that gives back the wrong things keeps the account.
theorem accounted_step (s : Machine R) (e : Event) (unwinds : plan.Unwinds) (exits : e = .unload → plan.exit.Perm plan.init)
    (accounted : Accounted plan s) (allowed : guard s e) :
    ∃ out after, step plan s e = .ok (out, after) ∧ Accounted plan after := by
  obtain ⟨held, point⟩ := s
  obtain ⟨same, within, rest⟩ := accounted
  cases e with
  | load =>
      obtain rfl : point = .out := allowed
      exact ⟨_, _, rfl, accounted_takes plan held 0 same⟩
  | unload =>
      obtain rfl : point = .in_ := allowed
      exact ⟨_, _, rfl, accounted_releases plan held _ (same.trans (exits rfl).symm)⟩
  | call ok =>
      cases point with
      | out => exact absurd rfl allowed.1
      | in_ => exact absurd rfl allowed.2
      | taking k =>
          have inside := within k rfl
          have here := List.getElem?_eq_getElem inside
          cases ok with
          | true =>
              refine ⟨_, _, by simp only [step, here, if_true]; rfl, accounted_takes plan _ (k + 1) ?_⟩
              rw [List.take_succ_eq_append_getElem inside]
              exact (same.cons _).trans (List.perm_append_singleton _ _).symm
          | false =>
              refine ⟨_, _, by simp only [step, here, Bool.false_eq_true, if_false]; rfl, ?_⟩
              exact accounted_releases plan held _ (same.trans (unwinds k inside).symm)
      | releasing rest' =>
          cases rest' with
          | nil => exact absurd rfl rest
          | cons r rest' =>
              have member : r ∈ held := same.symm.subset List.mem_cons_self
              refine ⟨_, _, by simp only [step, if_pos member]; rfl, accounted_releases plan _ _ ?_⟩
              exact ((List.perm_cons_erase member).symm.trans same).cons_inv

-- While nothing has gone wrong, what is held is what is owed.
theorem run_accounted (unwinds : plan.Unwinds) (evs : List Event) (outs : List Unit) (last : Machine R)
    (run : Run (step plan) guard boot evs outs last) (exits : .unload ∈ evs → plan.exit.Perm plan.init) : Accounted plan last := by
  induction run with
  | start => exact ⟨.refl _, fun k other => (by cases other), fun other => (by cases other)⟩
  | next evs outs middle e out after _ allowed done ih =>
      have earlier := ih fun member => exits (List.mem_append_left _ member)
      obtain ⟨out', after', done', kept⟩ := accounted_step plan middle e unwinds
        (fun same => exits (List.mem_append_right _ (by rw [same]; exact List.mem_singleton_self _))) earlier allowed
      obtain ⟨rfl, rfl⟩ := Prod.mk.inj (Except.ok.inj (done'.symm.trans done))
      exact kept

-- A machine that never faults, and holds nothing while the module is out.
def Plan.Clean : Prop :=
  ∀ evs outs last, Run (step plan) guard boot evs outs last →
    (∀ e, guard last e → ∃ out after, step plan last e = .ok (out, after)) ∧ (last.point = .out → last.held = [])

theorem balanced_clean (unwinds : plan.Unwinds) (exits : plan.exit.Perm plan.init) : plan.Clean := by
  intro evs outs last run
  have accounted := run_accounted plan unwinds evs outs last run fun _ => exits
  refine ⟨fun e allowed => ?_, fun out => ?_⟩
  · obtain ⟨none_, after, done, -⟩ := accounted_step plan last e unwinds (fun _ => exits) accounted allowed
    exact ⟨none_, after, done⟩
  · have held := accounted.held
    rw [out] at held
    exact List.perm_nil.mp held

-- An unload that would give back more than was taken is under way, and what it has given back so far was held.
structure Stuck (s : Machine R) (given : List R) (r : R) (rest : List R) : Prop where
  whole : plan.exit = given ++ r :: rest
  held : (s.held ++ given).Perm plan.init
  point : s.point = .releasing (r :: rest)

omit [DecidableEq R] in
theorem stuck_releases (excess : ¬ plan.exit.Subperm plan.init) (held given rest : List R) (whole : plan.exit = given ++ rest)
    (same : (held ++ given).Perm plan.init) : ∃ r rest', Stuck plan ⟨held, .releases rest⟩ given r rest' := by
  cases rest with
  | nil =>
      rw [List.append_nil] at whole
      exact absurd (whole ▸ ((List.sublist_append_right held given).subperm.trans same.subperm)) excess
  | cons r rest => exact ⟨r, rest, whole, same, rfl⟩

theorem stuck_step (excess : ¬ plan.exit.Subperm plan.init) (s after : Machine R) (e : Event) (out : Unit) (given rest : List R)
    (r : R) (stuck : Stuck plan s given r rest) (allowed : guard s e) (done : step plan s e = .ok (out, after)) :
    ∃ given r rest, Stuck plan after given r rest := by
  obtain ⟨held, point⟩ := s
  obtain ⟨whole, same, here⟩ := stuck
  obtain rfl : point = .releasing (r :: rest) := here
  cases e with
  | load => cases allowed
  | unload => cases allowed
  | call ok =>
      by_cases member : r ∈ held
      · simp only [step, if_pos member] at done
        obtain ⟨-, rfl⟩ := Prod.mk.inj (Except.ok.inj done)
        refine ⟨given ++ [r], stuck_releases plan excess _ (given ++ [r]) rest (by simp [whole]) ?_⟩
        have moved : (held.erase r ++ (given ++ [r])).Perm (held ++ given) := by
          rw [← List.append_assoc]
          refine (List.perm_append_singleton r _).trans ?_
          exact (List.perm_cons_erase member).symm.append_right given
        exact moved.trans same
      · simp only [step, if_neg member] at done
        cases done

-- Once such an unload has begun, the module is never out again.
theorem run_stuck (unwinds : plan.Unwinds) (excess : ¬ plan.exit.Subperm plan.init) (evs : List Event) (outs : List Unit)
    (last : Machine R) (run : Run (step plan) guard boot evs outs last) (unload : .unload ∈ evs) :
    ∃ given r rest, Stuck plan last given r rest := by
  induction run with
  | start => cases unload
  | next evs outs middle e out after before allowed done ih =>
      by_cases earlier : .unload ∈ evs
      · obtain ⟨given, r, rest, stuck⟩ := ih earlier
        exact stuck_step plan excess middle after e out given rest r stuck allowed done
      · obtain rfl : .unload = e := by simpa [earlier] using unload
        have held := (run_accounted plan unwinds evs outs middle before fun member => absurd member earlier).held
        have loaded : middle.point = .in_ := allowed
        rw [loaded] at held
        cases done
        refine ⟨[], stuck_releases plan excess middle.held [] plan.exit rfl ?_⟩
        rw [List.append_nil]
        exact held

end Steps

end LinuxModule.Acquire
