import Mathlib.Data.List.Basic

set_option autoImplicit false

namespace LinuxModule

@[simp] theorem except_ok_bind {φ α β : Type} (a : α) (f : α → Except φ β) : (Except.ok a >>= f) = f a := rfl

@[simp] theorem except_error_bind {φ α β : Type} (fault : φ) (f : α → Except φ β) :
    (Except.error fault >>= f) = .error fault := rfl

theorem except_bind_ok {φ α β : Type} (x : Except φ α) (f : α → Except φ β) (b : β) :
    (x >>= f) = .ok b ↔ ∃ a, x = .ok a ∧ f a = .ok b := by
  cases x <;> simp

theorem except_bind_error {φ α β : Type} (x : Except φ α) (f : α → Except φ β) (fault : φ) :
    (x >>= f) = .error fault ↔ x = .error fault ∨ ∃ a, x = .ok a ∧ f a = .error fault := by
  cases x <;> simp

@[simp] theorem except_ok_map {φ α β : Type} (a : α) (f : α → β) :
    Except.map f (Except.ok a : Except φ α) = .ok (f a) := rfl

theorem except_map_ok {φ α β : Type} (x : Except φ α) (f : α → β) (b : β) :
    x.map f = .ok b ↔ ∃ a, x = .ok a ∧ f a = b := by
  cases x <;> simp [Except.map]

-- What a stateful program leaves behind: the labelled states it marked on the
-- way, oldest first, and either its result or the fault that stopped it.
structure Outcome (φ ℓ σ α : Type) where
  trace : List (ℓ × σ)
  result : Except φ (α × σ)

def Walk (φ ℓ σ α : Type) : Type := σ → Outcome φ ℓ σ α

namespace Walk

variable {φ ℓ σ α β : Type}

def extend (trace : List (ℓ × σ)) (out : Outcome φ ℓ σ α) : Outcome φ ℓ σ α :=
  ⟨trace ++ out.trace, out.result⟩

instance : Monad (Walk φ ℓ σ) where
  pure a := fun s => ⟨[], .ok (a, s)⟩
  bind w f := fun s =>
    match w s with
    | ⟨trace, .ok (a, next)⟩ => extend trace (f a next)
    | ⟨trace, .error fault⟩ => ⟨trace, .error fault⟩

def get : Walk φ ℓ σ σ := fun s => ⟨[], .ok (s, s)⟩

def modify (f : σ → σ) : Walk φ ℓ σ Unit := fun s => ⟨[], .ok ((), f s)⟩

def mark (label : ℓ) : Walk φ ℓ σ Unit := fun s => ⟨[(label, s)], .ok ((), s)⟩

def act (f : σ → Except φ (α × σ)) : Walk φ ℓ σ α := fun s => ⟨[], f s⟩

def forEach : List α → (α → Walk φ ℓ σ Unit) → Walk φ ℓ σ Unit
  | [], _ => pure ()
  | x :: rest, body => do
      body x
      forEach rest body

def final (w : Walk φ ℓ σ α) (s : σ) : Except φ σ := (w s).result.map Prod.snd

-- What a program may assume of the states it marks, what it owes for them, and
-- the faults it is allowed to stop with.
structure Contract (φ ℓ σ : Type) where
  rely : ℓ → σ → Prop
  guar : ℓ → σ → Prop
  fault : φ → Prop

-- The reliances are read off the whole trace, so a program can use what it marks
-- before and after a statement; total correctness is the contract with no fault.
def Meets (c : Contract φ ℓ σ) (w : Walk φ ℓ σ α) (s : σ) (post : α → σ → Prop) : Prop :=
  (∀ m ∈ (w s).trace, c.rely m.1 m.2) →
    (∀ m ∈ (w s).trace, c.guar m.1 m.2) ∧
      match (w s).result with
      | .ok (a, next) => post a next
      | .error fault => c.fault fault

theorem meets_pure (c : Contract φ ℓ σ) (a : α) (s : σ) (post : α → σ → Prop) (holds : post a s) :
    Meets c (pure a) s post := by
  intro _
  exact ⟨fun m member => absurd member List.not_mem_nil, holds⟩

theorem meets_get (c : Contract φ ℓ σ) (s : σ) (post : σ → σ → Prop) (holds : post s s) :
    Meets c get s post := by
  intro _
  exact ⟨fun m member => absurd member List.not_mem_nil, holds⟩

theorem meets_modify (c : Contract φ ℓ σ) (f : σ → σ) (s : σ) (post : Unit → σ → Prop) (holds : post () (f s)) :
    Meets c (modify f) s post := by
  intro _
  exact ⟨fun m member => absurd member List.not_mem_nil, holds⟩

theorem meets_act (c : Contract φ ℓ σ) (f : σ → Except φ (α × σ)) (s next : σ) (a : α) (post : α → σ → Prop)
    (done : f s = .ok (a, next)) (holds : post a next) : Meets c (act f) s post := by
  intro _
  refine ⟨fun m member => absurd member List.not_mem_nil, ?_⟩
  simpa only [act, done] using holds

theorem meets_mark (c : Contract φ ℓ σ) (label : ℓ) (s : σ) (post : Unit → σ → Prop)
    (holds : c.rely label s → c.guar label s ∧ post () s) : Meets c (mark label) s post := by
  intro relied
  obtain ⟨owed, after⟩ := holds (relied (label, s) (by simp [mark]))
  refine ⟨fun m member => ?_, after⟩
  have same : m = (label, s) := by simpa [mark] using member
  simpa only [same] using owed

theorem bind_ok (w : Walk φ ℓ σ α) (f : α → Walk φ ℓ σ β) (s next : σ) (a : α) (trace : List (ℓ × σ))
    (done : w s = ⟨trace, .ok (a, next)⟩) : (w >>= f) s = extend trace (f a next) := by
  change (match w s with
    | ⟨trace, .ok (a, next)⟩ => extend trace (f a next)
    | ⟨trace, .error fault⟩ => ⟨trace, .error fault⟩) = _
  rw [done]

theorem bind_error (w : Walk φ ℓ σ α) (f : α → Walk φ ℓ σ β) (s : σ) (fault : φ) (trace : List (ℓ × σ))
    (done : w s = ⟨trace, .error fault⟩) : (w >>= f) s = ⟨trace, .error fault⟩ := by
  change (match w s with
    | ⟨trace, .ok (a, next)⟩ => extend trace (f a next)
    | ⟨trace, .error fault⟩ => ⟨trace, .error fault⟩) = _
  rw [done]

theorem meets_bind (c : Contract φ ℓ σ) (w : Walk φ ℓ σ α) (f : α → Walk φ ℓ σ β) (s : σ) (post : β → σ → Prop)
    (first : Meets c w s (fun a next => Meets c (f a) next post)) : Meets c (w >>= f) s post := by
  cases run : w s with
  | mk trace result =>
      simp only [Meets, run] at first
      cases result with
      | error fault =>
          intro relied
          rw [bind_error w f s fault trace run] at relied ⊢
          exact first relied
      | ok pair =>
          obtain ⟨a, next⟩ := pair
          intro relied
          rw [bind_ok w f s next a trace run] at relied ⊢
          obtain ⟨owed, rest⟩ := first (fun m member => relied m (List.mem_append_left _ member))
          obtain ⟨owedRest, after⟩ := rest (fun m member => relied m (List.mem_append_right _ member))
          refine ⟨fun m member => ?_, after⟩
          rcases List.mem_append.mp member with before | later
          · exact owed m before
          · exact owedRest m later

theorem meets_mono (c : Contract φ ℓ σ) (w : Walk φ ℓ σ α) (s : σ) (post weaker : α → σ → Prop)
    (strong : Meets c w s post) (imp : ∀ a next, post a next → weaker a next) : Meets c w s weaker := by
  intro relied
  obtain ⟨owed, after⟩ := strong relied
  refine ⟨owed, ?_⟩
  cases result : (w s).result with
  | error fault => simpa only [result] using after
  | ok pair => exact imp _ _ (by simpa only [result] using after)

-- The loop rule. The invariant speaks of the elements already visited; what is
-- still to come is named so that the body may use facts about the whole list.
theorem meets_for_each (c : Contract φ ℓ σ) (xs : List α) (body : α → Walk φ ℓ σ Unit)
    (inv : List α → σ → Prop) (s : σ) (start : inv [] s)
    (step : ∀ done x rest next, xs = done ++ x :: rest → inv done next →
      Meets c (body x) next (fun _ after => inv (done ++ [x]) after)) :
    Meets c (forEach xs body) s (fun _ after => inv xs after) := by
  suffices general : ∀ done rest next, xs = done ++ rest → inv done next →
      Meets c (forEach rest body) next (fun _ after => inv xs after) from general [] xs s rfl start
  intro done rest
  induction rest generalizing done with
  | nil =>
      intro next split holds
      exact meets_pure c () next _ (by simpa [split] using holds)
  | cons x rest ih =>
      intro next split holds
      apply meets_bind
      apply meets_mono c _ _ _ _ (step done x rest next split holds)
      intro _ after later
      exact ih (done ++ [x]) after (by simp [split]) later

theorem meets_fault (c : Contract φ ℓ σ) (w : Walk φ ℓ σ α) (s : σ) (post : α → σ → Prop)
    (meets : Meets c w s post) (relied : ∀ m ∈ (w s).trace, c.rely m.1 m.2) (total : ∀ fault, ¬ c.fault fault) :
    ∃ a next, (w s).result = .ok (a, next) ∧ post a next := by
  obtain ⟨_, after⟩ := meets relied
  cases result : (w s).result with
  | error fault => exact absurd (by simpa only [result] using after) (total fault)
  | ok pair => exact ⟨pair.1, pair.2, rfl, by simpa only [result] using after⟩

theorem result_bind (w : Walk φ ℓ σ α) (f : α → Walk φ ℓ σ β) (s after : σ) (b : β) :
    ((w >>= f) s).result = .ok (b, after) ↔
      ∃ a next, (w s).result = .ok (a, next) ∧ (f a next).result = .ok (b, after) := by
  cases run : w s with
  | mk trace result =>
      cases result with
      | error fault =>
          rw [bind_error w f s fault trace run]
          constructor
          · intro impossible
            cases impossible
          · rintro ⟨_, _, impossible, _⟩
            cases impossible
      | ok pair =>
          obtain ⟨a, next⟩ := pair
          rw [bind_ok w f s next a trace run]
          constructor
          · exact fun ran => ⟨a, next, rfl, ran⟩
          · rintro ⟨_, _, same, ran⟩
            cases same
            exact ran

theorem final_bind (w : Walk φ ℓ σ α) (f : α → Walk φ ℓ σ β) (s after : σ) :
    final (w >>= f) s = .ok after ↔ ∃ a next, (w s).result = .ok (a, next) ∧ final (f a) next = .ok after := by
  simp only [final, except_map_ok, Prod.exists]
  constructor
  · rintro ⟨b, _, ran, rfl⟩
    obtain ⟨a, next, first, later⟩ := (result_bind w f s _ b).mp ran
    exact ⟨a, next, first, b, _, later, rfl⟩
  · rintro ⟨a, next, first, b, _, later, rfl⟩
    exact ⟨b, _, (result_bind w f s _ b).mpr ⟨a, next, first, later⟩, rfl⟩

theorem final_congr (w : Walk φ ℓ σ α) (f g : α → Walk φ ℓ σ β) (s : σ) (same : ∀ a next, final (f a) next = final (g a) next) :
    final (w >>= f) s = final (w >>= g) s := by
  cases run : w s with
  | mk trace result =>
      cases result with
      | error fault => rw [final, final, bind_error w f s fault trace run, bind_error w g s fault trace run]
      | ok pair =>
          rw [final, final, bind_ok w f s pair.2 pair.1 trace run, bind_ok w g s pair.2 pair.1 trace run]
          exact same pair.1 pair.2

theorem final_bind_pure (w : Walk φ ℓ σ α) (b : β) (s : σ) : final (w >>= fun _ => pure b) s = final w s := by
  cases run : w s with
  | mk trace result =>
      cases result with
      | error fault => rw [final, final, bind_error w _ s fault trace run, run]; rfl
      | ok pair => rw [final, final, bind_ok w _ s pair.2 pair.1 trace run, run]; rfl

theorem final_for_each_cons (x : α) (rest : List α) (body : α → Walk φ ℓ σ Unit) (s after : σ) :
    final (forEach (x :: rest) body) s = .ok after ↔
      ∃ next, final (body x) s = .ok next ∧ final (forEach rest body) next = .ok after := by
  refine (final_bind (body x) (fun _ => forEach rest body) s after).trans ⟨?_, ?_⟩
  · rintro ⟨_, next, ran, later⟩
    exact ⟨next, by rw [final, ran, except_ok_map], later⟩
  · rintro ⟨next, ran, later⟩
    cases result : (body x s).result with
    | error fault =>
        rw [final, result] at ran
        cases ran
    | ok pair =>
        rw [final, result, except_ok_map] at ran
        obtain rfl := Except.ok.inj ran
        exact ⟨pair.1, pair.2, rfl, later⟩

theorem final_for_each_append (xs ys : List α) (body : α → Walk φ ℓ σ Unit) (s after : σ) :
    final (forEach (xs ++ ys) body) s = .ok after ↔
      ∃ next, final (forEach xs body) s = .ok next ∧ final (forEach ys body) next = .ok after := by
  induction xs generalizing s with
  | nil =>
      constructor
      · exact fun ran => ⟨s, rfl, ran⟩
      · rintro ⟨next, here, ran⟩
        cases here
        exact ran
  | cons x rest ih =>
      rw [List.cons_append, final_for_each_cons]
      constructor
      · rintro ⟨middle, first, ran⟩
        obtain ⟨next, before, later⟩ := (ih middle).mp ran
        exact ⟨next, (final_for_each_cons x rest body s next).mpr ⟨middle, first, before⟩, later⟩
      · rintro ⟨next, before, later⟩
        obtain ⟨middle, first, ran⟩ := (final_for_each_cons x rest body s next).mp before
        exact ⟨middle, first, (ih middle).mpr ⟨next, ran, later⟩⟩

-- A program that leaves this part of the state as it was whenever it returns.
def Keeps {κ : Type} (view : σ → κ) (w : Walk φ ℓ σ α) : Prop :=
  ∀ s a next, (w s).result = .ok (a, next) → view next = view s

section Keeps

variable {κ : Type} (view : σ → κ)

theorem keeps_pure (a : α) : Keeps view (pure a : Walk φ ℓ σ α) := by
  rintro s _ _ ⟨⟩
  rfl

theorem keeps_get : Keeps view (get : Walk φ ℓ σ σ) := by
  rintro s _ _ ⟨⟩
  rfl

theorem keeps_mark (label : ℓ) : Keeps view (mark label : Walk φ ℓ σ Unit) := by
  rintro s _ _ ⟨⟩
  rfl

theorem keeps_modify (f : σ → σ) (same : ∀ s, view (f s) = view s) : Keeps view (modify f : Walk φ ℓ σ Unit) := by
  rintro s _ _ ⟨⟩
  exact same s

theorem keeps_bind (w : Walk φ ℓ σ α) (f : α → Walk φ ℓ σ β) (first : Keeps view w) (later : ∀ a, Keeps view (f a)) :
    Keeps view (w >>= f) := by
  intro s b after ran
  obtain ⟨a, next, began, ended⟩ := (result_bind w f s after b).mp ran
  exact (later a next b after ended).trans (first s a next began)

theorem keeps_for_each (xs : List α) (body : α → Walk φ ℓ σ Unit) (each : ∀ x ∈ xs, Keeps view (body x)) :
    Keeps view (forEach xs body) := by
  induction xs with
  | nil => exact keeps_pure view ()
  | cons x rest ih =>
      exact keeps_bind view _ _ (each x List.mem_cons_self) fun _ => ih fun y later => each y (List.mem_cons_of_mem _ later)

theorem keeps_final (w : Walk φ ℓ σ α) (keeps : Keeps view w) (s after : σ) (ran : final w s = .ok after) :
    view after = view s := by
  obtain ⟨⟨a, next⟩, done, rfl⟩ := (except_map_ok _ _ _).mp ran
  exact keeps s a next done

end Keeps

end Walk
end LinuxModule
