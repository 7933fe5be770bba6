import Mathlib.Data.List.Induction

set_option autoImplicit false

namespace LinuxModule

-- A run of a guarded step that may fault: the events and what each of them put
-- out, oldest first. A run ends where it is looked at, so its prefixes are runs.
inductive Run {σ ε ω φ : Type} (step : σ → ε → Except φ (ω × σ)) (guard : σ → ε → Prop) (s : σ) :
    List ε → List ω → σ → Prop where
  | start : Run step guard s [] [] s
  | next (evs : List ε) (outs : List ω) (middle : σ) (e : ε) (out : ω) (after : σ)
      (before : Run step guard s evs outs middle) (allowed : guard middle e) (done : step middle e = .ok (out, after)) :
      Run step guard s (evs ++ [e]) (outs ++ [out]) after

namespace Run

variable {σ τ ε ω ψ φ χ : Type}

-- Invariants speak of the history, so they can count events.
theorem rule (step : σ → ε → Except φ (ω × σ)) (guard : σ → ε → Prop) (s : σ) (inv : List ε → List ω → σ → Prop)
    (start : inv [] [] s)
    (kept : ∀ evs outs middle e out after, inv evs outs middle → guard middle e → step middle e = .ok (out, after) →
      inv (evs ++ [e]) (outs ++ [out]) after)
    (evs : List ε) (outs : List ω) (last : σ) (run : Run step guard s evs outs last) : inv evs outs last := by
  induction run with
  | start => exact start
  | next evs outs middle e out after _ allowed done ih => exact kept evs outs middle e out after ih allowed done

theorem last_step (step : σ → ε → Except φ (ω × σ)) (guard : σ → ε → Prop) (s last : σ) (evs : List ε) (e : ε)
    (outs : List ω) (run : Run step guard s (evs ++ [e]) outs last) :
    ∃ before out middle, outs = before ++ [out] ∧ Run step guard s evs before middle ∧ guard middle e ∧
      step middle e = .ok (out, last) := by
  generalize whole : evs ++ [e] = all at run
  cases run with
  | start => simp at whole
  | next evs' outs middle e' out after before allowed done =>
      obtain ⟨rfl, same⟩ := List.append_inj' whole rfl
      obtain rfl : e = e' := by simpa using same
      exact ⟨outs, out, middle, rfl, before, allowed, done⟩

theorem before (step : σ → ε → Except φ (ω × σ)) (guard : σ → ε → Prop) (s : σ) (first rest : List ε)
    (outs : List ω) (last : σ) (run : Run step guard s (first ++ rest) outs last) :
    ∃ outsFirst middle, Run step guard s first outsFirst middle := by
  induction rest using List.reverseRecOn generalizing outs last with
  | nil => exact ⟨outs, last, by simpa using run⟩
  | append_singleton rest e ih =>
      rw [← List.append_assoc] at run
      obtain ⟨outsBefore, _, middle, _, shorter, _⟩ := last_step step guard s last _ e outs run
      exact ih outsBefore middle shorter

theorem lengths (step : σ → ε → Except φ (ω × σ)) (guard : σ → ε → Prop) (s last : σ) (evs : List ε) (outs : List ω)
    (run : Run step guard s evs outs last) : outs.length = evs.length := by
  induction run with
  | start => rfl
  | next => simp [*]

-- What one of the events met, and what it put out.
theorem at_event (step : σ → ε → Except φ (ω × σ)) (guard : σ → ε → Prop) (s last : σ) (first rest : List ε) (e : ε)
    (outs : List ω) (run : Run step guard s (first ++ e :: rest) outs last) :
    ∃ before out after middle next, outs = before ++ out :: after ∧ before.length = first.length ∧
      Run step guard s first before middle ∧ guard middle e ∧ step middle e = .ok (out, next) := by
  induction rest using List.reverseRecOn generalizing outs last with
  | nil =>
      obtain ⟨before, out, middle, rfl, earlier, allowed, done⟩ := last_step step guard s last first e outs run
      exact ⟨before, out, [], middle, last, rfl, lengths step guard s middle first before earlier, earlier, allowed, done⟩
  | append_singleton rest final ih =>
      have split : first ++ e :: (rest ++ [final]) = (first ++ e :: rest) ++ [final] := by simp
      obtain ⟨shorter, outFinal, at_, rfl, earlier, _⟩ := last_step step guard s last _ final outs (split ▸ run)
      obtain ⟨before, out, after, middle, next, rfl, same, met⟩ := ih at_ shorter earlier
      exact ⟨before, out, after ++ [outFinal], middle, next, by simp, same, met⟩

-- Forward simulation. The other system sees each event in its own terms.
theorem simulates {δ : Type} (step : σ → ε → Except φ (ω × σ)) (guard : σ → ε → Prop) (other : τ → δ → Except χ (ψ × τ))
    (otherGuard : τ → δ → Prop) (view : ε → δ) (rel : σ → τ → Prop) (s : σ) (t : τ) (start : rel s t)
    (matches_ : ∀ middle now e out after, rel middle now → guard middle e → step middle e = .ok (out, after) →
      otherGuard now (view e) ∧ ∃ outOther next, other now (view e) = .ok (outOther, next) ∧ rel after next)
    (evs : List ε) (outs : List ω) (last : σ) (run : Run step guard s evs outs last) :
    ∃ outsOther final, Run other otherGuard t (evs.map view) outsOther final ∧ rel last final := by
  induction run with
  | start => exact ⟨[], t, .start, start⟩
  | next evs outs middle e out after _ allowed done ih =>
      obtain ⟨outsOther, now, sofar, related⟩ := ih
      obtain ⟨allowedOther, outOther, next, doneOther, relatedNext⟩ := matches_ middle now e out after related allowed done
      refine ⟨outsOther ++ [outOther], next, ?_, relatedNext⟩
      rw [List.map_append]
      exact .next _ outsOther now (view e) outOther next sofar allowedOther doneOther

theorem weaken (step : σ → ε → Except φ (ω × σ)) (guard weaker : σ → ε → Prop)
    (allows : ∀ s e, guard s e → weaker s e) (s last : σ) (evs : List ε) (outs : List ω)
    (run : Run step guard s evs outs last) : Run step weaker s evs outs last := by
  induction run with
  | start => exact .start
  | next evs outs middle e out after _ allowed done ih =>
      exact .next evs outs middle e out after ih (allows middle e allowed) done

theorem cons (step : σ → ε → Except φ (ω × σ)) (guard : σ → ε → Prop) (s middle last : σ) (e : ε) (out : ω)
    (allowed : guard s e) (done : step s e = .ok (out, middle)) (rest : List ε) (outs : List ω)
    (run : Run step guard middle rest outs last) : Run step guard s (e :: rest) (out :: outs) last := by
  induction run with
  | start => exact .next [] [] s e out middle .start allowed done
  | next evs outs at_ e' out' after _ allowed' done' ih => exact .next (e :: evs) (out :: outs) at_ e' out' after ih allowed' done'

theorem append (step : σ → ε → Except φ (ω × σ)) (guard : σ → ε → Prop) (s middle last : σ) (evs rest : List ε)
    (outs outsRest : List ω) (first : Run step guard s evs outs middle) (later : Run step guard middle rest outsRest last) :
    Run step guard s (evs ++ rest) (outs ++ outsRest) last := by
  induction later with
  | start => simpa using first
  | next rest outsRest at_ e out after _ allowed done ih =>
      rw [← List.append_assoc, ← List.append_assoc]
      exact .next _ _ at_ e out after ih allowed done

theorem unique (step : σ → ε → Except φ (ω × σ)) (guard : σ → ε → Prop) (s last other : σ) (evs : List ε)
    (outs others : List ω) (run : Run step guard s evs outs last) (again : Run step guard s evs others other) :
    others = outs ∧ other = last := by
  induction run generalizing others other with
  | start =>
      generalize none_ : ([] : List ε) = all at again
      cases again with
      | start => exact ⟨rfl, rfl⟩
      | next => simp at none_
  | next evs outs middle e out after _ _ done ih =>
      obtain ⟨outsBefore, outAgain, middleAgain, rfl, before, _, doneAgain⟩ := last_step _ _ _ _ _ _ _ again
      obtain ⟨rfl, rfl⟩ := ih middleAgain outsBefore before
      obtain ⟨rfl, rfl⟩ := Prod.mk.inj (Except.ok.inj (done.symm.trans doneAgain))
      exact ⟨rfl, rfl⟩

-- P holds at each of these events, of the state the event is met in.
def Always (step : σ → ε → Except φ (ω × σ)) (guard : σ → ε → Prop) (s : σ) (P : σ → ε → Prop) (evs : List ε) : Prop :=
  ∀ first e rest outs middle, evs = first ++ e :: rest → Run step guard s first outs middle → P middle e

theorem always_before (step : σ → ε → Except φ (ω × σ)) (guard : σ → ε → Prop) (s : σ) (P : σ → ε → Prop)
    (first rest : List ε) (always : Always step guard s P (first ++ rest)) : Always step guard s P first := by
  rintro earlier e later outs middle rfl run
  exact always earlier e (later ++ rest) outs middle (by simp) run

theorem always_snoc_iff (step : σ → ε → Except φ (ω × σ)) (guard : σ → ε → Prop) (s : σ) (P : σ → ε → Prop)
    (evs : List ε) (outs : List ω) (middle : σ) (e : ε) (run : Run step guard s evs outs middle) :
    Always step guard s P (evs ++ [e]) ↔ Always step guard s P evs ∧ P middle e := by
  constructor
  · intro always
    exact ⟨always_before step guard s P evs [e] always, always evs e [] outs middle rfl run⟩
  · rintro ⟨always, last⟩ first e' rest outs' middle' split ran
    rcases rest.eq_nil_or_concat with rfl | ⟨rest', final, rfl⟩
    · obtain ⟨rfl, same⟩ := List.append_inj' split rfl
      obtain rfl : e = e' := by simpa using same
      obtain ⟨_, rfl⟩ := unique step guard s middle middle' evs outs outs' run ran
      exact last
    · rw [List.concat_eq_append, ← List.cons_append, ← List.append_assoc] at split
      obtain ⟨rfl, _⟩ := List.append_inj' split rfl
      exact always first e' rest' outs' middle' rfl ran

theorem always_invariant (step : σ → ε → Except φ (ω × σ)) (guard : σ → ε → Prop) (s : σ) (P : σ → ε → Prop)
    (inv : σ → Prop) (start : inv s)
    (kept : ∀ middle e out after, inv middle → P middle e → guard middle e → step middle e = .ok (out, after) → inv after)
    (evs : List ε) (outs : List ω) (last : σ) (run : Run step guard s evs outs last)
    (always : Always step guard s P evs) : inv last := by
  induction run with
  | start => exact start
  | next evs outs middle e out after before allowed done ih =>
      exact kept middle e out after (ih (always_before step guard s P evs [e] always))
        (always evs e [] outs middle rfl before) allowed done

-- What holds at every event by an invariant that the events keep while they meet P.
theorem always_imp (step : σ → ε → Except φ (ω × σ)) (guard : σ → ε → Prop) (s : σ) (P Q : σ → ε → Prop)
    (inv : σ → Prop) (start : inv s)
    (kept : ∀ middle e out after, inv middle → P middle e → guard middle e → step middle e = .ok (out, after) → inv after)
    (holds : ∀ middle e, inv middle → P middle e → guard middle e → Q middle e)
    (evs : List ε) (outs : List ω) (last : σ) (run : Run step guard s evs outs last)
    (always : Always step guard s P evs) : Always step guard s Q evs := by
  rintro first e rest outsFirst middle rfl ran
  have split : first ++ e :: rest = (first ++ [e]) ++ rest := by simp
  obtain ⟨_, after, longer⟩ := before step guard s (first ++ [e]) rest outs last (split ▸ run)
  obtain ⟨_, _, met, _, again, allowed, _⟩ := last_step step guard s after first e _ longer
  obtain ⟨_, rfl⟩ := unique step guard s middle met first _ _ ran again
  exact holds met e (always_invariant step guard s P inv start kept first _ met again
    (always_before step guard s P first (e :: rest) always)) (always first e rest _ met rfl again) allowed

-- Two properties of the events that agree wherever an invariant holds.
theorem always_iff (step : σ → ε → Except φ (ω × σ)) (guard : σ → ε → Prop) (s : σ) (P Q : σ → ε → Prop) (inv : σ → Prop)
    (start : inv s)
    (kept : ∀ middle e out after, inv middle → guard middle e → step middle e = .ok (out, after) → inv after)
    (evs : List ε) (agree : ∀ middle e, inv middle → e ∈ evs → (P middle e ↔ Q middle e)) :
    Always step guard s P evs ↔ Always step guard s Q evs := by
  have reached : ∀ first outs middle, Run step guard s first outs middle → inv middle := fun first outs middle run =>
    rule step guard s (fun _ _ middle => inv middle) start (fun _ _ middle e out after => kept middle e out after)
      first outs middle run
  constructor
  · intro always first e rest outs middle split run
    exact (agree middle e (reached first outs middle run) (by simp [split])).mp (always first e rest outs middle split run)
  · intro always first e rest outs middle split run
    exact (agree middle e (reached first outs middle run) (by simp [split])).mpr (always first e rest outs middle split run)

def check (step : σ → ε → Except φ (ω × σ)) (P : σ → ε → Prop) [∀ s e, Decidable (P s e)] : σ → List ε → Bool
  | _, [] => true
  | s, e :: rest =>
      decide (P s e) &&
        match step s e with
        | .error _ => true
        | .ok (_, after) => check step P after rest

theorem check_always (step : σ → ε → Except φ (ω × σ)) (guard : σ → ε → Prop) (P : σ → ε → Prop)
    [∀ s e, Decidable (P s e)] (s : σ) (evs : List ε) (checked : check step P s evs = true) :
    Always step guard s P evs := by
  have later : ∀ first outs middle, Run step guard s first outs middle →
      ∀ rest, check step P s (first ++ rest) = true → check step P middle rest = true := by
    intro first outs middle run
    induction run with
    | start => exact fun _ => id
    | next evs outs middle e out after _ _ done ih =>
        intro rest whole
        have here := ih (e :: rest) (by simpa using whole)
        simp only [check, done, Bool.and_eq_true] at here
        exact here.2
  rintro first e rest outs middle rfl run
  have here := later first outs middle run (e :: rest) checked
  simp only [check, Bool.and_eq_true, decide_eq_true_eq] at here
  exact here.1

def eval (step : σ → ε → Except φ (ω × σ)) (guard : σ → ε → Prop) [∀ s e, Decidable (guard s e)] :
    σ → List ε → Option (List ω × σ)
  | s, [] => some ([], s)
  | s, e :: rest =>
      if guard s e then
        match step s e with
        | .error _ => none
        | .ok (out, after) => (eval step guard after rest).map fun result => (out :: result.1, result.2)
      else none

theorem eval_run (step : σ → ε → Except φ (ω × σ)) (guard : σ → ε → Prop) [∀ s e, Decidable (guard s e)] (s last : σ)
    (evs : List ε) (outs : List ω) (computed : eval step guard s evs = some (outs, last)) :
    Run step guard s evs outs last := by
  induction evs generalizing s outs with
  | nil =>
      cases computed
      exact .start
  | cons e rest ih =>
      by_cases allowed : guard s e
      · cases done : step s e with
        | error fault => simp [eval, allowed, done] at computed
        | ok pair =>
            obtain ⟨out, next⟩ := pair
            simp only [eval, if_pos allowed, done, Option.map_eq_some_iff, Prod.mk.injEq] at computed
            obtain ⟨⟨outsRest, final⟩, later, rfl, rfl⟩ := computed
            exact cons step guard s next final e out allowed done rest outsRest (ih next outsRest later)
      · simp [eval, allowed] at computed

end Run

theorem count_passes {ε : Type} (p : ε → Bool) (evs : List ε) (k : Nat) (above : k < evs.countP p) :
    ∃ first e rest, evs = first ++ e :: rest ∧ p e = true ∧ first.countP p = k := by
  induction evs generalizing k with
  | nil => simp at above
  | cons e rest ih =>
      by_cases hit : p e = true
      · cases k with
        | zero => exact ⟨[], e, rest, rfl, hit, rfl⟩
        | succ k =>
            rw [List.countP_cons_of_pos hit] at above
            obtain ⟨first, later, tail, rfl, holds, count⟩ := ih k (by omega)
            exact ⟨e :: first, later, tail, rfl, holds, by rw [List.countP_cons_of_pos hit, count]⟩
      · rw [List.countP_cons_of_neg hit] at above
        obtain ⟨first, later, tail, rfl, holds, count⟩ := ih k above
        exact ⟨e :: first, later, tail, rfl, holds, by rw [List.countP_cons_of_neg hit, count]⟩

end LinuxModule
