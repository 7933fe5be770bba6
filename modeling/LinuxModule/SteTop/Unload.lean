import LinuxModule.SteTop.SafeCalls
import LinuxModule.SteTop.FrameLoop
import LinuxModule.SteTop.Exit
import LinuxModule.Base.Runs

set_option autoImplicit false

namespace LinuxModule.SteTop

-- proc_stats_exit, statement by statement. remove_proc_entry frees nothing of the module.
inductive ExitStep where
  | emptyOld
  | freeRows
  | kfreeArray
  | removeProcEntry
deriving DecidableEq, Repr

def exitSteps : List ExitStep := [.emptyOld, .freeRows, .kfreeArray, .removeProcEntry]

def ExitStep.run : ExitStep → W Unit
  | .emptyOld => onTables fun t => (SteTop.emptyOld t).map fun t => ((), t)
  | .freeRows => onSlots fun t => (SteTop.freeRows t).map fun t => ((), t)
  | .kfreeArray =>
      onSlots fun t => (SteTop.kfreeArray t.processInfo t.arrays).map fun arrays => ((), { t with arrays := arrays })
  | .removeProcEntry => pure ()

-- The module while it is unloaded: what proc_stats_exit has still to do, and how many
-- calls of its frame_make each writer has made.
structure Unloading where
  globals : Globals
  exit : List ExitStep
  progress : Nat → Nat

inductive UnloadEvent where
  | write (i : Nat)
  | exit
deriving DecidableEq, Repr

def loaded : Unloading := ⟨initial, exitSteps, fun _ => 0⟩

section Unload

variable (hash : Hash) (frames : List Frame)

-- Each writer makes one write, frames are what they read from the kernel.
def nextCall (u : Unloading) (i : Nat) : Option Call := (frames[i]?).bind fun f => f.calls[u.progress i]?

def unloadStep (u : Unloading) : UnloadEvent → Except Fault (Unit × Unloading)
  | .write i =>
      match nextCall frames u i with
      | none => .ok ((), u)
      | some call =>
          (Walk.final (call.run hash) u.globals).map fun s =>
            ((), { u with globals := s, progress := fun j => if j = i then u.progress i + 1 else u.progress j })
  | .exit =>
      match u.exit with
      | [] => .ok ((), u)
      | step :: rest => (Walk.final step.run u.globals).map fun s => ((), { u with globals := s, exit := rest })

-- A write begins with its first call, and only while the file is still there;
-- remove_proc_entry waits for those that have begun.
def unloadEnabled (u : Unloading) : UnloadEvent → Prop
  | .write i => nextCall frames u i ≠ none ∧ (u.progress i = 0 → u.exit ≠ [])
  | .exit =>
      u.exit ≠ [] ∧ (u.exit = [.removeProcEntry] → ∀ i < frames.length, u.progress i = 0 ∨ nextCall frames u i = none)

instance (u : Unloading) (e : UnloadEvent) : Decidable (unloadEnabled frames u e) :=
  match e with
  | .write i => decidable_of_iff ((nextCall frames u i).isSome = true ∧ (u.progress i = 0 → u.exit ≠ []))
      (and_congr_left' Option.isSome_iff_ne_none)
  | .exit => decidable_of_iff (u.exit ≠ [] ∧ (u.exit = [.removeProcEntry] →
      ∀ i < frames.length, u.progress i = 0 ∨ (nextCall frames u i).isNone = true))
      (by simp only [unloadEnabled, Option.isNone_iff_eq_none])

-- A writer goes through process_info only while nothing behind it has been freed.
def WritesIntact (u : Unloading) (e : UnloadEvent) : Prop :=
  ∀ i, e = .write i → ∀ call ∈ nextCall frames u i, Harmless u.globals.slots call

instance (u : Unloading) (e : UnloadEvent) : Decidable (WritesIntact frames u e) :=
  match e with
  | .write i => decidable_of_iff (∀ call ∈ nextCall frames u i, Harmless u.globals.slots call)
      ⟨fun holds j same => by
        cases same
        exact holds, fun holds => holds i rfl⟩
  | .exit => isTrue (fun i impossible => by cases impossible)

theorem exit_steps_run (s : Globals) :
    Walk.final (Walk.forEach exitSteps ExitStep.run) s = Walk.final procStatsExit s := by
  simp only [exitSteps, Walk.forEach, procStatsExit, ExitStep.run]
  refine Walk.final_congr _ _ _ s fun _ emptied => ?_
  refine Walk.final_congr _ _ _ emptied fun _ freed => ?_
  exact Walk.final_bind_pure _ () freed

theorem exit_step_sampled (step : ExitStep) (s after : Globals) (sampled : Sampled hash s.tables)
    (ran : Walk.final step.run s = .ok after) : Sampled hash after.tables := by
  cases step with
  | emptyOld =>
      obtain ⟨start, old, new, sampling⟩ := sampled
      obtain ⟨tables, emptied, _, kept⟩ := empty_old_spec hash s.tables start old new sampling
      rw [ExitStep.run] at ran
      obtain ⟨_, found, again, rfl⟩ := final_on_tables _ s after ran
      rw [emptied, except_ok_map] at again
      cases again
      exact ⟨_, _, _, kept⟩
  | freeRows =>
      obtain ⟨_, _, _, rfl⟩ := final_on_slots _ s after ran
      exact sampled
  | kfreeArray =>
      obtain ⟨_, _, _, rfl⟩ := final_on_slots _ s after ran
      exact sampled
  | removeProcEntry => exact Except.ok.inj ran ▸ sampled

theorem empty_old_safe (s after : Globals) (safe : Safe hash s) (ran : Walk.final ExitStep.emptyOld.run s = .ok after) :
    Safe hash after := by
  refine ⟨exit_step_sampled hash .emptyOld s after safe.sampled ran, ?_⟩
  rw [ExitStep.run] at ran
  obtain ⟨_, _, _, rfl⟩ := final_on_tables _ s after ran
  exact safe.intact

theorem write_done (u next : Unloading) (i : Nat) (done : unloadStep hash frames u (.write i) = .ok ((), next)) :
    next = u ∨ ∃ call after, nextCall frames u i = some call ∧ Walk.final (call.run hash) u.globals = .ok after ∧
      next.globals = after ∧ next.exit = u.exit := by
  cases ready : nextCall frames u i with
  | none =>
      simp only [unloadStep, ready, Except.ok.injEq, Prod.mk.injEq, true_and] at done
      exact .inl done.symm
  | some call =>
      simp only [unloadStep, ready] at done
      obtain ⟨after, ran, same⟩ := (except_map_ok _ _ _).mp done
      obtain rfl := (Prod.mk.inj same).2
      exact .inr ⟨call, after, rfl, ran, rfl, rfl⟩

theorem exit_done (u next : Unloading) (done : unloadStep hash frames u .exit = .ok ((), next)) :
    next = u ∨ ∃ step after, u.exit = step :: next.exit ∧ Walk.final step.run u.globals = .ok after ∧
      next.globals = after := by
  cases left : u.exit with
  | nil =>
      simp only [unloadStep, left, Except.ok.injEq, Prod.mk.injEq, true_and] at done
      exact .inl done.symm
  | cons step rest =>
      simp only [unloadStep, left] at done
      obtain ⟨after, ran, same⟩ := (except_map_ok _ _ _).mp done
      obtain rfl := (Prod.mk.inj same).2
      exact .inr ⟨step, after, rfl, ran, rfl⟩

theorem call_sampled (call : Call) (s after : Globals) (sampled : Sampled hash s.tables)
    (harmless : Harmless s.slots call) (ran : Walk.final (call.run hash) s = .ok after) :
    Sampled hash after.tables ∧ (Intact s.slots → Intact after.slots) := by
  have spares := sparing_final _ s _ (call_spares hash call s sampled harmless)
  rw [ran] at spares
  obtain ⟨_, kept⟩ := spares
  exact kept

theorem intact_before_rows (evs : List UnloadEvent) (outs : List Unit) (last : Unloading)
    (run : Run (unloadStep hash frames) (unloadEnabled frames) loaded evs outs last) :
    last.exit <:+ exitSteps ∧ (.freeRows ∈ last.exit → Safe hash last.globals) := by
  induction run with
  | start => exact ⟨List.suffix_rfl, fun _ => safe_initial hash⟩
  | next evs outs middle e out after _ _ done ih =>
      obtain ⟨suffix, safe⟩ := ih
      cases e with
      | write i =>
          rcases write_done hash frames middle after i done with rfl | ⟨call, s, _, ran, rfl, sameExit⟩
          · exact ⟨suffix, safe⟩
          · rw [sameExit]
            refine ⟨suffix, fun ahead => ?_⟩
            have before := safe ahead
            obtain ⟨sampled, intact⟩ := call_sampled hash call middle.globals _ before.sampled
              (intact_harmless _ before.intact call) ran
            exact ⟨sampled, intact before.intact⟩
      | exit =>
          rcases exit_done hash frames middle after done with rfl | ⟨step, s, exit, ran, rfl⟩
          · exact ⟨suffix, safe⟩
          · rw [exit] at suffix safe
            refine ⟨(List.suffix_cons step after.exit).trans suffix, fun ahead => ?_⟩
            have first : step = .emptyOld := by
              simp only [exitSteps, List.suffix_cons_iff, List.cons.injEq, List.suffix_nil] at suffix
              rcases suffix with ⟨same, _⟩ | ⟨_, rest⟩ | ⟨_, rest⟩ | ⟨_, rest⟩ | impossible
              · exact same
              · simp [rest] at ahead
              · simp [rest] at ahead
              · simp [rest] at ahead
              · cases impossible
            exact empty_old_safe hash middle.globals _ (safe (List.mem_cons_of_mem _ ahead)) (first ▸ ran)

theorem unload_spares_writers (evs : List UnloadEvent) (outs : List Unit) (last : Unloading)
    (run : Run (unloadStep hash frames) (unloadEnabled frames) loaded evs outs last) :
    (.freeRows ∈ last.exit → Intact last.globals.slots) ∧
    ∀ i, unloadEnabled frames last (.write i) →
      Run.Always (unloadStep hash frames) (unloadEnabled frames) loaded (WritesIntact frames) (evs ++ [.write i]) →
      unloadStep hash frames last (.write i) ≠ .error .badAddress := by
  refine ⟨fun ahead => ((intact_before_rows hash frames evs outs last run).2 ahead).intact, fun i allowed always => ?_⟩
  have sampled : Sampled hash last.globals.tables :=
    Run.always_invariant _ _ loaded (WritesIntact frames) (fun u => Sampled hash u.globals.tables)
      (safe_initial hash).sampled (by
        rintro middle e out after sampled careful _ done
        cases e with
        | write j =>
            rcases write_done hash frames middle after j done with rfl | ⟨call, s, ready, ran, rfl, _⟩
            · exact sampled
            · exact (call_sampled hash call middle.globals _ sampled (careful j rfl call ready) ran).1
        | exit =>
            rcases exit_done hash frames middle after done with rfl | ⟨step, s, _, ran, rfl⟩
            · exact sampled
            · exact exit_step_sampled hash step middle.globals _ sampled ran)
      evs outs last run (Run.always_before _ _ loaded _ evs [.write i] always)
  have careful := always evs (.write i) [] outs last rfl run
  cases ready : nextCall frames last i with
  | none => exact absurd ready allowed.1
  | some call =>
      have spares := sparing_final _ last.globals _ (call_spares hash call last.globals sampled (careful i rfl call ready))
      simp only [unloadStep, ready]
      cases ran : Walk.final (call.run hash) last.globals with
      | ok after => simp
      | error fault =>
          rw [ran] at spares
          intro same
          exact spares (Except.error.inj same)

end Unload

-- A write of one process has walked and sleeps; the rows are freed, and it walks again.
def freedUnderWriter : List UnloadEvent := [.write 0, .write 0, .exit, .exit, .write 0]

theorem unload_frees_under_writer :
    ¬ ∀ (hash : Hash) (frames : List Frame) (evs : List UnloadEvent) (outs : List Unit) (last : Unloading),
      Run (unloadStep hash frames) (unloadEnabled frames) loaded evs outs last → ∀ i,
        unloadEnabled frames last (.write i) → unloadStep hash frames last (.write i) ≠ .error .badAddress := by
  intro claimed
  have walks : (Run.eval (unloadStep (fun _ => 0) [oneProcess]) (unloadEnabled [oneProcess]) loaded freedUnderWriter).map
      (fun r => decide (unloadEnabled [oneProcess] r.2 (.write 0)) &&
        match unloadStep (fun _ => 0) [oneProcess] r.2 (.write 0) with
        | .error fault => decide (fault = .badAddress)
        | .ok _ => false) = some true := by decide +kernel
  cases ran : Run.eval (unloadStep (fun _ => 0) [oneProcess]) (unloadEnabled [oneProcess]) loaded freedUnderWriter with
  | none => simp [ran] at walks
  | some r =>
      simp only [ran, Option.map_some, Option.some.injEq, Bool.and_eq_true, decide_eq_true_eq] at walks
      obtain ⟨allowed, faults⟩ := walks
      have run := Run.eval_run (unloadStep (fun _ => 0) [oneProcess]) (unloadEnabled [oneProcess]) loaded r.2 _ r.1 ran
      have spared := claimed (fun _ => 0) [oneProcess] freedUnderWriter r.1 r.2 run 0 allowed
      cases result : unloadStep (fun _ => 0) [oneProcess] r.2 (.write 0) with
      | ok _ => simp [result] at faults
      | error fault =>
          rw [result] at faults spared
          exact spared (congrArg _ (by simpa using faults))

def writtenBeforeRows : List UnloadEvent :=
  List.replicate 6 (.write 0) ++ [.exit, .write 1]

theorem early_writers_spared :
    ∃ outs last, Run (unloadStep (fun _ => 0) [oneProcess, oneProcess]) (unloadEnabled [oneProcess, oneProcess]) loaded
        writtenBeforeRows outs last ∧
      unloadStep (fun _ => 0) [oneProcess, oneProcess] last (.write 1) ≠ .error .badAddress := by
  have walks : (Run.eval (unloadStep (fun _ => 0) [oneProcess, oneProcess]) (unloadEnabled [oneProcess, oneProcess]) loaded
      writtenBeforeRows).map (fun r => decide (unloadEnabled [oneProcess, oneProcess] r.2 (.write 1))) = some true := by
    decide +kernel
  have checked : Run.check (unloadStep (fun _ => 0) [oneProcess, oneProcess]) (WritesIntact [oneProcess, oneProcess]) loaded
      (writtenBeforeRows ++ [.write 1]) = true := by decide +kernel
  cases ran : Run.eval (unloadStep (fun _ => 0) [oneProcess, oneProcess]) (unloadEnabled [oneProcess, oneProcess]) loaded
      writtenBeforeRows with
  | none => simp [ran] at walks
  | some r =>
      have allowed : unloadEnabled [oneProcess, oneProcess] r.2 (.write 1) := by simpa [ran] using walks
      have run := Run.eval_run _ _ loaded r.2 writtenBeforeRows r.1 ran
      exact ⟨r.1, r.2, run, (unload_spares_writers (fun _ => 0) [oneProcess, oneProcess] writtenBeforeRows r.1 r.2 run).2 1
        allowed (Run.check_always _ _ _ loaded _ checked)⟩

end LinuxModule.SteTop
