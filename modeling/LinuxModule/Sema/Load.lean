import LinuxModule.Sema.SemaModule

set_option autoImplicit false

namespace LinuxModule.Sema

variable {ω : Type} [DecidableEq ω]

-- sema_init is the last call of hello_init.
def Device.initialised (d : Device ω) : Prop := d.point = .loaded

instance (d : Device ω) : Decidable d.initialised := inferInstanceAs (Decidable (_ = _))

-- Opens, their ends and releases work on a semaphore that sema_init has set up, and
-- sema_init runs while nobody has anything to do with it.
def Device.Proper (d : Device ω) : Event ω → Prop
  | .init _ => d.point = .deviceCreated → d.opened = [] ∧ d.waiting = []
  | .openFile _ => d.initialised
  | .signal _ => d.initialised
  | .release _ _ => d.initialised

def Device.NoEarlyOpen (d : Device ω) : Event ω → Prop
  | .openFile _ => d.initialised
  | .init _ => True
  | .signal _ => True
  | .release _ _ => True

def Untouched (d : Device ω) : Prop := ¬ d.initialised → d.opened = [] ∧ d.waiting = []

theorem untouched_step (d : Device ω) (e : Event ω) (out : List (ω × Int)) (next : Device ω) (untouched : Untouched d)
    (late : d.NoEarlyOpen e) (allowed : d.enabled e) (done : d.step e = .ok (out, next)) : Untouched next := by
  cases e with
  | init result =>
      by_cases last : d.point = .deviceCreated
      · rw [d.step_sema_init result last] at done
        cases done
        exact fun unset => absurd rfl unset
      · rw [d.step_init result last] at done
        cases done
        intro _
        apply untouched
        have running : d.point.running = true := allowed
        intro loaded
        rw [loaded] at running
        cases running
  | openFile file =>
      have loaded : d.point = .loaded := late
      intro unset
      refine absurd ?_ unset
      by_cases free : 0 < d.sem.count
      · rw [d.step_open_free file free] at done
        cases done
        exact loaded
      · rw [d.step_open_busy file (by omega)] at done
        cases done
        exact loaded
  | signal file =>
      rw [d.step_signal] at done
      cases done
      intro unset
      obtain ⟨opened, waiting⟩ := untouched unset
      refine ⟨opened, ?_⟩
      simp only [waiting]
      rfl
  | release file handed =>
      have isOpen : file ∈ d.opened := allowed.2.1
      have loaded : d.point = .loaded := by
        by_contra unset
        rw [(untouched unset).1] at isOpen
        cases isOpen
      intro unset
      refine absurd ?_ unset
      cases handed with
      | none =>
          rw [d.step_release_idle] at done
          cases done
          exact loaded
      | some woken =>
          rw [d.step_release_handover] at done
          cases done
          exact loaded

omit [DecidableEq ω] in
theorem untouched_proper (d : Device ω) (e : Event ω) (untouched : Untouched d) (late : d.NoEarlyOpen e)
    (allowed : d.enabled e) : d.Proper e := by
  cases e with
  | init result =>
      intro last
      apply untouched
      rw [Device.initialised, last]
      exact fun impossible => nomatch impossible
  | openFile file => exact late
  | signal file =>
      have asleep : file ∈ d.waiting := allowed
      by_contra unset
      rw [(untouched unset).2] at asleep
      cases asleep
  | release file handed =>
      have isOpen : file ∈ d.opened := allowed.2.1
      by_contra unset
      rw [(untouched unset).1] at isOpen
      cases isOpen

theorem load_proper_iff (evs : List (Event ω)) (outs : List (List (ω × Int))) (d : Device ω)
    (run : Run Device.step Device.enabled Device.unloaded evs outs d) :
    Run.Always Device.step Device.enabled Device.unloaded Device.Proper evs ↔
      Run.Always Device.step Device.enabled Device.unloaded Device.NoEarlyOpen evs := by
  constructor
  · intro proper first e rest outsFirst middle split ran
    have here := proper first e rest outsFirst middle split ran
    cases e with
    | openFile file => exact here
    | _ => trivial
  · exact Run.always_imp _ _ _ _ _ Untouched (fun _ => ⟨rfl, rfl⟩) untouched_step
      untouched_proper evs outs d run

def undisturbedLoad : List (Event Nat) := [.init 0, .init 0, .init 0, .init 0, .openFile 7, .release 7 none]

theorem undisturbed_load_proper_iff :
    Run.Always Device.step Device.enabled Device.unloaded Device.Proper undisturbedLoad ↔
      Run.Always Device.step Device.enabled Device.unloaded Device.NoEarlyOpen undisturbedLoad :=
  load_proper_iff undisturbedLoad [[], [], [], [], [(7, 0)], []] ⟨.loaded, ⟨1, []⟩, [], []⟩
    (Run.eval_run _ _ _ _ _ _ (by decide +kernel))

theorem early_open_improper : ¬ ∀ (evs : List (Event Nat)) (outs : List (List (Nat × Int))) (d : Device Nat),
    Run Device.step Device.enabled Device.unloaded evs outs d →
      Run.Always Device.step Device.enabled Device.unloaded Device.Proper evs := by
  intro claimed
  have registered : Run Device.step Device.enabled (Device.unloaded : Device Nat) [.init 0] [[]]
      ⟨.registered, ⟨0, []⟩, [], []⟩ := Run.eval_run _ _ _ _ _ _ (by decide +kernel)
  have opened : Run Device.step Device.enabled (Device.unloaded : Device Nat) [.init 0, .openFile 7] [[], []]
      ⟨.registered, ⟨0, [7]⟩, [7], []⟩ := Run.eval_run _ _ _ _ _ _ (by decide +kernel)
  have proper : InitPoint.registered = .loaded := claimed _ _ _ opened [.init 0] (.openFile 7) [] _ _ rfl registered
  cases proper

end LinuxModule.Sema
