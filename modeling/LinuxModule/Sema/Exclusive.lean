import LinuxModule.Sema.SemaModule

set_option autoImplicit false

namespace LinuxModule.Sema

variable {ω : Type} [DecidableEq ω]

structure Exclusive (d : Device ω) : Prop where
  loaded : d.point = .loaded
  balanced : d.sem.Balanced d.opened.length 1
  asleep : d.waiting = d.sem.waitList

theorem exclusive_step (d next : Device ω) (e : Event ω) (out : List (ω × Int)) (exclusive : Exclusive d)
    (allowed : d.enabled e) (done : d.step e = .ok (out, next)) : Exclusive next := by
  obtain ⟨loaded, balanced, asleep⟩ := exclusive
  cases e with
  | init result =>
      have running : d.point.running = true := allowed
      rw [loaded] at running
      cases running
  | openFile file =>
      have after := Semaphore.balanced_down d.sem file d.opened.length 1 balanced
      by_cases free : 0 < d.sem.count
      · rw [d.step_open_free file free] at done
        rw [Semaphore.down_free _ _ free] at after
        cases done
        exact ⟨loaded, after, asleep⟩
      · rw [d.step_open_busy file (by omega)] at done
        rw [Semaphore.down_busy _ _ (by omega)] at after
        cases done
        refine ⟨loaded, after, ?_⟩
        rw [asleep]
  | signal file =>
      rw [d.step_signal] at done
      cases done
      exact ⟨loaded, Semaphore.balanced_leave d.sem file _ 1 balanced, by rw [asleep, Semaphore.leave]⟩
  | release file handed =>
      obtain ⟨_, isOpen, picks⟩ := allowed
      have length : (d.opened.erase file).length + 1 = d.opened.length := by
        rw [List.length_erase_of_mem isOpen]
        have := List.length_pos_of_mem isOpen
        omega
      have after := Semaphore.balanced_up d.sem handed (d.opened.erase file).length 1 picks (by rwa [length])
      cases handed with
      | none =>
          rw [d.step_release_idle] at done
          cases done
          exact ⟨loaded, after, asleep⟩
      | some woken =>
          rw [d.step_release_handover] at done
          cases done
          exact ⟨loaded, after, by rw [asleep, Semaphore.up]⟩

-- While hello_init runs alone nothing but sema_init touches the semaphore.
theorem init_alone (results : List Int) (outs : List (List (ω × Int))) (d : Device ω)
    (init : Run Device.step Device.enabled Device.unloaded (results.map Event.init) outs d) :
    d.opened = [] ∧ d.waiting = [] ∧ (d.point = .loaded → d.sem = Semaphore.init 1) := by
  have inv := Run.rule Device.step Device.enabled Device.unloaded
    (fun evs _ d => (∀ e ∈ evs, ∃ result, e = .init result) → d.opened = [] ∧ d.waiting = [] ∧
      (d.point = .loaded → d.sem = Semaphore.init 1)) (by simp [Device.unloaded]) (by
      intro evs outs middle e out after kept allowed done only
      obtain ⟨opened, waiting, _⟩ := kept fun e member => only e (by simp [member])
      obtain ⟨result, rfl⟩ := only e (by simp)
      have running : middle.point.running = true := allowed
      by_cases last : middle.point = .deviceCreated
      · rw [middle.step_sema_init result last] at done
        cases done
        exact ⟨opened, waiting, fun _ => rfl⟩
      · rw [middle.step_init result last] at done
        cases done
        refine ⟨opened, waiting, fun loaded => ?_⟩
        cases at_ : middle.point <;> simp_all [InitPoint.next, InitPoint.running] <;> split at loaded <;> cases loaded)
    _ outs d init
  exact inv (by simp)

theorem exclusive_loaded (results : List Int) (outs : List (List (ω × Int))) (d : Device ω)
    (init : Run Device.step Device.enabled Device.unloaded (results.map Event.init) outs d) (complete : d.point = .loaded) :
    Exclusive d := by
  obtain ⟨opened, waiting, sem⟩ := init_alone results outs d init
  have fresh := sem complete
  refine ⟨complete, ?_, ?_⟩
  · rw [fresh, opened]
    exact Semaphore.balanced_init 1
  · rw [waiting, fresh]
    rfl

theorem exclusive_run (start s : Device ω) (exclusive : Exclusive start) (evs : List (Event ω))
    (outs : List (List (ω × Int))) (run : Run Device.step Device.enabled start evs outs s) : Exclusive s :=
  Run.rule _ _ _ (fun _ _ s => Exclusive s) exclusive
    (fun _ _ middle e out after kept allowed done => exclusive_step middle after e out kept allowed done) evs outs s run

theorem one_open_at_a_time (results : List Int) (outsInit : List (List (ω × Int))) (d : Device ω)
    (init : Run Device.step Device.enabled Device.unloaded (results.map Event.init) outsInit d)
    (complete : d.point = .loaded) (evs : List (Event ω)) (outs : List (List (ω × Int))) (s : Device ω)
    (run : Run Device.step Device.enabled d evs outs s) :
    s.sem.count + s.opened.length = 1 ∧ s.opened.length ≤ 1 ∧
      (∀ file, s.enabled (.signal file) → ∃ next, s.step (.signal file) = .ok ([(file, -erestartsys)], next) ∧
        next.sem.count = s.sem.count ∧ next.opened = s.opened) ∧
      (s.opened = [] → s.waiting = [] ∧ ∀ file, s.enabled (.openFile file) →
        ∃ next, s.step (.openFile file) = .ok ([(file, 0)], next) ∧ next.opened = [file]) := by
  obtain ⟨_, balanced, asleep⟩ := exclusive_run d s (exclusive_loaded results outsInit d init complete) evs outs run
  have conserved := balanced.conserved
  refine ⟨conserved, by omega, fun file _ => ⟨_, s.step_signal file, rfl, rfl⟩, fun closed => ?_⟩
  rw [closed, List.length_nil] at conserved
  have nobody : s.sem.waitList = [] := by
    by_contra sleepers
    have busy := balanced.busy sleepers
    omega
  refine ⟨asleep.trans nobody, fun file _ => ⟨_, s.step_open_free file (by omega), ?_⟩⟩
  simp only [closed]

-- One user has the device open, a second one waits for it and is interrupted.
theorem contended_open : ∃ s : Device Nat, s.sem.count + s.opened.length = 1 ∧ s.opened.length ≤ 1 ∧
    (∀ file, s.enabled (.signal file) → ∃ next, s.step (.signal file) = .ok ([(file, -erestartsys)], next) ∧
      next.sem.count = s.sem.count ∧ next.opened = s.opened) ∧
    (s.opened = [] → s.waiting = [] ∧ ∀ file, s.enabled (.openFile file) →
      ∃ next, s.step (.openFile file) = .ok ([(file, 0)], next) ∧ next.opened = [file]) :=
  ⟨_, one_open_at_a_time (ω := Nat) [0, 0, 0, 0] [[], [], [], []] ⟨.loaded, ⟨1, []⟩, [], []⟩
    (Run.eval_run _ _ _ _ _ _ (by decide +kernel)) rfl [.openFile 1, .openFile 2, .signal 2]
    [[(1, 0)], [], [(2, -512)]] ⟨.loaded, ⟨0, []⟩, [], [1]⟩ (Run.eval_run _ _ _ _ _ _ (by decide +kernel))⟩

end LinuxModule.Sema
