import LinuxModule.SteTop.Generations
import LinuxModule.SteTop.Sorting

set_option autoImplicit false

namespace LinuxModule.SteTop

def Call.refresh : Call → Option Refresh
  | .procsRefresh r => some r
  | _ => none

def refreshes (calls : List Call) : List Refresh := calls.filterMap Call.refresh

@[simp] theorem refreshes_append (before after : List Call) :
    refreshes (before ++ after) = refreshes before ++ refreshes after := List.filterMap_append

-- What the last call, when it was a procs_refresh, has put in the slots.
def JustVisited (calls : List Call) (s : Globals) (rows : List Nat) : Prop :=
  ∀ earlier r, calls = earlier ++ [.procsRefresh r] →
    ∃ before, Complete (lastSamples (refreshes earlier)) before r.visits (samplesOf r) rows s

section Calls

variable (hash : Hash)

theorem sort_rows_walked (rely : Point → Globals → Prop) (sort : SortFn) (s : Globals) (start : Nat) (old new : List Hst)
    (rows : List Nat) (walked : Walked hash s start old new rows) :
    Walk.Meets (upkeep rely) (sortRows sort) s (fun _ after => ∃ placed, Walked hash after start old new placed ∧
      placed.length = rows.length) := by
  obtain ⟨next, placed, sorted, owned, permuted, _, _⟩ := sort_slots_owned sort s.slots rows walked.owned
  exact meets_on_slots _ _ s () next _ (by rw [sorted, except_ok_map])
    ⟨placed, ⟨walked.sampling, owned⟩, permuted.length_eq⟩

theorem show_procs_walked (rely : Point → Globals → Prop) (si : SysInfo) (s : Globals) (start : Nat) (old new : List Hst)
    (rows : List Nat) (walked : Walked hash s start old new rows) :
    Walk.Meets (upkeep rely) (showProcs si) s (fun _ after => Walked hash after start old new rows) := by
  obtain ⟨infos, shown⟩ := shown_rows_owned s.slots rows walked.owned
  apply Walk.meets_bind
  apply Walk.meets_modify
  apply Walk.meets_bind
  apply Walk.meets_get
  apply Walk.meets_bind
  refine meets_on_slots _ _ _ infos s.slots _ (by rw [shown, except_ok_map]) ?_
  exact Walk.meets_pure _ _ _ _ ⟨walked.sampling, walked.owned⟩

theorem call_meets (done : List Call) (call : Call) (s : Globals) (rows : List Nat)
    (sofar : Refreshed hash (refreshes done) s rows) :
    Walk.Meets (upkeep served) (call.run hash) s (fun _ after =>
      ∃ placed, Refreshed hash (refreshes (done ++ [call])) after placed ∧ JustVisited (done ++ [call]) after placed) := by
  have quiet : call.refresh = none → ∀ after placed, Refreshed hash (refreshes done) after placed →
      Refreshed hash (refreshes (done ++ [call])) after placed ∧ JustVisited (done ++ [call]) after placed := by
    intro still after placed kept
    refine ⟨by simpa [refreshes, still] using kept, fun earlier r split => ?_⟩
    obtain ⟨_, same⟩ := List.append_inj' split rfl
    obtain rfl : call = .procsRefresh r := by simpa using same
    simp [Call.refresh] at still
  cases call with
  | updateCpuTimes cpus =>
      apply Walk.meets_bind
      apply Walk.meets_modify
      exact Walk.meets_pure _ _ _ _ ⟨rows, quiet rfl _ rows
        ⟨⟨sofar.walked.sampling, sofar.walked.owned⟩, sofar.longest⟩⟩
  | procsRefresh r =>
      apply Walk.meets_bind
      apply Walk.meets_mono _ _ _ _ _ (refreshed_step hash (refreshes done) r s rows sofar)
      rintro _ after ⟨placed, kept, complete⟩
      refine Walk.meets_pure _ _ _ _ ⟨placed, by simpa [refreshes, Call.refresh] using kept, fun earlier last split => ?_⟩
      obtain ⟨rfl, same⟩ := List.append_inj' split rfl
      obtain rfl : r = last := by simpa using same
      exact ⟨rows, complete⟩
  | sortRows sort =>
      apply Walk.meets_bind
      apply Walk.meets_mono _ _ _ _ _ (sort_rows_walked hash served sort s _ _ _ rows sofar.walked)
      rintro _ after ⟨placed, kept, length⟩
      exact Walk.meets_pure _ _ _ _ ⟨placed, quiet rfl after placed ⟨kept, length.trans sofar.longest⟩⟩
  | showProcs si =>
      apply Walk.meets_bind
      apply Walk.meets_mono _ _ _ _ _ (show_procs_walked hash served si s _ _ _ rows sofar.walked)
      intro _ after kept
      exact Walk.meets_pure _ _ _ _ ⟨rows, quiet rfl after rows ⟨kept, sofar.longest⟩⟩

theorem run_calls_meets (done calls : List Call) (s : Globals) (rows : List Nat)
    (sofar : Refreshed hash (refreshes done) s rows) (visited : JustVisited done s rows) :
    Walk.Meets (upkeep served) (runCalls hash calls) s (fun _ after =>
      ∃ placed, Refreshed hash (refreshes (done ++ calls)) after placed ∧ JustVisited (done ++ calls) after placed) := by
  apply Walk.meets_for_each (upkeep served) calls _ (fun ran at_ => ∃ placed,
    Refreshed hash (refreshes (done ++ ran)) at_ placed ∧ JustVisited (done ++ ran) at_ placed) s
    ⟨rows, by simpa using sofar, by simpa using visited⟩
  rintro ran call rest at_ _ ⟨placed, kept, _⟩
  apply Walk.meets_bind
  apply Walk.meets_mono _ _ _ _ _ (call_meets hash (done ++ ran) call at_ placed kept)
  rintro _ after ⟨later, next⟩
  exact Walk.meets_pure _ _ _ _ ⟨later, by simpa using next⟩

end Calls

end LinuxModule.SteTop
