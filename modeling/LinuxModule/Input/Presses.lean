import LinuxModule.Input.Handles

set_option autoImplicit false

namespace LinuxModule.PowerKey

open InputCore

-- A device with the key and one without it, a press while the module is connected, the device
-- pulled out and the module unloaded.
def keyboard : InputDev := ⟨0, [0, 1, 4], [30, 116]⟩
def mouse : InputDev := ⟨1, [0, 1, 2], [272]⟩

def sampleEvents : List Event :=
  [.plug keyboard, .plug mouse, .load 0, .report keyboard 1 116 1, .call 0, .call 0, .call 0, .report keyboard 1 116 1,
    .goAway keyboard, .unplug keyboard, .call 0, .call 0, .call 0, .call 0, .unload, .call 0]

theorem sample_run (n : Nat) (outs : List (List Note)) (idle registered : Bool)
    (computed : (Run.eval step guard boot (sampleEvents.take n)).map (fun r => (r.1, r.2.pending.isEmpty, r.2.registered)) =
      some (outs, idle, registered)) :
    ∃ last, Run step guard boot (sampleEvents.take n) outs last ∧ last.pending.isEmpty = idle ∧ last.registered = registered := by
  obtain ⟨⟨_, last⟩, evaluated, same⟩ := Option.map_eq_some_iff.mp computed
  cases same
  exact ⟨last, Run.eval_run _ _ _ _ _ _ evaluated, rfl, rfl⟩

section Accounts

variable (s : State) (status : Status InputDev) (connected : InputDev → Bool)

variable (inv : Inv s status [] [] .nobody connected)
include inv

end Accounts

end LinuxModule.PowerKey
