import LinuxModule.Base.Walk
import LinuxModule.Input.PowerKey

set_option autoImplicit false

namespace LinuxModule.PowerKey

open InputCore

-- Which devices the module listens to, from what has been seen.
def Note.record (connected : InputDev → Bool) : Note → InputDev → Bool
  | .returned dev error => if error = 0 then Function.update connected dev true else connected
  | .closed dev => Function.update connected dev false
  | .printed _ => connected

-- Who leaves the lists with the last of the pending calls.
inductive Leaving where
  | nobody
  | device (dev : InputDev)
  | handler
deriving DecidableEq

-- The devices that the pending calls will connect, and the handles they are at work on.
inductive Program : List Call → List InputDev → List (Nat × Stage) → Leaving → Prop where
  | done : Program [] [] [] .nobody
  | removeDevice (dev : InputDev) : Program [.removeDevice dev] [] [] (.device dev)
  | removeHandler : Program [.removeHandler] [] [] .handler
  | kzalloc (dev : InputDev) (rest : List Call) (todo : List InputDev) (later : Program rest todo [] .nobody) :
      Program (.kzalloc dev :: rest) (dev :: todo) [] .nobody
  | registerHandle (p : Nat) (rest : List Call) (todo : List InputDev) (later : Program rest todo [] .nobody) :
      Program (.registerHandle p :: rest) todo [(p, .allocated)] .nobody
  | openDevice (p : Nat) (rest : List Call) (todo : List InputDev) (later : Program rest todo [] .nobody) :
      Program (.openDevice p :: rest) todo [(p, .listed)] .nobody
  | closeDevice (p : Nat) (rest : List Call) (todo : List InputDev) (due : List (Nat × Stage)) (leaving : Leaving)
      (later : Program rest todo due leaving) :
      Program (.closeDevice p :: .unregisterHandle p :: .kfree p none :: rest) todo ((p, .opened) :: due) leaving
  | unregisterHandle (p : Nat) (error : Option Int) (rest : List Call) (todo : List InputDev) (due : List (Nat × Stage))
      (leaving : Leaving) (failed : error ≠ some 0) (later : Program rest todo due leaving) :
      Program (.unregisterHandle p :: .kfree p error :: rest) todo ((p, .listed) :: due) leaving
  | kfree (p : Nat) (error : Option Int) (rest : List Call) (todo : List InputDev) (due : List (Nat × Stage))
      (leaving : Leaving) (failed : error ≠ some 0) (later : Program rest todo due leaving) :
      Program (.kfree p error :: rest) todo ((p, .allocated) :: due) leaving

structure Inv (s : State) (status : Status InputDev) (todo : List InputDev) (due : List (Nat × Stage)) (leaving : Leaving)
    (connected : InputDev → Bool) : Prop where
  agrees : Agrees s.handles status
  program : Program s.pending todo due leaving
  staged : ∀ p stage, (p, stage) ∈ due → ∃ dev, status p = some (dev, stage)
  settled : ∀ p dev stage, status p = some (dev, stage) → stage = .opened ∨ p ∈ due.map Prod.fst
  distinct : (due.map Prod.fst).Nodup
  plugged : ∀ p dev stage, status p = some (dev, stage) → dev ∈ s.devList ∧ inputMatchDevice dev = true
  waiting : ∀ dev ∈ todo, (dev ∈ s.devList ∧ inputMatchDevice dev = true) ∧ ∀ p stage, status p ≠ some (dev, stage)
  once : todo.Nodup
  devices : s.devList.Nodup
  leaves : ∀ p dev stage, status p = some (dev, stage) → leaving = .device dev ∨ leaving = .handler → p ∈ due.map Prod.fst
  unregistered : s.registered = false → todo = [] ∧ ∀ p, status p = none
  connects : ∀ dev, connected dev = true ↔ ∃ p, status p = some (dev, .opened)

section Connected

variable (status : Status InputDev) (connected : InputDev → Bool) (p : Nat) (dev : InputDev)

end Connected

section Calls

variable (s : State) (status : Status InputDev) (todo : List InputDev) (due : List (Nat × Stage)) (leaving : Leaving)
  (connected : InputDev → Bool)

end Calls

section Events

variable (s : State) (status : Status InputDev) (connected : InputDev → Bool)

end Events

end LinuxModule.PowerKey
