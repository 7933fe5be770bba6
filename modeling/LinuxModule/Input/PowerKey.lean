import LinuxModule.Base.InputCore
import LinuxModule.Base.Runs
import Mathlib.Data.Int.Basic

set_option autoImplicit false

namespace LinuxModule.PowerKey

open InputCore

def enomem : Int := 12

def evKey : Nat := 1
def keyPower : Nat := 116

-- What a device can report, by kind of event and by key.
structure InputDev where
  id : Nat
  evbit : List Nat
  keybit : List Nat
deriving DecidableEq, Repr

structure InputDeviceId where
  evbit : List Nat
  keybit : List Nat

def powerKeyIds : List InputDeviceId := [⟨[evKey], [keyPower]⟩]

def inputMatchDevice (dev : InputDev) : Bool :=
  powerKeyIds.any fun id => id.evbit.all dev.evbit.contains && id.keybit.all dev.keybit.contains

def pressed : String := "ste_powerkey: power key pressed!"

def powerKeyEvent (type code : Nat) (value : Int) : List String :=
  if type = evKey ∧ code = keyPower then
    if value = 1 then [pressed] else []
  else []

-- What the holder of input_mutex has still to call. The last kfree of a power_key_connect that
-- fails comes before it returns the error.
inductive Call where
  | kzalloc (dev : InputDev)
  | registerHandle (handle : Nat)
  | openDevice (handle : Nat)
  | closeDevice (handle : Nat)
  | unregisterHandle (handle : Nat)
  | kfree (handle : Nat) (error : Option Int)
  | removeDevice (dev : InputDev)
  | removeHandler
deriving DecidableEq

def powerKeyConnect (dev : InputDev) : List Call := [.kzalloc dev]

def powerKeyDisconnect (handle : Nat) : List Call := [.closeDevice handle, .unregisterHandle handle, .kfree handle none]

inductive Fault where
  | badAddress
deriving DecidableEq, Repr

-- The devices that are registered, those of them on their way out, and whether the handler is.
structure State where
  handles : Handles InputDev
  devList : List InputDev
  going : List InputDev
  registered : Bool
  pending : List Call

inductive Note where
  | returned (dev : InputDev) (error : Int)
  | closed (dev : InputDev)
  | printed (lines : List String)
deriving DecidableEq

inductive Event where
  | plug (dev : InputDev)
  | goAway (dev : InputDev)
  | unplug (dev : InputDev)
  | load (error : Int)
  | unload
  | call (error : Int)
  | report (dev : InputDev) (type code : Nat) (value : Int)
deriving DecidableEq

def orFault {α : Type} (result : Option α) : Except Fault α :=
  match result with
  | none => .error .badAddress
  | some a => .ok a

def deviceOf (handle : Nat) (s : State) : Except Fault InputDev :=
  (orFault (s.handles.heap.read handle)).map (·.dev)

def call (error : Int) (s : State) : Except Fault (List Note × State) :=
  match s.pending with
  | [] => .ok ([], s)
  | .kzalloc dev :: rest =>
      if error ≠ 0 then .ok ([.returned dev (-enomem)], { s with pending := rest })
      else .ok ([], { s with
        handles := s.handles.kzalloc dev
        pending := .registerHandle s.handles.heap.size :: rest })
  | .registerHandle handle :: rest =>
      if error ≠ 0 then .ok ([], { s with pending := .kfree handle (some error) :: rest })
      else do
        let handles ← orFault (s.handles.registerHandle handle)
        .ok ([], { s with handles := handles, pending := .openDevice handle :: rest })
  | .openDevice handle :: rest =>
      if error ≠ 0 then .ok ([], { s with pending := .unregisterHandle handle :: .kfree handle (some error) :: rest })
      else do
        let dev ← deviceOf handle s
        let handles ← orFault (s.handles.openDevice handle)
        .ok ([.returned dev 0], { s with handles := handles, pending := rest })
  | .closeDevice handle :: rest => do
      let dev ← deviceOf handle s
      let handles ← orFault (s.handles.closeDevice handle)
      .ok ([.closed dev], { s with handles := handles, pending := rest })
  | .unregisterHandle handle :: rest => do
      let handles ← orFault (s.handles.unregisterHandle handle)
      .ok ([], { s with handles := handles, pending := rest })
  | .kfree handle error :: rest => do
      let dev ← deviceOf handle s
      let handles ← orFault (s.handles.kfree handle)
      .ok (error.toList.map (.returned dev), { s with handles := handles, pending := rest })
  | .removeDevice dev :: rest =>
      .ok ([], { s with
        devList := s.devList.erase dev
        going := s.going.filter (· ≠ dev)
        pending := rest })
  | .removeHandler :: rest => .ok ([], { s with registered := false, pending := rest })

-- Every handler is tried on a new device, and a new handler on every device.
def step (s : State) : Event → Except Fault (List Note × State)
  | .plug dev =>
      .ok ([], { s with
        devList := s.devList ++ [dev]
        pending := if s.registered && inputMatchDevice dev then powerKeyConnect dev else [] })
  | .goAway dev => .ok ([], { s with going := dev :: s.going })
  | .unplug dev =>
      .ok ([], { s with pending := (s.handles.dList dev).flatMap powerKeyDisconnect ++ [.removeDevice dev] })
  | .load error =>
      if error ≠ 0 then .ok ([], s)
      else .ok ([], { s with
        registered := true
        pending := (s.devList.filter inputMatchDevice).flatMap powerKeyConnect })
  | .unload => .ok ([], { s with pending := s.handles.hList.flatMap powerKeyDisconnect ++ [.removeHandler] })
  | .call error => call error s
  | .report dev type code value => do
      let handles ← orFault (s.handles.receivers dev)
      .ok ([.printed (handles.flatMap fun _ => powerKeyEvent type code value)], s)

-- input_mutex is held from the first to the last pending call. Devices report at any time until
-- they go away.
def guard (s : State) : Event → Prop
  | .plug dev => s.pending = [] ∧ dev ∉ s.devList
  | .goAway dev => dev ∈ s.devList ∧ dev ∉ s.going
  | .unplug dev => s.pending = [] ∧ dev ∈ s.devList ∧ dev ∈ s.going
  | .load _ => s.pending = [] ∧ s.registered = false
  | .unload => s.pending = [] ∧ s.registered = true
  | .call _ => s.pending ≠ []
  | .report dev _ _ _ => dev ∈ s.devList ∧ dev ∉ s.going

instance (s : State) (e : Event) : Decidable (guard s e) :=
  match e with
  | .plug _ => inferInstanceAs (Decidable (_ ∧ _))
  | .goAway _ => inferInstanceAs (Decidable (_ ∧ _))
  | .unplug _ => inferInstanceAs (Decidable (_ ∧ _))
  | .load _ => inferInstanceAs (Decidable (_ ∧ _))
  | .unload => inferInstanceAs (Decidable (_ ∧ _))
  | .call _ => inferInstanceAs (Decidable (_ ≠ _))
  | .report _ _ _ _ => inferInstanceAs (Decidable (_ ∧ _))

def boot : State := ⟨Handles.none_, [], [], false, []⟩

end LinuxModule.PowerKey
