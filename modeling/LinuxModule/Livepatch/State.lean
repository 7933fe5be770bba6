import LinuxModule.Base.CInt
import LinuxModule.Base.Owned
import LinuxModule.Base.Shadow
import LinuxModule.Base.Walk

set_option autoImplicit false

namespace LinuxModule.Livepatch

inductive Patch where
  | fix1
  | fix2
deriving DecidableEq, Repr

-- How far a patch that is on the stack of functions is in effect. During a transition
-- some tasks run the new functions and some the old ones.
inductive Phase where
  | patching
  | patched
  | unpatching
deriving DecidableEq, Repr

structure Dummy where
  address : Nat
  jiffiesExpire : UInt64
deriving DecidableEq, Repr

inductive Fault where
  | badFree
deriving DecidableEq, Repr

-- What pr_info and pr_err write; none is the module itself, some p the livepatch.
inductive Message where
  | allocated (version : Option Patch) (dummy : Nat) (expires : UInt64)
  | noShadow (dummy leak : Nat)
  | freed (dummy : Nat) (expired : UInt64)
  | leaked (version : Patch) (dummy : Nat)
  | prevented (version : Patch) (dummy leak : Nat)
  | counter (dummy : Nat) (count : Int)
  | cleanup (jiffies : UInt64)
deriving DecidableEq

-- dummy_list from its head on, the ints that are called leak, the shadow variables
-- SV_LEAK and SV_COUNTER, whether the two works are scheduled, and what is loaded: the
-- module, the livepatch modules, and the stack of functions, latest on top.
structure State where
  dummyList : List Dummy
  leaks : Heap Unit
  svLeak : Shadow Nat
  svCounter : Shadow Int
  allocDwork : Bool
  cleanupDwork : Bool
  mod : Bool
  loaded : List Patch
  stack : List (Patch × Phase)

def initial : State := ⟨[], Heap.empty, ∅, ∅, false, false, false, [], []⟩

-- What the allocator has for one dummy_alloc.
structure Memory where
  dummy : Option Nat
  leak : Bool
  shadow : Bool
deriving DecidableEq

-- The functions that a task can meet when it calls one that the livepatches p replace: in
-- a transition it can have either.
def versions (replaces : Patch → Bool) : List (Patch × Phase) → List (Option Patch)
  | [] => [none]
  | (p, phase) :: rest =>
      if replaces p then
        if phase = .patched then [some p] else some p :: versions replaces rest
      else versions replaces rest

-- The funcs arrays.
def replacesAlloc : Patch → Bool
  | .fix1 => true
  | .fix2 => false

def replacesCheck : Patch → Bool
  | .fix1 => false
  | .fix2 => true

def replacesFree : Patch → Bool
  | .fix1 => true
  | .fix2 => true

section Functions

-- msecs_to_jiffies(1000 * EXPIRE_PERIOD)
variable (expirePeriod : UInt64)

def timeAfter (a b : UInt64) : Bool := cLong (b - a).toNat < 0

def dummyAlloc (memory : Memory) (jiffies : UInt64) (s : State) : Except Fault (Option Dummy × State × List Message) :=
  match memory.dummy with
  | none => .ok (none, s, [])
  | some d =>
      let expires := jiffies + expirePeriod
      if memory.leak then .ok (some ⟨d, expires⟩, { s with leaks := s.leaks.alloc () }, [.allocated none d expires])
      else .ok (none, s, [])

def dummyFree (d : Dummy) (s : State) : Except Fault (State × List Message) :=
  .ok (s, [.freed d.address d.jiffiesExpire])

def dummyCheck (d : Dummy) (jiffies : UInt64) (s : State) : Bool × State := (timeAfter jiffies d.jiffiesExpire, s)

def kfreeLeak (leak : Nat) (s : State) : Except Fault State :=
  match s.leaks.free leak with
  | none => .error .badFree
  | some leaks => .ok { s with leaks := leaks }

-- shadow_leak_ctor stores the pointer in the new variable.
def livepatchFix1DummyAlloc (memory : Memory) (jiffies : UInt64) (s : State) :
    Except Fault (Option Dummy × State × List Message) :=
  match memory.dummy with
  | none => .ok (none, s, [])
  | some d =>
      let expires := jiffies + expirePeriod
      if memory.leak then
        let leak := s.leaks.size
        let s := { s with leaks := s.leaks.alloc () }
        match Shadow.alloc memory.shadow d leak s.svLeak with
        | some svLeak => .ok (some ⟨d, expires⟩, { s with svLeak := svLeak }, [.allocated (some .fix1) d expires])
        | none => do
            let s ← kfreeLeak leak s
            .ok (none, s, [.noShadow d leak])
      else .ok (none, s, [])

-- klp_shadow_free with the dtor of the livepatch.
def freeSvLeak (version : Patch) (d : Nat) (s : State) : Except Fault (State × List Message) :=
  match s.svLeak.lookup d with
  | some leak => do
      let s ← kfreeLeak leak { s with svLeak := s.svLeak.erase d }
      .ok (s, [.prevented version d leak])
  | none => .ok (s, [.leaked version d])

def livepatchFix1DummyFree (d : Dummy) (s : State) : Except Fault (State × List Message) := freeSvLeak .fix1 d.address s

def livepatchFix2DummyFree (d : Dummy) (s : State) : Except Fault (State × List Message) := do
  let (s, log) ← freeSvLeak .fix2 d.address s
  match s.svCounter.lookup d.address with
  | some count => .ok ({ s with svCounter := s.svCounter.erase d.address }, log ++ [.counter d.address count])
  | none => .ok (s, log)

def livepatchFix2DummyCheck (memory : Bool) (d : Dummy) (jiffies : UInt64) (s : State) : Bool × State :=
  let s :=
    match Shadow.getOrAlloc memory d.address 0 s.svCounter with
    | some (count, svCounter) => { s with svCounter := svCounter.insert d.address (cInt (count + 1)) }
    | none => s
  (timeAfter jiffies d.jiffiesExpire, s)

-- klp_shadow_free_all(SV_LEAK, livepatch_fix1_dummy_leak_dtor)
def livepatchShadowFix1Exit (s : State) : Except Fault (State × List Message) :=
  s.svLeak.entries.foldlM (fun at_ entry => do
    let s ← kfreeLeak entry.2 at_.1
    .ok (s, at_.2 ++ [.prevented .fix1 entry.1 entry.2])) ({ s with svLeak := ∅ }, [])

-- klp_shadow_free_all(SV_COUNTER, NULL)
def livepatchShadowFix2Exit (s : State) : Except Fault (State × List Message) := .ok ({ s with svCounter := ∅ }, [])

def callAlloc (version : Option Patch) (memory : Memory) (jiffies : UInt64) (s : State) :
    Except Fault (Option Dummy × State × List Message) :=
  match version with
  | some .fix1 => livepatchFix1DummyAlloc expirePeriod memory jiffies s
  | _ => dummyAlloc expirePeriod memory jiffies s

def callCheck (version : Option Patch) (memory : Bool) (d : Dummy) (jiffies : UInt64) (s : State) : Bool × State :=
  match version with
  | some .fix2 => livepatchFix2DummyCheck memory d jiffies s
  | _ => dummyCheck d jiffies s

def callFree (version : Option Patch) (d : Dummy) (s : State) : Except Fault (State × List Message) :=
  match version with
  | some .fix1 => livepatchFix1DummyFree d s
  | some .fix2 => livepatchFix2DummyFree d s
  | none => dummyFree d s

-- Which version the worker meets for each dummy, and whether a counter can be allocated.
structure Choice where
  check : Option Patch
  free : Option Patch
  memory : Bool
deriving DecidableEq

-- The work is scheduled again only after a dummy was allocated.
def allocWorkFunc (version : Option Patch) (memory : Memory) (jiffies : UInt64) (s : State) :
    Except Fault (List Message × State) := do
  let (d, s, log) ← callAlloc expirePeriod version memory jiffies { s with allocDwork := false }
  match d with
  | none => .ok (log, s)
  | some d => .ok (log, { s with dummyList := d :: s.dummyList, allocDwork := true })

def cleanupDummy (choose : Nat → Choice) (jiffies : UInt64) (at_ : State × List Message) (d : Dummy) :
    Except Fault (State × List Message) := do
  let choice := choose d.address
  let (due, s) := callCheck choice.check choice.memory d jiffies at_.1
  if due then
    let (s, log) ← callFree choice.free d { s with dummyList := s.dummyList.erase d }
    .ok (s, at_.2 ++ log)
  else .ok (s, at_.2)

def cleanupWorkFunc (choose : Nat → Choice) (jiffies : UInt64) (s : State) : Except Fault (List Message × State) := do
  let (s, log) ← s.dummyList.foldlM (cleanupDummy choose jiffies) ({ s with cleanupDwork := false }, [.cleanup jiffies])
  .ok (log, { s with cleanupDwork := true })

def exitDummy (choose : Nat → Option Patch) (at_ : State × List Message) (d : Dummy) : Except Fault (State × List Message) := do
  let (s, log) ← callFree (choose d.address) d { at_.1 with dummyList := at_.1.dummyList.erase d }
  .ok (s, at_.2 ++ log)

def livepatchShadowModInit (s : State) : State := { s with mod := true, allocDwork := true, cleanupDwork := true }

def livepatchShadowModExit (choose : Nat → Option Patch) (s : State) : Except Fault (List Message × State) := do
  let s := { s with allocDwork := false, cleanupDwork := false }
  let (s, log) ← s.dummyList.foldlM (exitDummy choose) (s, [])
  .ok (log, { s with mod := false })

end Functions
end LinuxModule.Livepatch
