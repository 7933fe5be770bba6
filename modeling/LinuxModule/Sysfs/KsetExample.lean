import LinuxModule.Base.Kobject
import LinuxModule.Sysfs.Attributes

set_option autoImplicit false

namespace LinuxModule.KsetExample

open Refcount Kobject Sysfs
open Kstrto (einval)

-- What a kobject is embedded in: a kset, or a foo_obj with its variables.
inductive Container where
  | kset
  | foo (vars : Vars)
deriving DecidableEq

-- The globals foo_obj, bar_obj and baz_obj.
inductive Obj where
  | foo | bar | baz
deriving DecidableEq, Repr

def Obj.name : Obj → String
  | .foo => "foo"
  | .bar => "bar"
  | .baz => "baz"

-- What the kernel has for a call that creates an object.
structure Attempt where
  memory : Bool
  added : Bool
deriving DecidableEq

inductive Fault where
  | badAddress
deriving DecidableEq, Repr

inductive Cleanup where
  | destroy (obj : Obj)
  | unregister
deriving DecidableEq, Repr

-- The labels of example_init, each with what it falls through to.
def fooError : List Cleanup := [.unregister]
def barError : List Cleanup := .destroy .foo :: fooError
def bazError : List Cleanup := .destroy .bar :: barError

def exampleExit : List Cleanup := [.destroy .baz, .destroy .bar, .destroy .foo, .unregister]

-- The module's next call. A cleanup ends example_init with this result, or example_exit.
inductive Point where
  | unloaded
  | createKset
  | create (obj : Obj)
  | loaded
  | cleaning (calls : List Cleanup) (result : Option Int)
deriving DecidableEq

structure State where
  heap : Objects Container
  exampleKset : Option Nat
  objs : Obj → Option Nat
  point : Point

-- What others see of a step: objects that come and go, what example_init returns, and the
-- answer to an access.
inductive Note where
  | made (obj : Obj)
  | gone (obj : Obj)
  | returned (value : Int)
  | answered (answer : Answer)
deriving DecidableEq

inductive Event where
  | load
  | call (attempt : Attempt)
  | exit
  | read (dir file : String)
  | write (dir file : String) (bytes : List UInt8)
deriving DecidableEq

def orFault {α : Type} (result : Option α) : Except Fault α :=
  match result with
  | none => .error .badAddress
  | some a => .ok a

def ksetCreateAndAdd (attempt : Attempt) (heap : Objects Container) : Option (Option Nat × Objects Container) :=
  create none .kset "kset_example" attempt.memory attempt.added heap

def createFooObj (name : String) (attempt : Attempt) (exampleKset : Option Nat) (heap : Objects Container) :
    Option (Option Nat × Objects Container) :=
  if attempt.memory = false then some (none, heap)
  else do
    let foo := heap.size
    let heap := init exampleKset (.foo zeroed) heap
    if attempt.added then some (some foo, ← add foo name heap)
    else some (none, ← put foo heap)

-- A NULL foo_obj is a NULL kobject, which kobject_put leaves alone.
def destroyFooObj (foo : Option Nat) (heap : Objects Container) : Option (Objects Container) :=
  match foo with
  | none => some heap
  | some p => put p heap

def ksetUnregister (kset : Option Nat) (heap : Objects Container) : Option (Objects Container) :=
  match kset with
  | none => some heap
  | some p => (del p heap).bind (put p)

def Cleanup.run (s : State) : Cleanup → Option (Objects Container)
  | .destroy obj => destroyFooObj (s.objs obj) s.heap
  | .unregister => ksetUnregister s.exampleKset s.heap

def Cleanup.notes : Cleanup → List Note
  | .destroy obj => [.gone obj]
  | .unregister => []

-- Where example_init goes when this object has been created, and when it has not.
def onward : Obj → Point
  | .foo => .create .bar
  | .bar => .create .baz
  | .baz => .loaded

def label : Obj → List Cleanup
  | .foo => fooError
  | .bar => barError
  | .baz => bazError

-- /sys/kernel/kset_example/dir
def folder (dir : String) (heap : Objects Container) : Option (Nat × Vars) := do
  let kset ← lookup none "kset_example" heap
  let p ← lookup (some kset) dir heap
  match (← heap.read p).content.container with
  | .kset => none
  | .foo vars => some (p, vars)

def call (attempt : Attempt) (s : State) : Except Fault (List Note × State) :=
  match s.point with
  | .createKset => do
      let (kset, heap) ← orFault (ksetCreateAndAdd attempt s.heap)
      match kset with
      | none => .ok ([.returned (-enomem)], { s with heap := heap, point := .unloaded })
      | some p => .ok ([], { s with heap := heap, exampleKset := some p, point := .create .foo })
  | .create obj => do
      let (foo, heap) ← orFault (createFooObj obj.name attempt s.exampleKset s.heap)
      let s := { s with heap := heap, objs := Function.update s.objs obj foo }
      match foo with
      | none => .ok ([], { s with point := .cleaning (label obj) (some (-einval)) })
      | some _ =>
          let returned := if onward obj = .loaded then [.returned 0] else []
          .ok (.made obj :: returned, { s with point := onward obj })
  | .cleaning (first :: rest) result => do
      let heap ← orFault (first.run s)
      let s := { s with heap := heap }
      if rest = [] then .ok (first.notes ++ result.toList.map .returned, { s with point := .unloaded })
      else .ok (first.notes, { s with point := .cleaning rest result })
  | _ => .ok ([], s)

def step (s : State) : Event → Except Fault (List Note × State)
  | .load => .ok ([], { s with exampleKset := none, objs := fun _ => none, point := .createKset })
  | .call attempt => call attempt s
  | .exit => .ok ([], { s with point := .cleaning exampleExit none })
  | .read dir file =>
      match folder dir s.heap with
      | none => .ok ([.answered (.ret (-enoent))], s)
      | some (_, vars) => .ok ([.answered (readFile file vars)], s)
  | .write dir file bytes =>
      match folder dir s.heap with
      | none => .ok ([.answered (.ret (-enoent))], s)
      | some (p, vars) => do
          let (answer, vars) := writeFile file bytes vars
          let heap ← orFault (modify p (fun kobj => { kobj with container := .foo vars }) s.heap)
          .ok ([.answered answer], { s with heap := heap })

def inCall : Point → Bool
  | .createKset => true
  | .create _ => true
  | .cleaning _ _ => true
  | _ => false

-- The files can be used at any time, whatever the module is doing.
def guard (s : State) : Event → Prop
  | .load => s.point = .unloaded
  | .call _ => inCall s.point = true
  | .exit => s.point = .loaded
  | .read _ _ => True
  | .write _ _ _ => True

instance (s : State) (e : Event) : Decidable (guard s e) :=
  match e with
  | .load => inferInstanceAs (Decidable (_ = _))
  | .call _ => inferInstanceAs (Decidable (_ = _))
  | .exit => inferInstanceAs (Decidable (_ = _))
  | .read _ _ => .isTrue trivial
  | .write _ _ _ => .isTrue trivial

def boot : State := ⟨Heap.empty, none, fun _ => none, .unloaded⟩

end LinuxModule.KsetExample
