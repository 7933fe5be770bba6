import LinuxModule.Base.Semaphore
import LinuxModule.Base.Runs
import Mathlib.Algebra.Group.Int.Defs

set_option autoImplicit false

namespace LinuxModule.Sema

def eintr : Int := 4
def erestartsys : Int := 512

-- hello_open, given what down_interruptible returns to it.
def helloOpen (down : Int) : Int := if down ≠ 0 then -erestartsys else 0

-- How far hello_init has come: the last of its calls that returned, or the error it is
-- unwinding from.
inductive InitPoint where
  | start
  | registered
  | classCreated
  | deviceCreated
  | classFailed (error : Int)
  | deviceFailed (error : Int)
  | classDestroyed (error : Int)
  | loaded
  | failed (error : Int)
deriving DecidableEq, Repr

-- One more call of hello_init. A pointer is IS_ERR when it is negative as a number, and
-- PTR_ERR is that number; sema_init and the unwinding calls cannot fail.
def InitPoint.next (result : Int) : InitPoint → InitPoint
  | .start => if result < 0 then .failed result else .registered
  | .registered => if result < 0 then .classFailed result else .classCreated
  | .classFailed error => .failed error
  | .classCreated => if result < 0 then .deviceFailed result else .deviceCreated
  | .deviceFailed error => .classDestroyed error
  | .classDestroyed error => .failed error
  | .deviceCreated => .loaded
  | .loaded => .loaded
  | .failed error => .failed error

def InitPoint.running : InitPoint → Bool
  | .loaded => false
  | .failed _ => false
  | _ => true

def InitPoint.reachable : InitPoint → Bool
  | .start => false
  | .failed _ => false
  | _ => true

-- The device as its users see it. `waiting` are the opens asleep in down_interruptible,
-- `opened` the open file descriptions; sem is in static storage, zero when the module
-- is loaded.
structure Device (ω : Type) where
  point : InitPoint
  sem : Semaphore ω
  waiting : List ω
  opened : List ω
deriving DecidableEq

inductive Event (ω : Type) where
  | init (result : Int)
  | openFile (file : ω)
  | signal (file : ω)
  | release (file : ω) (next : Option ω)
deriving DecidableEq

namespace Device

variable {ω : Type}

def unloaded : Device ω := ⟨.start, ⟨0, []⟩, [], []⟩

-- hello_open returns; the file is open when it returned 0.
def finishOpen (d : Device ω) (file : ω) (down : Int) : List (ω × Int) × Device ω :=
  let result := helloOpen down
  ([(file, result)], if result = 0 then { d with opened := file :: d.opened } else d)

variable [DecidableEq ω]

def step (d : Device ω) : Event ω → Except Empty (List (ω × Int) × Device ω)
  | .init result =>
      .ok ([], { d with
        point := d.point.next result
        sem := if d.point = .deviceCreated then Semaphore.init 1 else d.sem })
  | .openFile file =>
      let (taken, sem) := d.sem.down file
      if taken then .ok (finishOpen { d with sem := sem } file 0)
      else .ok ([], { d with sem := sem, waiting := d.waiting ++ [file] })
  | .signal file =>
      .ok (finishOpen { d with sem := d.sem.leave file, waiting := d.waiting.erase file } file (-eintr))
  | .release file next =>
      let closed := { d with sem := d.sem.up next, opened := d.opened.erase file }
      match next with
      | none => .ok ([], closed)
      | some woken => .ok (finishOpen { closed with waiting := d.waiting.erase woken } woken 0)

-- Every open has a file of its own; a file is released once.
def enabled (d : Device ω) : Event ω → Prop
  | .init _ => d.point.running = true
  | .openFile file => d.point.reachable = true ∧ file ∉ d.waiting ∧ file ∉ d.opened
  | .signal file => file ∈ d.waiting
  | .release file next => d.point.reachable = true ∧ file ∈ d.opened ∧ d.sem.Picks next

instance (d : Device ω) (e : Event ω) : Decidable (d.enabled e) :=
  match e with
  | .init _ => inferInstanceAs (Decidable (_ = _))
  | .openFile _ => inferInstanceAs (Decidable (_ ∧ _))
  | .signal _ => inferInstanceAs (Decidable (_ ∈ _))
  | .release _ _ => inferInstanceAs (Decidable (_ ∧ _ ∧ _))

theorem step_init (d : Device ω) (result : Int) (running : d.point ≠ .deviceCreated) :
    d.step (.init result) = .ok ([], { d with point := d.point.next result }) := by
  rw [step, if_neg running]

theorem step_sema_init (d : Device ω) (result : Int) (last : d.point = .deviceCreated) :
    d.step (.init result) = .ok ([], { d with point := .loaded, sem := Semaphore.init 1 }) := by
  rw [step, if_pos last, last]
  rfl

theorem step_open_free (d : Device ω) (file : ω) (free : 0 < d.sem.count) :
    d.step (.openFile file) = .ok ([(file, 0)],
      { d with sem := { d.sem with count := d.sem.count - 1 }, opened := file :: d.opened }) := by
  rw [step, Semaphore.down_free _ _ free]
  rfl

theorem step_open_busy (d : Device ω) (file : ω) (busy : d.sem.count = 0) :
    d.step (.openFile file) = .ok ([],
      { d with
        sem := { d.sem with waitList := d.sem.waitList ++ [file] }
        waiting := d.waiting ++ [file] }) := by
  rw [step, Semaphore.down_busy _ _ busy]
  rfl

theorem step_signal (d : Device ω) (file : ω) :
    d.step (.signal file) = .ok ([(file, -erestartsys)],
      { d with sem := d.sem.leave file, waiting := d.waiting.erase file }) := rfl

theorem step_release_idle (d : Device ω) (file : ω) :
    d.step (.release file none) = .ok ([], { d with sem := d.sem.up none, opened := d.opened.erase file }) := rfl

theorem step_release_handover (d : Device ω) (file woken : ω) :
    d.step (.release file (some woken)) = .ok ([(woken, 0)],
      { d with
        sem := d.sem.up (some woken)
        waiting := d.waiting.erase woken
        opened := woken :: d.opened.erase file }) := rfl

end Device
end LinuxModule.Sema
