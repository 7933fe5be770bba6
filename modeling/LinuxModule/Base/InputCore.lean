import LinuxModule.Base.Heap
import Mathlib.Data.List.Nodup
import Mathlib.Logic.Function.Basic

set_option autoImplicit false

namespace LinuxModule.InputCore

-- A handle stands between a handler and a device it listens to.
structure InputHandle (Dev : Type) where
  dev : Dev
  isOpen : Bool
deriving DecidableEq

-- The handles of one handler, in its own list and in those of the devices, and how often
-- each device has been opened through them.
structure Handles (Dev : Type) where
  heap : Heap (InputHandle Dev)
  hList : List Nat
  dList : Dev → List Nat
  users : Dev → Nat

variable {Dev : Type}

namespace Handles

def none_ : Handles Dev := ⟨Heap.empty, [], fun _ => [], fun _ => 0⟩

def kzalloc (dev : Dev) (c : Handles Dev) : Handles Dev := { c with heap := c.heap.alloc ⟨dev, false⟩ }

def kfree (p : Nat) (c : Handles Dev) : Option (Handles Dev) := do
  let heap ← c.heap.free p
  some { c with heap := heap }

variable [DecidableEq Dev]

def registerHandle (p : Nat) (c : Handles Dev) : Option (Handles Dev) := do
  let handle ← c.heap.read p
  some { c with
    hList := c.hList ++ [p]
    dList := Function.update c.dList handle.dev (c.dList handle.dev ++ [p]) }

def unregisterHandle (p : Nat) (c : Handles Dev) : Option (Handles Dev) := do
  let handle ← c.heap.read p
  some { c with
    hList := c.hList.erase p
    dList := Function.update c.dList handle.dev ((c.dList handle.dev).erase p) }

def openDevice (p : Nat) (c : Handles Dev) : Option (Handles Dev) := do
  let handle ← c.heap.read p
  let heap ← c.heap.write p { handle with isOpen := true }
  some { c with heap := heap, users := Function.update c.users handle.dev (c.users handle.dev + 1) }

def closeDevice (p : Nat) (c : Handles Dev) : Option (Handles Dev) := do
  let handle ← c.heap.read p
  let heap ← c.heap.write p { handle with isOpen := false }
  some { c with heap := heap, users := Function.update c.users handle.dev (c.users handle.dev - 1) }

-- The handles an event of the device is passed to.
def receivers (dev : Dev) (c : Handles Dev) : Option (List (InputHandle Dev)) := do
  let handles ← (c.dList dev).mapM c.heap.read
  some (handles.filter (·.isOpen))

end Handles

-- How far a handle has got.
inductive Stage where
  | allocated | listed | opened
deriving DecidableEq, Repr

def Stage.onLists : Stage → Bool
  | .allocated => false
  | .listed => true
  | .opened => true

def Stage.isOpen : Stage → Bool
  | .opened => true
  | _ => false

abbrev Status (Dev : Type) := Nat → Option (Dev × Stage)

def Status.On (status : Status Dev) (dev : Dev) (p : Nat) : Prop :=
  ∃ stage, status p = some (dev, stage) ∧ stage.onLists = true

-- The handle p of dev is now at this stage, or gone.
def Status.set (status : Status Dev) (p : Nat) (dev : Dev) (stage : Option Stage) : Status Dev :=
  Function.update status p (stage.map fun stage => (dev, stage))

-- The lists and the counts say of each handle what its stage is, and no device has two.
structure Agrees (c : Handles Dev) (status : Status Dev) : Prop where
  cells : ∀ p, c.heap.read p = (status p).map fun entry => ⟨entry.1, entry.2.isOpen⟩
  ownOnce : c.hList.Nodup
  own : ∀ p, p ∈ c.hList ↔ ∃ dev, status.On dev p
  deviceOnce : ∀ dev, (c.dList dev).Nodup
  device : ∀ dev p, p ∈ c.dList dev ↔ status.On dev p
  single : ∀ dev p q first second, status p = some (dev, first) → status q = some (dev, second) → p = q
  busy : ∀ dev p, status p = some (dev, .opened) → c.users dev = 1
  idle : ∀ dev, (∀ p, status p ≠ some (dev, .opened)) → c.users dev = 0

section Status

variable (status : Status Dev) (p : Nat) (dev : Dev)

theorem set_here (stage : Option Stage) : status.set p dev stage p = stage.map fun stage => (dev, stage) :=
  Function.update_self ..

theorem set_elsewhere (stage : Option Stage) (q : Nat) (other : q ≠ p) : status.set p dev stage q = status q :=
  Function.update_of_ne other ..

theorem set_some (stage : Option Stage) (q : Nat) (d : Dev) (at_ : Stage) :
    status.set p dev stage q = some (d, at_) ↔
      q = p ∧ d = dev ∧ stage = some at_ ∨ q ≠ p ∧ status q = some (d, at_) := by
  by_cases here : q = p
  · subst here
    rw [set_here]
    cases stage <;> simp [eq_comm]
  · simp [set_elsewhere status p dev stage q here, here]

theorem set_on (stage : Option Stage) (q : Nat) (d : Dev) :
    (status.set p dev stage).On d q ↔
      (q = p ∧ d = dev ∧ ∃ at_, stage = some at_ ∧ at_.onLists = true) ∨ q ≠ p ∧ status.On d q := by
  simp only [Status.On, set_some, or_and_right, exists_or]
  grind

theorem not_on_allocated (d : Dev) (at_ : status p = some (dev, .allocated)) : ¬ status.On d p := by
  rintro ⟨stage, found, on⟩
  rw [at_] at found
  cases found
  cases on

theorem on_iff (stage : Stage) (d : Dev) (at_ : status p = some (dev, stage)) (on : stage.onLists = true) :
    status.On d p ↔ d = dev := by
  constructor
  · rintro ⟨other, found, -⟩
    rw [at_] at found
    cases found
    rfl
  · rintro rfl
    exact ⟨stage, at_, on⟩

end Status

namespace Agrees

theorem nothing : Agrees (Handles.none_ : Handles Dev) fun _ => none := by
  refine ⟨fun p => ?_, List.nodup_nil, by simp [Handles.none_, Status.On], fun _ => List.nodup_nil,
    by simp [Handles.none_, Status.On], ?_, ?_, fun _ _ => rfl⟩
  · exact if_neg fun live => Nat.not_lt_zero p live.1
  · intro dev p q first second found
    cases found
  · intro dev p found
    cases found

section Operations

variable (c : Handles Dev) (status : Status Dev) (agrees : Agrees c status)
include agrees

theorem live_iff (p : Nat) : c.heap.Live p ↔ status p ≠ none := by
  have cell := agrees.cells p
  constructor
  · intro live absent
    obtain ⟨content, found⟩ := Heap.live_read c.heap p live
    rw [found, absent] at cell
    cases cell
  · intro present
    obtain ⟨entry, found⟩ := Option.ne_none_iff_exists'.mp present
    rw [found] at cell
    exact Heap.read_some_live c.heap p _ cell

theorem found (p : Nat) (dev : Dev) (stage : Stage) (at_ : status p = some (dev, stage)) :
    c.heap.read p = some ⟨dev, stage.isOpen⟩ := by
  rw [agrees.cells p, at_, Option.map_some]

-- A device keeps at most one handle when one of its own changes, or when it gets its first.
theorem set_single (p : Nat) (dev : Dev) (stage : Option Stage) (own : ∀ q at_, status q = some (dev, at_) → q = p) :
    ∀ d q r first second, status.set p dev stage q = some (d, first) → status.set p dev stage r = some (d, second) → q = r := by
  intro d q r first second atQ atR
  rw [set_some] at atQ atR
  rcases atQ with ⟨rfl, rfl, -⟩ | ⟨otherQ, atQ⟩ <;> rcases atR with ⟨rfl, sameDev, -⟩ | ⟨otherR, atR⟩
  · rfl
  · exact (own r second atR).symm
  · subst sameDev
    exact own q first atQ
  · exact agrees.single d q r first second atQ atR

theorem owner (p : Nat) (dev : Dev) (stage : Stage) (at_ : status p = some (dev, stage)) :
    ∀ q other, status q = some (dev, other) → q = p := fun q other found =>
  agrees.single dev q p other stage found at_

-- The counts stay when no handle is opened or closed.
theorem set_users (p : Nat) (dev : Dev) (stage : Option Stage) (before : ∀ d, status p ≠ some (d, .opened))
    (after : stage ≠ some .opened) :
    (∀ d q, status.set p dev stage q = some (d, .opened) → c.users d = 1) ∧
      ∀ d, (∀ q, status.set p dev stage q ≠ some (d, .opened)) → c.users d = 0 := by
  have same : ∀ d q, status.set p dev stage q = some (d, .opened) ↔ status q = some (d, .opened) := by
    intro d q
    rw [set_some]
    constructor
    · rintro (⟨-, -, opened⟩ | ⟨-, found⟩)
      · exact absurd opened after
      · exact found
    · intro found
      refine .inr ⟨?_, found⟩
      rintro rfl
      exact before d found
  refine ⟨fun d q found => agrees.busy d q ((same d q).mp found), fun d closed => agrees.idle d fun q found => ?_⟩
  exact closed q ((same d q).mpr found)

-- The lists stay when no handle enters or leaves them.
theorem set_lists (p : Nat) (dev : Dev) (stage : Option Stage)
    (same : ∀ d, status.On d p ↔ d = dev ∧ ∃ at_, stage = some at_ ∧ at_.onLists = true) :
    (∀ q, q ∈ c.hList ↔ ∃ d, (status.set p dev stage).On d q) ∧
      ∀ d q, q ∈ c.dList d ↔ (status.set p dev stage).On d q := by
  have kept : ∀ d q, (status.set p dev stage).On d q ↔ status.On d q := by
    intro d q
    rw [set_on]
    by_cases here : q = p
    · subst here
      simp [same d]
    · simp [here]
  exact ⟨fun q => (agrees.own q).trans (exists_congr fun d => (kept d q).symm), fun d q => (agrees.device d q).trans (kept d q).symm⟩

theorem kzalloc (dev : Dev) (fresh : ∀ p stage, status p ≠ some (dev, stage)) :
    status c.heap.size = none ∧ Agrees (c.kzalloc dev) (status.set c.heap.size dev (some .allocated)) := by
  have unused : status c.heap.size = none := by
    by_contra used
    exact Nat.lt_irrefl _ ((live_iff c status agrees c.heap.size).mpr used).1
  obtain ⟨own, device⟩ := set_lists c status agrees c.heap.size dev (some .allocated) fun d => by
    simp [Status.On, unused, Stage.onLists]
  obtain ⟨busy, idle⟩ := set_users c status agrees c.heap.size dev (some .allocated) (by simp [unused]) (by simp)
  refine ⟨unused, fun p => ?_, agrees.ownOnce, own, agrees.deviceOnce, device, ?_, busy, idle⟩
  · by_cases here : p = c.heap.size
    · subst here
      rw [set_here]
      exact Heap.read_alloc_fresh _ _
    · rw [set_elsewhere status _ dev _ p here, ← agrees.cells p]
      exact Heap.read_alloc_old _ _ p here
  · exact set_single c status agrees _ dev _ fun q at_ found => absurd found (fresh q at_)

theorem kfree (p : Nat) (dev : Dev) (at_ : status p = some (dev, .allocated)) :
    ∃ after, c.kfree p = some after ∧ Agrees after (status.set p dev none) := by
  have live := (live_iff c status agrees p).mpr (by simp [at_])
  obtain ⟨own, device⟩ := set_lists c status agrees p dev none fun d => by
    simp [not_on_allocated status p dev d at_]
  obtain ⟨busy, idle⟩ := set_users c status agrees p dev none (by simp [at_]) (by simp)
  refine ⟨{ c with heap := c.heap.release p live }, ?_, fun q => ?_, agrees.ownOnce, own, agrees.deviceOnce, device, ?_, busy, idle⟩
  · rw [Handles.kfree, Heap.free_live c.heap p live]
    rfl
  · by_cases here : q = p
    · subst here
      rw [set_here]
      exact if_neg fun again => ((Heap.live_release c.heap q q live).mp again).2 rfl
    · rw [set_elsewhere status p dev none q here, ← agrees.cells q]
      exact Heap.read_release c.heap p q live here
  · exact set_single c status agrees p dev none (owner c status agrees p dev _ at_)

theorem set_cells (p : Nat) (dev : Dev) (before after : Stage) (at_ : status p = some (dev, before))
    (same : after.isOpen = before.isOpen) (q : Nat) :
    c.heap.read q = (status.set p dev (some after) q).map fun entry => ⟨entry.1, entry.2.isOpen⟩ := by
  by_cases here : q = p
  · subst here
    rw [set_here, found c status agrees q dev before at_, ← same]
    rfl
  · rw [set_elsewhere status p dev _ q here]
    exact agrees.cells q

-- The cell is written when the handle is opened or closed.
theorem store_cells (p : Nat) (dev : Dev) (before after : Stage) (at_ : status p = some (dev, before)) (q : Nat) :
    (c.heap.store p ⟨dev, after.isOpen⟩).read q =
      (status.set p dev (some after) q).map fun entry => ⟨entry.1, entry.2.isOpen⟩ := by
  by_cases here : q = p
  · subst here
    rw [set_here]
    exact Heap.read_store_here c.heap q _ ((live_iff c status agrees q).mpr (by simp [at_]))
  · rw [set_elsewhere status p dev _ q here, ← agrees.cells q]
    exact Heap.read_store_elsewhere c.heap p q _ here

variable [DecidableEq Dev]

theorem openDevice (p : Nat) (dev : Dev) (at_ : status p = some (dev, .listed)) :
    ∃ after, c.openDevice p = some after ∧ Agrees after (status.set p dev (some .opened)) := by
  have live := (live_iff c status agrees p).mpr (by simp [at_])
  have own_device := owner c status agrees p dev _ at_
  obtain ⟨own, device⟩ := set_lists c status agrees p dev (some .opened) fun d => by
    simp [on_iff status p dev _ d at_ rfl, Stage.onLists]
  have unused : c.users dev = 0 := by
    refine agrees.idle dev fun q opened => ?_
    rw [own_device q _ opened, at_] at opened
    cases opened
  refine ⟨{ c with heap := c.heap.store p ⟨dev, true⟩, users := Function.update c.users dev (c.users dev + 1) }, ?_,
    store_cells c status agrees p dev _ .opened at_, agrees.ownOnce, own, agrees.deviceOnce, device,
    set_single c status agrees p dev _ own_device, ?_, ?_⟩
  · rw [Handles.openDevice, found c status agrees p dev _ at_]
    simp only [Option.bind_eq_bind, Option.bind_some, Heap.write_live c.heap p _ live]
  · intro d q opened
    by_cases same : d = dev
    · subst same
      simp only [Function.update_self, unused]
    · simp only [Function.update_of_ne same]
      rw [set_some] at opened
      exact agrees.busy d q (opened.resolve_left fun here => same here.2.1).2
  · intro d closed
    have same : d ≠ dev := by
      rintro rfl
      exact closed p ((set_some ..).mpr (.inl ⟨rfl, rfl, rfl⟩))
    simp only [Function.update_of_ne same]
    refine agrees.idle d fun q opened => closed q ((set_some ..).mpr (.inr ⟨?_, opened⟩))
    rintro rfl
    rw [at_] at opened
    cases opened

theorem closeDevice (p : Nat) (dev : Dev) (at_ : status p = some (dev, .opened)) :
    ∃ after, c.closeDevice p = some after ∧ Agrees after (status.set p dev (some .listed)) := by
  have live := (live_iff c status agrees p).mpr (by simp [at_])
  have own_device := owner c status agrees p dev _ at_
  obtain ⟨own, device⟩ := set_lists c status agrees p dev (some .listed) fun d => by
    simp [on_iff status p dev _ d at_ rfl, Stage.onLists]
  refine ⟨{ c with heap := c.heap.store p ⟨dev, false⟩, users := Function.update c.users dev (c.users dev - 1) }, ?_,
    store_cells c status agrees p dev _ .listed at_, agrees.ownOnce, own, agrees.deviceOnce, device,
    set_single c status agrees p dev _ own_device, ?_, ?_⟩
  · rw [Handles.closeDevice, found c status agrees p dev _ at_]
    simp only [Option.bind_eq_bind, Option.bind_some, Heap.write_live c.heap p _ live]
  · intro d q opened
    rw [set_some] at opened
    rcases opened with ⟨-, -, other⟩ | ⟨other, opened⟩
    · cases other
    · have same : d ≠ dev := by
        rintro rfl
        exact other (own_device q _ opened)
      simpa only [Function.update_of_ne same] using agrees.busy d q opened
  · intro d closed
    by_cases same : d = dev
    · subst same
      simp only [Function.update_self, agrees.busy d p at_]
    · simp only [Function.update_of_ne same]
      refine agrees.idle d fun q opened => closed q ((set_some ..).mpr (.inr ⟨?_, opened⟩))
      rintro rfl
      rw [at_] at opened
      cases opened
      exact same rfl

theorem registerHandle (p : Nat) (dev : Dev) (at_ : status p = some (dev, .allocated)) :
    ∃ after, c.registerHandle p = some after ∧ Agrees after (status.set p dev (some .listed)) := by
  have absent := fun d => not_on_allocated status p dev d at_
  have entered : ∀ d q, (status.set p dev (some .listed)).On d q ↔ q = p ∧ d = dev ∨ status.On d q := by
    intro d q
    rw [set_on]
    by_cases here : q = p
    · subst here
      simp [absent d, Stage.onLists]
    · simp [here]
  obtain ⟨busy, idle⟩ := set_users c status agrees p dev (some .listed) (by simp [at_]) (by simp)
  refine ⟨{ c with hList := c.hList ++ [p], dList := Function.update c.dList dev (c.dList dev ++ [p]) }, ?_, fun q => ?_, ?_, ?_, ?_,
    ?_, ?_, busy, idle⟩
  · rw [Handles.registerHandle, found c status agrees p dev _ at_]
    rfl
  · exact set_cells c status agrees p dev _ .listed at_ rfl q
  · refine List.nodup_append.mpr ⟨agrees.ownOnce, List.nodup_singleton p, ?_⟩
    rintro q member r last rfl
    obtain rfl := List.mem_singleton.mp last
    obtain ⟨d, on⟩ := (agrees.own q).mp member
    exact absent d on
  · intro q
    rw [List.mem_append, List.mem_singleton, agrees.own q]
    simp only [entered, exists_or, exists_and_left, exists_eq, and_true]
    exact or_comm
  · intro d
    by_cases same : d = dev
    · subst same
      simp only [Function.update_self]
      refine List.nodup_append.mpr ⟨agrees.deviceOnce d, List.nodup_singleton p, ?_⟩
      rintro q member r last rfl
      obtain rfl := List.mem_singleton.mp last
      exact absent d ((agrees.device d q).mp member)
    · simpa only [Function.update_of_ne same] using agrees.deviceOnce d
  · intro d q
    rw [entered]
    by_cases same : d = dev
    · subst same
      simp only [Function.update_self, List.mem_append, List.mem_singleton, agrees.device d q, and_true]
      exact or_comm
    · simp only [Function.update_of_ne same, agrees.device d q, same, and_false, false_or]
  · exact set_single c status agrees p dev _ (owner c status agrees p dev _ at_)

theorem unregisterHandle (p : Nat) (dev : Dev) (at_ : status p = some (dev, .listed)) :
    ∃ after, c.unregisterHandle p = some after ∧ Agrees after (status.set p dev (some .allocated)) := by
  have left : ∀ d q, (status.set p dev (some .allocated)).On d q ↔ q ≠ p ∧ status.On d q := by
    intro d q
    rw [set_on]
    simp [Stage.onLists]
  obtain ⟨busy, idle⟩ := set_users c status agrees p dev (some .allocated) (by simp [at_]) (by simp)
  refine ⟨{ c with hList := c.hList.erase p, dList := Function.update c.dList dev ((c.dList dev).erase p) }, ?_, fun q => ?_, ?_, ?_,
    ?_, ?_, ?_, busy, idle⟩
  · rw [Handles.unregisterHandle, found c status agrees p dev _ at_]
    rfl
  · exact set_cells c status agrees p dev _ .allocated at_ rfl q
  · exact agrees.ownOnce.erase p
  · intro q
    rw [agrees.ownOnce.mem_erase_iff, agrees.own q]
    simp only [left, exists_and_left]
  · intro d
    by_cases same : d = dev
    · subst same
      simpa only [Function.update_self] using (agrees.deviceOnce d).erase p
    · simpa only [Function.update_of_ne same] using agrees.deviceOnce d
  · intro d q
    rw [left]
    by_cases same : d = dev
    · subst same
      simp only [Function.update_self, (agrees.deviceOnce d).mem_erase_iff, agrees.device d q]
    · simp only [Function.update_of_ne same, agrees.device d q]
      refine ⟨fun on => ⟨?_, on⟩, And.right⟩
      rintro rfl
      obtain ⟨stage, found, -⟩ := on
      rw [at_] at found
      cases found
      exact same rfl
  · exact set_single c status agrees p dev _ (owner c status agrees p dev _ at_)

end Operations
end Agrees
end LinuxModule.InputCore
