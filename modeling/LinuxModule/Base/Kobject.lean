import LinuxModule.Base.Refcount

set_option autoImplicit false

namespace LinuxModule

-- A kobject inside the structure it is embedded in. One without a kset is added to a
-- directory that is always there.
structure Kobject (β : Type) where
  name : String
  kset : Option Nat
  inSysfs : Bool
  container : β
deriving DecidableEq

namespace Kobject

open Refcount

variable {β : Type}

abbrev Objects (β : Type) := Store (Kobject β)

-- Zeroed memory, with kset as its owner has set it, after kobject_init.
def init (kset : Option Nat) (container : β) (heap : Objects β) : Objects β :=
  new ⟨"", kset, false, container⟩ heap

-- kobject_add. It refers to its kset twice, as a member and as its parent; when it fails it
-- has dropped both again.
def add (p : Nat) (name : String) (heap : Objects β) : Option (Objects β) := do
  let object ← heap.read p
  let heap ← match object.content.kset with
    | none => some heap
    | some kset => (link p kset heap).bind (link p kset)
  modify p (fun kobj => { kobj with name := name, inSysfs := true }) heap

def del (p : Nat) (heap : Objects β) : Option (Objects β) :=
  modify p (fun kobj => { kobj with inSysfs := false }) heap

-- An object is allocated and added, or given up when it cannot be added.
def create (kset : Option Nat) (container : β) (name : String) (memory added : Bool) (heap : Objects β) :
    Option (Option Nat × Objects β) :=
  if memory = false then some (none, heap)
  else do
    let p := heap.size
    let heap := init kset container heap
    if added then some (some p, ← add p name heap)
    else some (none, ← put p heap)

-- The directory of this name; the last reference to a kobject takes its directory along.
def lookup (kset : Option Nat) (name : String) (heap : Objects β) : Option Nat :=
  (List.range heap.size).find? fun p =>
    (heap.read p).any fun object => object.content.inSysfs && object.content.name == name && object.content.kset == kset

variable (heap : Objects β)

-- A directory stands for the object it belongs to.
def Shown (p : Nat) (kset : Option Nat) (name : String) : Prop :=
  ∃ refs container, Holds heap p refs ⟨name, kset, true, container⟩

theorem shown_iff (p : Nat) (kset : Option Nat) (name : String) :
    ((heap.read p).any fun object => object.content.inSysfs && object.content.name == name && object.content.kset == kset) =
      true ↔ Shown heap p kset name := by
  simp only [Option.any_eq_true, Bool.and_eq_true, beq_iff_eq, and_assoc]
  constructor
  · rintro ⟨⟨refcount, refs, name, kset, shown, container⟩, found, rfl, rfl, rfl⟩
    exact ⟨refs, container, refcount, found⟩
  · rintro ⟨refs, container, refcount, found⟩
    exact ⟨_, found, rfl, rfl, rfl⟩

theorem lookup_shown (kset : Option Nat) (name : String) (p : Nat) (found : lookup kset name heap = some p) :
    Shown heap p kset name := by
  have here := List.find?_some found
  exact (shown_iff heap p kset name).mp here

theorem lookup_none_iff (kset : Option Nat) (name : String) :
    lookup kset name heap = none ↔ ∀ p, ¬ Shown heap p kset name := by
  constructor
  · intro missing p shown
    obtain ⟨refs, container, holds⟩ := shown
    have inside : p ∈ List.range heap.size := List.mem_range.mpr (holds_live heap p refs _ holds).1
    exact List.find?_eq_none.mp missing p inside ((shown_iff heap p kset name).mpr ⟨refs, container, holds⟩)
  · intro nowhere
    refine List.find?_eq_none.mpr fun p _ here => nowhere p ((shown_iff heap p kset name).mp here)

theorem lookup_unique (kset : Option Nat) (name : String) (p : Nat) (shown : Shown heap p kset name)
    (unique : ∀ q, Shown heap q kset name → q = p) : lookup kset name heap = some p := by
  cases found : lookup kset name heap with
  | none => exact absurd shown ((lookup_none_iff heap kset name).mp found p)
  | some q => rw [unique q (lookup_shown heap kset name q found)]

-- The references of an object that has been added.
def parents (kset : Option Nat) : List Nat := kset.toList ++ kset.toList

theorem add_counted (p : Nat) (name old : String) (kset : Option Nat) (container : β) (held : List Nat)
    (counted : Counted heap held) (holds : Holds heap p [] ⟨old, kset, false, container⟩)
    (older : ∀ k, kset = some k → k < p ∧ heap.Live k) :
    ∃ after, add p name heap = some after ∧ Counted after held ∧
      Holds after p (parents kset) ⟨name, kset, true, container⟩ ∧
      ∀ q refs kobj, q ≠ p → Holds heap q refs kobj → Holds after q refs kobj := by
  have reads := holds
  obtain ⟨refcount, found⟩ := reads
  cases kset with
  | none =>
      obtain ⟨after, modified, countedAfter, here, others⟩ := modify_counted p
        (fun kobj => { kobj with name := name, inSysfs := true }) heap held [] _ counted holds
      refine ⟨after, ?_, countedAfter, here, fun q refs kobj different before => (others q refs kobj different).mpr before⟩
      simpa only [add, found, Option.bind_eq_bind, Option.bind_some] using modified
  | some k =>
      obtain ⟨lower, live⟩ := older k rfl
      obtain ⟨once, linked, countedOnce, hereOnce, keptOnce⟩ := link_counted p k heap held [] _ counted holds lower live
      have liveOnce : once.Live k := by
        obtain ⟨object, foundK⟩ := Heap.live_read heap k live
        exact holds_live once k _ _ (keptOnce k object.refs object.content (Nat.ne_of_lt lower) ⟨object.refcount, foundK⟩)
      obtain ⟨twice, linkedAgain, countedTwice, hereTwice, keptTwice⟩ :=
        link_counted p k once held [k] _ countedOnce hereOnce lower liveOnce
      obtain ⟨after, modified, countedAfter, here, others⟩ := modify_counted p
        (fun kobj => { kobj with name := name, inSysfs := true }) twice held [k, k] _ countedTwice hereTwice
      refine ⟨after, ?_, countedAfter, here, fun q refs kobj different before =>
        (others q refs kobj different).mpr (keptTwice q refs kobj different (keptOnce q refs kobj different before))⟩
      simpa only [add, found, linked, linkedAgain, Option.bind_eq_bind, Option.bind_some] using modified

theorem trims_keep (after : Objects β) (held : List Nat) (trims : Trims heap after) (counted : Counted after held) :
    ∀ q ∈ held, ∀ refs kobj, Holds heap q refs kobj → Holds after q refs kobj :=
  fun q member refs kobj holds => trims_holds heap after trims q refs kobj holds (counted.live q member)

theorem create_counted (kset : Option Nat) (container : β) (name : String) (memory added : Bool) (held : List Nat)
    (counted : Counted heap held) (live : ∀ k, kset = some k → k ∈ held) :
    ∃ after, (∀ q ∈ held, ∀ refs kobj, Holds heap q refs kobj → Holds after q refs kobj) ∧
      (create kset container name memory added heap = some (none, after) ∧ Counted after held ∨
        memory = true ∧ added = true ∧ create kset container name memory added heap = some (some heap.size, after) ∧
          Counted after (heap.size :: held) ∧ Holds after heap.size (parents kset) ⟨name, kset, true, container⟩) := by
  cases memory with
  | false => exact ⟨heap, fun _ _ _ _ => id, .inl ⟨rfl, counted⟩⟩
  | true =>
      have countedNew : Counted (init kset container heap) (heap.size :: held) := new_counted _ heap held counted
      obtain ⟨here, kept⟩ := new_holds (⟨"", kset, false, container⟩ : Kobject β) heap
      cases added with
      | false =>
          obtain ⟨after, dropped, countedAfter, trims⟩ := put_counted heap.size _ held countedNew
          refine ⟨after, fun q member refs kobj holds => ?_, .inl ⟨?_, countedAfter⟩⟩
          · exact trims_keep _ after held trims countedAfter q member refs kobj (kept q refs kobj holds)
          · simp [create, dropped]
      | true =>
          obtain ⟨after, done, countedAfter, dir, others⟩ := add_counted _ heap.size name "" kset container _ countedNew here
            fun k same => ⟨(counted.live k (live k same)).1, countedNew.live k (List.mem_cons_of_mem _ (live k same))⟩
          refine ⟨after, fun q member refs kobj holds => ?_, .inr ⟨rfl, rfl, ?_, countedAfter, dir⟩⟩
          · exact others q refs kobj (Nat.ne_of_lt (counted.live q member).1) (kept q refs kobj holds)
          · simp [create, done]

end Kobject
end LinuxModule
