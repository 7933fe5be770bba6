import LinuxModule.Base.Kobject
import LinuxModule.Sysfs.Attributes

set_option autoImplicit false

namespace LinuxModule.KobjectExample

open Refcount Kobject Sysfs

-- The module's next call.
inductive Point where
  | unloaded
  | createKobj
  | createGroup
  | loaded
deriving DecidableEq

inductive Fault where
  | badAddress
deriving DecidableEq, Repr

-- A kobject stands alone here; with it, whether the files of attr_group are in its directory.
structure State where
  heap : Objects Bool
  exampleKobj : Option Nat
  vars : Vars
  point : Point

inductive Note where
  | made
  | gone
  | returned (value : Int)
  | answered (answer : Answer)
deriving DecidableEq

-- The calls of example_init have what the kernel does with them.
inductive Event where
  | load
  | kobjectCreateAndAdd (memory added : Bool)
  | sysfsCreateGroup (retval : Int)
  | exit
  | read (file : String)
  | write (file : String) (bytes : List UInt8)
deriving DecidableEq

def kobjectPut (kobj : Option Nat) (heap : Objects Bool) : Except Fault (Objects Bool) :=
  match kobj with
  | none => .ok heap
  | some p =>
      match put p heap with
      | none => .error .badAddress
      | some heap => .ok heap

-- Whether there are files under /sys/kernel/kobject_example.
def files (heap : Objects Bool) : Bool :=
  ((lookup none "kobject_example" heap).bind heap.read).any fun object => object.content.container

def step (s : State) : Event → Except Fault (List Note × State)
  | .load => .ok ([], { s with exampleKobj := none, vars := zeroed, point := .createKobj })
  | .kobjectCreateAndAdd memory added =>
      match create none false "kobject_example" memory added s.heap with
      | none => .error .badAddress
      | some (none, heap) => .ok ([.returned (-enomem)], { s with heap := heap, exampleKobj := none, point := .unloaded })
      | some (some p, heap) => .ok ([], { s with heap := heap, exampleKobj := some p, point := .createGroup })
  | .sysfsCreateGroup retval =>
      if retval ≠ 0 then do
        let heap ← kobjectPut s.exampleKobj s.heap
        .ok ([.returned retval], { s with heap := heap, point := .unloaded })
      else
        match s.exampleKobj.bind fun p => modify p (fun kobj => { kobj with container := true }) s.heap with
        | none => .error .badAddress
        | some heap => .ok ([.made, .returned retval], { s with heap := heap, point := .loaded })
  | .exit => do
      let heap ← kobjectPut s.exampleKobj s.heap
      .ok ([.gone], { s with heap := heap, point := .unloaded })
  | .read file => .ok ([.answered (if files s.heap then readFile file s.vars else .ret (-enoent))], s)
  | .write file bytes =>
      if files s.heap then
        let (answer, vars) := writeFile file bytes s.vars
        .ok ([.answered answer], { s with vars := vars })
      else .ok ([.answered (.ret (-enoent))], s)

def guard (s : State) : Event → Prop
  | .load => s.point = .unloaded
  | .kobjectCreateAndAdd _ _ => s.point = .createKobj
  | .sysfsCreateGroup _ => s.point = .createGroup
  | .exit => s.point = .loaded
  | .read _ => True
  | .write _ _ => True

instance (s : State) (e : Event) : Decidable (guard s e) :=
  match e with
  | .load => inferInstanceAs (Decidable (_ = _))
  | .kobjectCreateAndAdd _ _ => inferInstanceAs (Decidable (_ = _))
  | .sysfsCreateGroup _ => inferInstanceAs (Decidable (_ = _))
  | .exit => inferInstanceAs (Decidable (_ = _))
  | .read _ => .isTrue trivial
  | .write _ _ => .isTrue trivial

def boot : State := ⟨Heap.empty, none, zeroed, .unloaded⟩

-- The settings as they follow from what has been seen.
def Note.record (s : Settings String) : Note → Settings String
  | .made => zeroed.settings
  | .gone => fun _ => none
  | _ => s

def record (s : Settings String) (seen : Event × List Note) : Settings String :=
  let s := match seen.1 with
    | .write file bytes => (s.write file bytes).2
    | _ => s
  seen.2.foldl Note.record s

def settingsAfter (evs : List Event) (outs : List (List Note)) : Settings String :=
  (evs.zip outs).foldl record fun _ => none

-- The kobject is the only object, and its directory has files when example_init is done.
inductive Stands (s : State) (settings : Settings String) : List Nat → Prop where
  | unloaded (here : s.point = .unloaded) (unset : settings = fun _ => none) : Stands s settings []
  | createKobj (here : s.point = .createKobj) (unset : settings = fun _ => none) (fresh : s.vars = zeroed) : Stands s settings []
  | createGroup (p : Nat) (here : s.point = .createGroup) (unset : settings = fun _ => none) (fresh : s.vars = zeroed)
      (pointer : s.exampleKobj = some p) (dir : Holds s.heap p [] ⟨"kobject_example", none, true, false⟩) : Stands s settings [p]
  | loaded (p : Nat) (here : s.point = .loaded) (set : settings = s.vars.settings) (pointer : s.exampleKobj = some p)
      (dir : Holds s.heap p [] ⟨"kobject_example", none, true, true⟩) : Stands s settings [p]

def Inv (s : State) (settings : Settings String) : Prop := ∃ held, Counted s.heap held ∧ Stands s settings held

theorem alone (heap : Objects Bool) (p : Nat) (kobj : Kobject Bool) (counted : Counted heap [p]) (holds : Holds heap p [] kobj)
    (q : Nat) : heap.Live q ↔ q = p := by
  rw [live_iff_held heap [p] counted fun p' member object found q' inRefs => ?_, List.mem_singleton]
  obtain rfl := List.mem_singleton.mp member
  rw [(holds_unique heap p' _ _ _ _ holds ⟨object.refcount, found⟩).1] at inRefs
  cases inRefs

theorem files_iff (heap : Objects Bool) (p : Nat) (group : Bool) (counted : Counted heap [p])
    (holds : Holds heap p [] ⟨"kobject_example", none, true, group⟩) : files heap = group := by
  have dir : lookup none "kobject_example" heap = some p :=
    lookup_unique heap none "kobject_example" p ⟨[], group, holds⟩ fun q ⟨refs, container, other⟩ =>
      (alone heap p _ counted holds q).mp (holds_live heap q refs _ other)
  obtain ⟨refcount, found⟩ := holds
  rw [files, dir, Option.bind_some, found, Option.any_some]

theorem no_files (heap : Objects Bool) (counted : Counted heap []) : files heap = false := by
  have missing : lookup none "kobject_example" heap = none := by
    refine (lookup_none_iff heap none "kobject_example").mpr fun p ⟨refs, container, holds⟩ => ?_
    have held := (live_iff_held heap [] counted (fun p' member => absurd member List.not_mem_nil) p).mp (holds_live heap p refs _ holds)
    exact List.not_mem_nil held
  rw [files, missing, Option.bind_none, Option.any_none]

theorem stands_files (s : State) (held : List Nat) (settings : Settings String) (counted : Counted s.heap held)
    (stands : Stands s settings held) :
    files s.heap = true ∧ s.point = .loaded ∧ settings = s.vars.settings ∨ files s.heap = false ∧ settings = fun _ => none := by
  cases stands with
  | unloaded _ unset => exact .inr ⟨no_files s.heap counted, unset⟩
  | createKobj _ unset _ => exact .inr ⟨no_files s.heap counted, unset⟩
  | createGroup p _ unset _ _ dir => exact .inr ⟨files_iff s.heap p false counted dir, unset⟩
  | loaded p here set _ dir => exact .inl ⟨files_iff s.heap p true counted dir, here, set⟩

theorem read_settings (s : State) (settings : Settings String) (inv : Inv s settings) (file : String) :
    step s (.read file) = .ok ([.answered (settings.read file)], s) := by
  obtain ⟨held, counted, stands⟩ := inv
  rcases stands_files s held settings counted stands with ⟨there, -, rfl⟩ | ⟨absent, rfl⟩
  · simp only [step, there, if_true, read_file_settings]
  · simp only [step, absent, Bool.false_eq_true, if_false, Settings.read]

theorem write_settings (s : State) (settings : Settings String) (inv : Inv s settings) (file : String) (bytes : List UInt8) :
    ∃ after, step s (.write file bytes) = .ok ([.answered (settings.write file bytes).1], after) ∧
      Inv after (settings.write file bytes).2 := by
  obtain ⟨held, counted, stands⟩ := inv
  rcases stands_files s held settings counted stands with ⟨there, loaded, same⟩ | ⟨absent, same⟩
  · obtain ⟨answers, written⟩ := write_file_settings file bytes s.vars
    refine ⟨{ s with vars := (writeFile file bytes s.vars).2 }, ?_, held, counted, ?_⟩
    · simp only [step, there, if_true, answers, same]
    · rw [same, ← written]
      cases stands with
      | unloaded here => simp [here] at loaded
      | createKobj here => simp [here] at loaded
      | createGroup _ here => simp [here] at loaded
      | loaded p here _ pointer dir => exact .loaded p here rfl pointer dir
  · refine ⟨s, ?_, held, counted, ?_⟩
    · simp only [step, absent, Bool.false_eq_true, if_false, Settings.write, same]
    · simpa only [Settings.write, same] using stands

theorem put_last (s : State) (p : Nat) (counted : Counted s.heap [p]) (pointer : s.exampleKobj = some p) :
    ∃ after, kobjectPut s.exampleKobj s.heap = .ok after ∧ Counted after [] := by
  obtain ⟨after, dropped, countedAfter, -⟩ := put_counted p s.heap [] counted
  exact ⟨after, by simp only [kobjectPut, pointer, dropped], countedAfter⟩

theorem step_settings (s : State) (settings : Settings String) (inv : Inv s settings) (e : Event) (allowed : guard s e) :
    ∃ notes after, step s e = .ok (notes, after) ∧ Inv after (record settings (e, notes)) := by
  cases e with
  | read file => exact ⟨_, s, read_settings s settings inv file, inv⟩
  | write file bytes =>
      obtain ⟨after, done, invAfter⟩ := write_settings s settings inv file bytes
      exact ⟨_, after, done, invAfter⟩
  | load =>
      obtain ⟨held, counted, stands⟩ := inv
      have here : s.point = .unloaded := allowed
      cases stands with
      | unloaded _ unset => exact ⟨[], _, rfl, [], counted, .createKobj rfl unset rfl⟩
      | createKobj other => simp [here] at other
      | createGroup _ other => simp [here] at other
      | loaded _ other => simp [here] at other
  | kobjectCreateAndAdd memory added =>
      obtain ⟨held, counted, stands⟩ := inv
      have here : s.point = .createKobj := allowed
      cases stands with
      | unloaded other => simp [here] at other
      | createGroup _ other => simp [here] at other
      | loaded _ other => simp [here] at other
      | createKobj _ unset fresh =>
          obtain ⟨heap, -, ⟨failed, countedAfter⟩ | ⟨-, -, made, countedAfter, dir⟩⟩ :=
            create_counted s.heap none false "kobject_example" memory added [] counted fun k none_there => by cases none_there
          · refine ⟨[.returned (-enomem)], { s with heap := heap, exampleKobj := none, point := .unloaded }, ?_, [],
              countedAfter, .unloaded rfl unset⟩
            simp only [step, failed]
          · refine ⟨[], { s with heap := heap, exampleKobj := some s.heap.size, point := .createGroup }, ?_, [s.heap.size],
              countedAfter, .createGroup s.heap.size rfl unset fresh rfl dir⟩
            simp only [step, made]
  | sysfsCreateGroup retval =>
      obtain ⟨held, counted, stands⟩ := inv
      have here : s.point = .createGroup := allowed
      cases stands with
      | unloaded other => simp [here] at other
      | createKobj other => simp [here] at other
      | loaded _ other => simp [here] at other
      | createGroup p _ unset fresh pointer dir =>
          by_cases failed : retval ≠ 0
          · obtain ⟨after, dropped, countedAfter⟩ := put_last s p counted pointer
            refine ⟨[.returned retval], { s with heap := after, point := .unloaded }, ?_, [], countedAfter, .unloaded rfl unset⟩
            simp only [step, if_pos failed, dropped, except_ok_bind]
          · obtain ⟨after, modified, countedAfter, shown, -⟩ :=
              modify_counted p (fun kobj => { kobj with container := true }) s.heap [p] _ _ counted dir
            refine ⟨[.made, .returned retval], { s with heap := after, point := .loaded }, ?_, [p], countedAfter,
              .loaded p rfl (congrArg Vars.settings fresh.symm) pointer shown⟩
            simp only [step, if_neg failed, pointer, Option.bind_some, modified]
  | exit =>
      obtain ⟨held, counted, stands⟩ := inv
      have here : s.point = .loaded := allowed
      cases stands with
      | unloaded other => simp [here] at other
      | createKobj other => simp [here] at other
      | createGroup _ other => simp [here] at other
      | loaded p _ _ pointer dir =>
          obtain ⟨after, dropped, countedAfter⟩ := put_last s p counted pointer
          refine ⟨[.gone], { s with heap := after, point := .unloaded }, ?_, [], countedAfter, .unloaded rfl rfl⟩
          simp only [step, dropped, except_ok_bind]

theorem inv_live (s : State) (settings : Settings String) (inv : Inv s settings) (p : Nat) :
    s.heap.Live p ↔ (s.point = .createGroup ∨ s.point = .loaded) ∧ s.exampleKobj = some p := by
  obtain ⟨held, counted, stands⟩ := inv
  have empty : ∀ counted : Counted s.heap [], ¬ s.heap.Live p := fun counted live => List.not_mem_nil
    ((live_iff_held s.heap [] counted (fun p' member => absurd member List.not_mem_nil) p).mp live)
  cases stands with
  | unloaded here => simp [here, empty counted]
  | createKobj here => simp [here, empty counted]
  | createGroup p' here _ _ pointer dir => simp [here, pointer, alone s.heap p' _ counted dir p, eq_comm]
  | loaded p' here _ pointer dir => simp [here, pointer, alone s.heap p' _ counted dir p, eq_comm]

theorem run_settings (evs : List Event) (outs : List (List Note)) (last : State)
    (run : Run step guard boot evs outs last) : evs.length = outs.length ∧ Inv last (settingsAfter evs outs) := by
  induction run with
  | start => exact ⟨rfl, [], empty_counted, .unloaded rfl rfl⟩
  | next evs outs middle e out after _ allowed done ih =>
      obtain ⟨same, inv⟩ := ih
      obtain ⟨notes, next, again, invAfter⟩ := step_settings middle _ inv e allowed
      obtain ⟨rfl, rfl⟩ := Prod.mk.inj (Except.ok.inj (done.symm.trans again))
      refine ⟨by simp [same], ?_⟩
      rw [settingsAfter, List.zip_append same, List.foldl_append]
      exact invAfter

-- The three files answer from what each last accepted since the module was loaded, and the
-- kobject is there from its creation to the module's end, when it has been freed once.
theorem example_files (evs : List Event) (outs : List (List Note)) (last : State)
    (run : Run step guard boot evs outs last) :
    (∀ file, step last (.read file) = .ok ([.answered ((settingsAfter evs outs).read file)], last)) ∧
      (∀ file bytes, ∃ after,
        step last (.write file bytes) = .ok ([.answered ((settingsAfter evs outs).write file bytes).1], after)) ∧
      (∀ p, last.heap.Live p ↔ (last.point = .createGroup ∨ last.point = .loaded) ∧ last.exampleKobj = some p) ∧
      ∀ e, guard last e → ∃ r, step last e = .ok r := by
  obtain ⟨-, inv⟩ := run_settings evs outs last run
  refine ⟨read_settings last _ inv, fun file bytes => ?_, fun p => ?_, fun e allowed => ?_⟩
  · obtain ⟨after, done, -⟩ := write_settings last _ inv file bytes
    exact ⟨after, done⟩
  · exact inv_live last _ inv p
  · obtain ⟨notes, after, done, -⟩ := step_settings last _ inv e allowed
    exact ⟨_, done⟩

-- "-7" is written to foo, and something that is no number after it.
def sampleEvents : List Event :=
  [.load, .kobjectCreateAndAdd true true, .sysfsCreateGroup 0, .write "foo" [45, 55], .write "foo" [55, 32]]

theorem example_files_ex : ∃ outs last, Run step guard boot sampleEvents outs last ∧
    step last (.read "foo") = .ok ([.answered (.data [45, 55, 10])], last) := by
  obtain ⟨⟨outs, last⟩, computed, same⟩ := Option.map_eq_some_iff.mp
    (by decide +kernel : (Run.eval step guard boot sampleEvents).map Prod.fst =
      some [[], [], [.made, .returned 0], [.answered (.ret 2)], [.answered (.ret (-22))]])
  have run := Run.eval_run _ _ _ _ _ _ computed
  have answered := (example_files sampleEvents outs last run).1 "foo"
  have seven : (settingsAfter sampleEvents outs).read "foo" = .data [45, 55, 10] := by
    rw [show outs = _ from same]
    decide +kernel
  rw [seven] at answered
  exact ⟨outs, last, run, answered⟩

end LinuxModule.KobjectExample
