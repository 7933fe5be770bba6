import LinuxModule.Sysfs.KsetExample

set_option autoImplicit false

namespace LinuxModule.KsetExample

open Refcount Kobject Sysfs
open Kstrto (einval)

-- The settings as they follow from what has been seen.
def Note.record (s : Settings (String × String)) : Note → Settings (String × String)
  | .made obj => fun key => if key.1 = obj.name then zeroed.settings key.2 else s key
  | .gone obj => fun key => if key.1 = obj.name then none else s key
  | _ => s

def record (s : Settings (String × String)) (seen : Event × List Note) : Settings (String × String) :=
  let s := match seen.1 with
    | .write dir file bytes => (s.write (dir, file) bytes).2
    | _ => s
  seen.2.foldl Note.record s

-- The cleanup that is due at this point.
def Point.due : Point → List Cleanup
  | .unloaded => []
  | .createKset => []
  | .create obj => label obj
  | .loaded => exampleExit
  | .cleaning calls _ => calls

-- The objects behind the calls of a cleanup, and the settings they hold.
inductive Built (heap : Objects Container) (exampleKset : Option Nat) (objs : Obj → Option Nat) :
    List Cleanup → List Nat → Settings (String × String) → Prop where
  | nothing : Built heap exampleKset objs [] [] fun _ => none
  | kset (k : Nat) (pointer : exampleKset = some k) (dir : Holds heap k [] ⟨"kset_example", none, true, .kset⟩) :
      Built heap exampleKset objs [.unregister] [k] fun _ => none
  | obj (obj : Obj) (vars : Vars) (k p : Nat) (calls : List Cleanup) (held : List Nat) (settings : Settings (String × String))
      (rest : Built heap exampleKset objs calls held settings) (fresh : .destroy obj ∉ calls) (member : k ∈ held)
      (kset : exampleKset = some k) (pointer : objs obj = some p)
      (dir : Holds heap p [k, k] ⟨obj.name, some k, true, .foo vars⟩) :
      Built heap exampleKset objs (.destroy obj :: calls) (p :: held)
        fun key => if key.1 = obj.name then vars.settings key.2 else settings key

theorem name_injective (obj other : Obj) (same : obj.name = other.name) : obj = other := by
  cases obj <;> cases other <;> simp_all [Obj.name]

section Built

variable (heap after : Objects Container) (exampleKset next : Option Nat) (objs others : Obj → Option Nat)
  (calls : List Cleanup) (held : List Nat) (settings : Settings (String × String))

theorem built_keeps (built : Built heap exampleKset objs calls held settings) (ksets : next = exampleKset)
    (pointers : ∀ obj, .destroy obj ∈ calls → others obj = objs obj)
    (kept : ∀ q ∈ held, ∀ refs kobj, Holds heap q refs kobj → Holds after q refs kobj) :
    Built after next others calls held settings := by
  induction built with
  | nothing => exact .nothing
  | kset k pointer dir => exact .kset k (ksets.trans pointer) (kept k List.mem_cons_self _ _ dir)
  | obj obj vars k p calls held settings rest fresh member kset pointer dir ih =>
      exact .obj obj vars k p calls held settings
        (ih (fun other inCalls => pointers other (List.mem_cons_of_mem _ inCalls))
          fun q inHeld => kept q (List.mem_cons_of_mem _ inHeld))
        fresh member (ksets.trans kset) ((pointers obj List.mem_cons_self).trans pointer)
        (kept p List.mem_cons_self _ _ dir)

-- The object behind a global, with the variables it holds.
structure Placed (obj : Obj) (q k : Nat) (vars : Vars) : Prop where
  inHeld : q ∈ held
  pointer : objs obj = some q
  current : exampleKset = some k
  ksetHeld : k ∈ held
  dir : Holds heap q [k, k] ⟨obj.name, some k, true, .foo vars⟩
  reads : ∀ file, settings (obj.name, file) = vars.settings file

theorem built_object (built : Built heap exampleKset objs calls held settings) (obj : Obj)
    (inCalls : .destroy obj ∈ calls) : ∃ q k vars, Placed heap exampleKset objs held settings obj q k vars := by
  induction built with
  | nothing => exact absurd inCalls List.not_mem_nil
  | kset k pointer dir => simp at inCalls
  | obj other vars k p calls held settings rest fresh member kset pointer dir ih =>
      by_cases same : obj = other
      · subst same
        exact ⟨p, k, vars, List.mem_cons_self, pointer, kset, List.mem_cons_of_mem _ member, dir, fun file => if_pos rfl⟩
      · have older : Cleanup.destroy obj ∈ calls :=
          (List.mem_cons.mp inCalls).resolve_left fun first => same (Cleanup.destroy.inj first)
        obtain ⟨q, k', varsObj, placed⟩ := ih older
        have different : obj.name ≠ other.name := fun names => same (name_injective obj other names)
        exact ⟨q, k', varsObj, List.mem_cons_of_mem _ placed.inHeld, placed.pointer, placed.current,
          List.mem_cons_of_mem _ placed.ksetHeld, placed.dir, fun file => (if_neg different).trans (placed.reads file)⟩

theorem built_members (built : Built heap exampleKset objs calls held settings) (q : Nat) (member : q ∈ held) :
    exampleKset = some q ∧ Holds heap q [] ⟨"kset_example", none, true, .kset⟩ ∨
      ∃ obj, Cleanup.destroy obj ∈ calls ∧ objs obj = some q := by
  induction built with
  | nothing => exact absurd member List.not_mem_nil
  | kset k pointer dir =>
      obtain rfl := List.mem_singleton.mp member
      exact .inl ⟨pointer, dir⟩
  | obj obj vars k p calls held settings rest fresh _ kset pointer dir ih =>
      rcases List.mem_cons.mp member with rfl | older
      · exact .inr ⟨obj, List.mem_cons_self, pointer⟩
      · exact (ih older).imp id fun ⟨other, inCalls, found⟩ => ⟨other, List.mem_cons_of_mem _ inCalls, found⟩

-- What stands behind a pointer that is held.
theorem built_stands (built : Built heap exampleKset objs calls held settings) (q : Nat) (member : q ∈ held) :
    exampleKset = some q ∧ Holds heap q [] ⟨"kset_example", none, true, .kset⟩ ∨
      ∃ obj k vars, Cleanup.destroy obj ∈ calls ∧ Placed heap exampleKset objs held settings obj q k vars := by
  rcases built_members heap exampleKset objs calls held settings built q member with here | ⟨obj, inCalls, found⟩
  · exact .inl here
  · obtain ⟨q', k, vars, placed⟩ := built_object heap exampleKset objs calls held settings built obj inCalls
    obtain rfl := Option.some.inj (placed.pointer.symm.trans found)
    exact .inr ⟨obj, k, vars, inCalls, placed⟩

theorem built_unset (built : Built heap exampleKset objs calls held settings) (dir file : String)
    (absent : ∀ obj, .destroy obj ∈ calls → dir ≠ obj.name) : settings (dir, file) = none := by
  induction built with
  | nothing => rfl
  | kset k pointer _ => rfl
  | obj other vars k p calls held settings rest fresh member kset pointer _ ih =>
      exact (if_neg (absent other List.mem_cons_self)).trans
        (ih fun obj inCalls => absent obj (List.mem_cons_of_mem _ inCalls))

theorem built_closed (built : Built heap exampleKset objs calls held settings) :
    ∀ p ∈ held, ∀ object, heap.read p = some object → ∀ q ∈ object.refs, q ∈ held := by
  intro p inHeld object found q member
  have holds : Holds heap p object.refs object.content := ⟨object.refcount, found⟩
  rcases built_stands heap exampleKset objs calls held settings built p inHeld with ⟨-, here⟩ | ⟨_, k, _, -, placed⟩
  · rw [(holds_unique heap p _ _ _ _ here holds).1] at member
    exact absurd member List.not_mem_nil
  · rw [(holds_unique heap p _ _ _ _ placed.dir holds).1] at member
    obtain rfl : q = k := by simpa using member
    exact placed.ksetHeld

theorem built_live (built : Built heap exampleKset objs calls held settings) (counted : Counted heap held) (p : Nat) :
    heap.Live p ↔ p ∈ held :=
  live_iff_held heap held counted (built_closed heap exampleKset objs calls held settings built) p

-- Whose directory this is: that of the kset, or that of an object in it.
theorem shown_stands (built : Built heap exampleKset objs calls held settings) (counted : Counted heap held) (q : Nat)
    (kset : Option Nat) (name : String) (shown : Shown heap q kset name) :
    kset = none ∧ exampleKset = some q ∨
      kset ≠ none ∧ ∃ obj, Cleanup.destroy obj ∈ calls ∧ objs obj = some q ∧ name = obj.name := by
  obtain ⟨refs, container, holds⟩ := shown
  have inHeld := (built_live heap exampleKset objs calls held settings built counted q).mp (holds_live heap q refs _ holds)
  rcases built_stands heap exampleKset objs calls held settings built q inHeld with ⟨pointer, here⟩ | ⟨obj, k, _, inCalls, placed⟩
  · have same := (holds_unique heap q _ _ _ _ here holds).2
    simp only [Kobject.mk.injEq] at same
    exact .inl ⟨same.2.1, pointer⟩
  · have same := (holds_unique heap q _ _ _ _ placed.dir holds).2
    simp only [Kobject.mk.injEq] at same
    obtain ⟨rfl, rfl, -⟩ := same
    exact .inr ⟨Option.some_ne_none k, obj, inCalls, placed.pointer, rfl⟩

theorem kset_found (built : Built heap exampleKset objs calls held settings) (counted : Counted heap held) (k : Nat)
    (current : exampleKset = some k) (member : k ∈ held) : lookup none "kset_example" heap = some k := by
  have unique : ∀ q, Shown heap q none "kset_example" → q = k := by
    intro q shown
    rcases shown_stands heap exampleKset objs calls held settings built counted q _ _ shown with ⟨-, here⟩ | ⟨other, -⟩
    · exact Option.some.inj (here.symm.trans current)
    · exact absurd rfl other
  have dir : Holds heap k [] ⟨"kset_example", none, true, .kset⟩ := by
    clear unique counted
    induction built with
    | nothing => exact absurd member List.not_mem_nil
    | kset k' pointer dir =>
        obtain rfl := List.mem_singleton.mp member
        exact dir
    | obj obj vars k' p calls held settings rest fresh inHeld kset pointer dir ih =>
        obtain rfl := Option.some.inj (kset.symm.trans current)
        exact ih inHeld
  exact lookup_unique heap none "kset_example" k ⟨[], .kset, dir⟩ unique

theorem folder_found (built : Built heap exampleKset objs calls held settings) (counted : Counted heap held) (obj : Obj)
    (inCalls : .destroy obj ∈ calls) :
    ∃ p k vars, folder obj.name heap = some (p, vars) ∧ Placed heap exampleKset objs held settings obj p k vars := by
  obtain ⟨p, k, vars, placed⟩ := built_object heap exampleKset objs calls held settings built obj inCalls
  have kset := kset_found heap exampleKset objs calls held settings built counted k placed.current placed.ksetHeld
  have dir : lookup (some k) obj.name heap = some p := by
    refine lookup_unique heap (some k) obj.name p ⟨[k, k], .foo vars, placed.dir⟩ fun q shown => ?_
    rcases shown_stands heap exampleKset objs calls held settings built counted q _ _ shown with
      ⟨other, -⟩ | ⟨-, other, -, pointer, names⟩
    · cases other
    · obtain rfl := name_injective obj other names
      exact Option.some.inj (pointer.symm.trans placed.pointer)
  obtain ⟨refcount, found⟩ := placed.dir
  refine ⟨p, k, vars, ?_, placed⟩
  simp only [folder, kset, dir, found, Option.bind_eq_bind, Option.bind_some]

theorem folder_missing (built : Built heap exampleKset objs calls held settings) (counted : Counted heap held) (dir : String)
    (absent : ∀ obj, .destroy obj ∈ calls → dir ≠ obj.name) : folder dir heap = none := by
  cases kset : lookup none "kset_example" heap with
  | none => simp only [folder, kset, Option.bind_eq_bind, Option.bind_none]
  | some k =>
      have missing : lookup (some k) dir heap = none := by
        refine (lookup_none_iff heap (some k) dir).mpr fun q shown => ?_
        rcases shown_stands heap exampleKset objs calls held settings built counted q _ _ shown with
          ⟨other, -⟩ | ⟨-, obj, inCalls, -, names⟩
        · cases other
        · exact absent obj inCalls names
      simp only [folder, kset, missing, Option.bind_eq_bind, Option.bind_some, Option.bind_none]

theorem built_kset (built : Built heap exampleKset objs calls held settings) (some_call : calls ≠ []) :
    ∃ k, exampleKset = some k ∧ k ∈ held := by
  cases built with
  | nothing => exact absurd rfl some_call
  | kset k pointer _ => exact ⟨k, pointer, List.mem_cons_self⟩
  | obj _ _ k _ _ _ _ _ _ member kset _ _ => exact ⟨k, kset, List.mem_cons_of_mem _ member⟩

theorem built_apart (built : Built heap exampleKset objs calls held settings) (obj : Obj) (fresh : .destroy obj ∉ calls)
    (p k : Nat) (vars : Vars) (dir : Holds heap p [k, k] ⟨obj.name, some k, true, .foo vars⟩) : p ∉ held := by
  intro member
  rcases built_stands heap exampleKset objs calls held settings built p member with ⟨-, here⟩ | ⟨other, _, _, inCalls, placed⟩
  · have same := (holds_unique heap p _ _ _ _ here dir).2
    simp at same
  · have same := (holds_unique heap p _ _ _ _ placed.dir dir).2
    simp only [Kobject.mk.injEq] at same
    exact fresh (name_injective obj other same.1 ▸ inCalls)

theorem built_nodup (built : Built heap exampleKset objs calls held settings) : held.Nodup := by
  induction built with
  | nothing => exact List.nodup_nil
  | kset k _ _ => exact List.nodup_singleton k
  | obj obj vars k p calls held settings rest fresh _ _ _ dir ih =>
      exact List.nodup_cons.mpr ⟨built_apart heap exampleKset objs calls held settings rest obj fresh p k vars dir, ih⟩

-- The variables of one object have changed.
theorem built_write (built : Built heap exampleKset objs calls held settings) (obj : Obj) (inCalls : .destroy obj ∈ calls)
    (p k : Nat) (vars : Vars) (pointer : objs obj = some p) (current : exampleKset = some k)
    (dir : Holds after p [k, k] ⟨obj.name, some k, true, .foo vars⟩)
    (others : ∀ q refs kobj, q ≠ p → Holds heap q refs kobj → Holds after q refs kobj) :
    Built after exampleKset objs calls held fun key => if key.1 = obj.name then vars.settings key.2 else settings key := by
  induction built with
  | nothing => exact absurd inCalls List.not_mem_nil
  | kset => simp at inCalls
  | obj other varsOther k' p' calls held settings rest fresh member kset pointerOther dirOther ih =>
      have apart := built_apart heap exampleKset objs calls held settings rest other fresh p' k' varsOther dirOther
      by_cases same : obj = other
      · subst same
        obtain rfl : p' = p := Option.some.inj (pointerOther.symm.trans pointer)
        obtain rfl : k' = k := Option.some.inj (kset.symm.trans current)
        have kept := built_keeps heap after exampleKset exampleKset objs objs calls held settings rest rfl (fun _ _ => rfl)
          fun q inHeld refs kobj holds => others q refs kobj (fun here => apart (here ▸ inHeld)) holds
        refine cast (congrArg _ (funext fun key => ?_)) (Built.obj obj vars k' p' calls held settings kept fresh member kset pointer dir)
        by_cases here : key.1 = obj.name <;> simp [here]
      · have older : Cleanup.destroy obj ∈ calls :=
          (List.mem_cons.mp inCalls).resolve_left fun first => same (Cleanup.destroy.inj first)
        have different : p' ≠ p := by
          obtain ⟨q, _, _, placed⟩ := built_object heap exampleKset objs calls held settings rest obj older
          obtain rfl := Option.some.inj (placed.pointer.symm.trans pointer)
          exact fun here => apart (here ▸ placed.inHeld)
        refine cast (congrArg _ (funext fun key => ?_)) (Built.obj other varsOther k' p' calls held _ (ih older) fresh member kset
          pointerOther (others p' _ _ different dirOther))
        by_cases here : key.1 = other.name
        · have elsewhere : ¬ key.1 = obj.name := fun names => same (name_injective obj other (names.symm.trans here))
          simp only [if_pos here, if_neg elsewhere]
        · simp only [if_neg here]

end Built

def Inv (s : State) (settings : Settings (String × String)) : Prop :=
  ∃ held, Counted s.heap held ∧ Built s.heap s.exampleKset s.objs s.point.due held settings

theorem or_fault_some {α : Type} (a : α) : orFault (some a) = .ok a := rfl

theorem call_creates_kset (attempt : Attempt) (s : State) (settings : Settings (String × String)) (inv : Inv s settings)
    (here : s.point = .createKset) :
    ∃ notes after, call attempt s = .ok (notes, after) ∧ Inv after (notes.foldl Note.record settings) := by
  obtain ⟨held, counted, built⟩ := inv
  rw [here] at built
  cases built
  obtain ⟨heap, -, ⟨failed, countedAfter⟩ | ⟨-, -, made, countedAfter, dir⟩⟩ :=
    create_counted s.heap none .kset "kset_example" attempt.memory attempt.added [] counted
      fun k none_there => by cases none_there
  · refine ⟨[.returned (-enomem)], { s with heap := heap, point := .unloaded }, ?_, [], countedAfter, .nothing⟩
    simp only [call, here, ksetCreateAndAdd, failed, or_fault_some, except_ok_bind]
  · refine ⟨[], { s with heap := heap, exampleKset := some s.heap.size, point := .create .foo }, ?_, [s.heap.size], countedAfter,
      .kset s.heap.size rfl dir⟩
    simp only [call, here, ksetCreateAndAdd, made, or_fault_some, except_ok_bind]

theorem create_foo_obj (name : String) (attempt : Attempt) (exampleKset : Option Nat) (heap : Objects Container) :
    createFooObj name attempt exampleKset heap = create exampleKset (.foo zeroed) name attempt.memory attempt.added heap := rfl

-- What is due once the object is there, and that it was not due before.
theorem due_onward (obj : Obj) : (onward obj).due = .destroy obj :: label obj ∧ .destroy obj ∉ label obj ∧ label obj ≠ [] := by
  cases obj <;> decide

theorem call_creates_obj (attempt : Attempt) (s : State) (settings : Settings (String × String)) (inv : Inv s settings)
    (obj : Obj) (here : s.point = .create obj) :
    ∃ notes after, call attempt s = .ok (notes, after) ∧ Inv after (notes.foldl Note.record settings) := by
  obtain ⟨held, counted, built⟩ := inv
  rw [here] at built
  obtain ⟨dueNext, fresh, some_due⟩ := due_onward obj
  obtain ⟨k, current, member⟩ := built_kset s.heap s.exampleKset s.objs _ held settings built some_due
  obtain ⟨heap, kept, outcome⟩ := create_counted s.heap s.exampleKset (.foo zeroed) obj.name attempt.memory attempt.added held
    counted fun k' same => by obtain rfl := Option.some.inj (current.symm.trans same); exact member
  have carried : ∀ foo, Built heap s.exampleKset (Function.update s.objs obj foo) (label obj) held settings := by
    intro foo
    refine built_keeps s.heap heap s.exampleKset s.exampleKset s.objs _ _ held settings built rfl (fun other inCalls => ?_) kept
    have different : other ≠ obj := fun same => fresh (same ▸ inCalls)
    exact Function.update_of_ne different foo s.objs
  rcases outcome with ⟨failed, countedAfter⟩ | ⟨-, -, made, countedAfter, dir⟩
  · refine ⟨[], { s with heap := heap, objs := Function.update s.objs obj none, point := .cleaning (label obj) (some (-einval)) },
      ?_, held, countedAfter, carried none⟩
    simp only [call, here, create_foo_obj, failed, or_fault_some, except_ok_bind]
  · have built := Built.obj obj zeroed k s.heap.size _ held settings (carried (some s.heap.size)) fresh member current
      (Function.update_self ..) (by rw [current] at dir; exact dir)
    refine ⟨.made obj :: (if onward obj = .loaded then [.returned 0] else []),
      { s with heap := heap, objs := Function.update s.objs obj (some s.heap.size), point := onward obj }, ?_,
      s.heap.size :: held, countedAfter, ?_⟩
    · simp only [call, here, create_foo_obj, made, or_fault_some, except_ok_bind]
    · have recorded : (Note.made obj :: (if onward obj = .loaded then [.returned 0] else [])).foldl Note.record settings =
          fun key => if key.1 = obj.name then zeroed.settings key.2 else settings key := by
        split <;> rfl
      rw [recorded, dueNext]
      exact built

theorem destroy_foo_obj (s : State) (settings : Settings (String × String)) (obj : Obj) (rest : List Cleanup) (held : List Nat)
    (counted : Counted s.heap held) (built : Built s.heap s.exampleKset s.objs (.destroy obj :: rest) held settings) :
    ∃ after heldAfter, destroyFooObj (s.objs obj) s.heap = some after ∧ Counted after heldAfter ∧
      Built after s.exampleKset s.objs rest heldAfter fun key => if key.1 = obj.name then none else settings key := by
  cases built with
  | obj _ vars k p _ held settings older fresh member kset pointer dir =>
      obtain ⟨after, dropped, countedAfter, trims⟩ := put_counted p s.heap held counted
      have kept := built_keeps s.heap after s.exampleKset s.exampleKset s.objs s.objs rest held settings older rfl
        (fun _ _ => rfl) (trims_keep s.heap after held trims countedAfter)
      refine ⟨after, held, by rw [pointer]; exact dropped, countedAfter, cast (congrArg _ (funext fun key => ?_)) kept⟩
      by_cases here : key.1 = obj.name
      · obtain ⟨dir, file⟩ := key
        have unset := built_unset s.heap s.exampleKset s.objs rest held settings older dir file
          fun other inCalls names => fresh (name_injective obj other (here.symm.trans names) ▸ inCalls)
        rw [if_pos here, unset]
      · rw [if_neg here]
        exact (if_neg here).symm

theorem kset_unregister (s : State) (settings : Settings (String × String)) (rest : List Cleanup) (held : List Nat)
    (counted : Counted s.heap held) (built : Built s.heap s.exampleKset s.objs (.unregister :: rest) held settings) :
    rest = [] ∧ ∃ after, ksetUnregister s.exampleKset s.heap = some after ∧ Counted after [] ∧
      Built after s.exampleKset s.objs [] [] settings := by
  cases built with
  | kset k pointer dir =>
      obtain ⟨middle, removed, countedMiddle, -, -⟩ := modify_counted k (fun kobj => { kobj with inSysfs := false }) s.heap [k] _ _
        counted dir
      obtain ⟨after, dropped, countedAfter, -⟩ := put_counted k middle [] countedMiddle
      refine ⟨rfl, after, ?_, countedAfter, .nothing⟩
      simp only [ksetUnregister, pointer, del, removed, Option.bind_some, dropped]

theorem call_cleans (attempt : Attempt) (s : State) (settings : Settings (String × String)) (inv : Inv s settings)
    (calls : List Cleanup) (result : Option Int) (here : s.point = .cleaning calls result) :
    ∃ notes after, call attempt s = .ok (notes, after) ∧ Inv after (notes.foldl Note.record settings) := by
  obtain ⟨held, counted, built⟩ := inv
  rw [here] at built
  have returns : ∀ settings : Settings (String × String), (result.toList.map .returned).foldl Note.record settings = settings := by
    cases result <;> exact fun _ => rfl
  cases calls with
  | nil => exact ⟨[], s, by simp only [call, here], held, counted, by rw [here]; exact built⟩
  | cons first rest =>
      cases first with
      | destroy obj =>
          obtain ⟨heap, heldAfter, destroyed, countedAfter, builtAfter⟩ := destroy_foo_obj s settings obj rest held counted built
          by_cases done : rest = []
          · subst done
            refine ⟨.gone obj :: result.toList.map .returned, { s with heap := heap, point := .unloaded }, ?_, heldAfter,
              countedAfter, ?_⟩
            · simp only [call, here, Cleanup.run, destroyed, or_fault_some, except_ok_bind, if_true]
              rfl
            · rw [List.foldl_cons, returns]
              exact builtAfter
          · refine ⟨[.gone obj], { s with heap := heap, point := .cleaning rest result }, ?_, heldAfter, countedAfter, builtAfter⟩
            simp only [call, here, Cleanup.run, destroyed, or_fault_some, except_ok_bind, if_neg done]
            rfl
      | unregister =>
          obtain ⟨rfl, heap, unregistered, countedAfter, builtAfter⟩ := kset_unregister s settings rest held counted built
          refine ⟨result.toList.map .returned, { s with heap := heap, point := .unloaded }, ?_, [], countedAfter, ?_⟩
          · simp only [call, here, Cleanup.run, unregistered, or_fault_some, except_ok_bind, if_true]
            rfl
          · rw [returns]
            exact builtAfter

theorem due_name (calls : List Cleanup) (dir : String) :
    (∃ obj, .destroy obj ∈ calls ∧ dir = obj.name) ∨ ∀ obj, Cleanup.destroy obj ∈ calls → dir ≠ obj.name := by
  by_cases there : ∃ obj, Cleanup.destroy obj ∈ calls ∧ dir = obj.name
  · exact .inl there
  · exact .inr fun obj inCalls same => there ⟨obj, inCalls, same⟩

theorem read_settings (s : State) (settings : Settings (String × String)) (inv : Inv s settings) (dir file : String) :
    step s (.read dir file) = .ok ([.answered (settings.read (dir, file))], s) := by
  obtain ⟨held, counted, built⟩ := inv
  rcases due_name s.point.due dir with ⟨obj, inCalls, rfl⟩ | absent
  · obtain ⟨p, k, vars, found, placed⟩ :=
      folder_found s.heap s.exampleKset s.objs _ held settings built counted obj inCalls
    simp only [step, found, read_file_settings, Settings.read, placed.reads]
  · have missing := folder_missing s.heap s.exampleKset s.objs _ held settings built counted dir absent
    have unset := built_unset s.heap s.exampleKset s.objs _ held settings built dir file absent
    simp only [step, missing, Settings.read, unset]

-- A write in one directory, as that directory's own settings see it.
theorem write_part (settings : Settings (String × String)) (part : Settings String) (dir : String)
    (same : ∀ file, settings (dir, file) = part file) (file : String) (bytes : List UInt8) :
    (settings.write (dir, file) bytes).1 = (part.write file bytes).1 ∧
      (settings.write (dir, file) bytes).2 = fun key => if key.1 = dir then (part.write file bytes).2 key.2 else settings key := by
  have unchanged : settings = fun key => if key.1 = dir then part key.2 else settings key := by
    funext ⟨other, name⟩
    by_cases here : other = dir
    · rw [here, if_pos rfl, same]
    · exact (if_neg here).symm
  simp only [Settings.write, same]
  cases part file with
  | none => exact ⟨rfl, unchanged⟩
  | some old =>
      by_cases empty : bytes = []
      · simp only [if_pos empty]
        exact ⟨trivial, unchanged⟩
      · simp only [if_neg empty]
        cases Kstrto.kstrtoint (bytes.take pageSize) with
        | error code => exact ⟨rfl, unchanged⟩
        | ok var =>
            refine ⟨rfl, funext fun ⟨other, name⟩ => ?_⟩
            by_cases here : other = dir
            · subst here
              by_cases written : name = file <;> simp [Function.update, written, same]
            · simp [Function.update, here]

theorem write_settings (s : State) (settings : Settings (String × String)) (inv : Inv s settings) (dir file : String)
    (bytes : List UInt8) :
    ∃ after, step s (.write dir file bytes) = .ok ([.answered (settings.write (dir, file) bytes).1], after) ∧
      Inv after (settings.write (dir, file) bytes).2 := by
  obtain ⟨held, counted, built⟩ := inv
  rcases due_name s.point.due dir with ⟨obj, inCalls, rfl⟩ | absent
  · obtain ⟨p, k, vars, found, placed⟩ :=
      folder_found s.heap s.exampleKset s.objs _ held settings built counted obj inCalls
    obtain ⟨answers, written⟩ := write_part settings vars.settings obj.name placed.reads file bytes
    obtain ⟨answersFile, writtenFile⟩ := write_file_settings file bytes vars
    obtain ⟨heap, modified, countedAfter, dir, others⟩ := modify_counted p
      (fun kobj => { kobj with container := .foo (writeFile file bytes vars).2 }) s.heap held _ _ counted placed.dir
    refine ⟨{ s with heap := heap }, ?_, held, countedAfter, ?_⟩
    · simp only [step, found, modified, or_fault_some, except_ok_bind, answers, answersFile]
    · rw [written, ← writtenFile]
      exact built_write s.heap heap s.exampleKset s.objs _ held settings built obj inCalls p k _ placed.pointer placed.current dir
        fun q refs kobj different holds => (others q refs kobj different).mpr holds
  · have missing := folder_missing s.heap s.exampleKset s.objs _ held settings built counted dir absent
    have unset := built_unset s.heap s.exampleKset s.objs _ held settings built dir file absent
    refine ⟨s, by simp only [step, missing, Settings.write, unset], held, counted, ?_⟩
    simp only [Settings.write, unset]
    exact built

theorem step_settings (s : State) (settings : Settings (String × String)) (inv : Inv s settings) (e : Event)
    (allowed : guard s e) : ∃ notes after, step s e = .ok (notes, after) ∧ Inv after (record settings (e, notes)) := by
  cases e with
  | load =>
      obtain ⟨held, counted, built⟩ := inv
      have here : s.point = .unloaded := allowed
      rw [here] at built
      cases built
      exact ⟨[], _, rfl, [], counted, .nothing⟩
  | call attempt =>
      have running : inCall s.point = true := allowed
      cases here : s.point with
      | createKset => exact call_creates_kset attempt s settings inv here
      | create obj => exact call_creates_obj attempt s settings inv obj here
      | cleaning calls result => exact call_cleans attempt s settings inv calls result here
      | unloaded => simp [here, inCall] at running
      | loaded => simp [here, inCall] at running
  | exit =>
      obtain ⟨held, counted, built⟩ := inv
      have here : s.point = .loaded := allowed
      rw [here] at built
      exact ⟨[], _, rfl, held, counted, built⟩
  | read dir file => exact ⟨_, s, read_settings s settings inv dir file, inv⟩
  | write dir file bytes =>
      obtain ⟨after, done, invAfter⟩ := write_settings s settings inv dir file bytes
      exact ⟨_, after, done, invAfter⟩

-- The settings after a run, from what was seen of it.
def settingsAfter (evs : List Event) (outs : List (List Note)) : Settings (String × String) :=
  (evs.zip outs).foldl record fun _ => none

theorem run_settings (evs : List Event) (outs : List (List Note)) (last : State)
    (run : Run step guard boot evs outs last) : evs.length = outs.length ∧ Inv last (settingsAfter evs outs) := by
  induction run with
  | start => exact ⟨rfl, [], empty_counted, .nothing⟩
  | next evs outs middle e out after _ allowed done ih =>
      obtain ⟨same, inv⟩ := ih
      obtain ⟨notes, next, again, invAfter⟩ := step_settings middle _ inv e allowed
      obtain ⟨rfl, rfl⟩ := Prod.mk.inj (Except.ok.inj (done.symm.trans again))
      refine ⟨by simp [same], ?_⟩
      rw [settingsAfter, List.zip_append same, List.foldl_append]
      exact invAfter

-- The module is loaded, "12" and a newline are written to bar of baz, and it is unloaded.
def sampleEvents : List Event :=
  [.load, .call ⟨true, true⟩, .call ⟨true, true⟩, .call ⟨true, true⟩, .call ⟨true, true⟩, .write "baz" "bar" [49, 50, 10], .exit,
    .call ⟨true, true⟩, .call ⟨true, true⟩, .call ⟨true, true⟩, .call ⟨true, true⟩]

theorem sample_run (n : Nat) (outs : List (List Note)) (point : Point)
    (computed : (Run.eval step guard boot (sampleEvents.take n)).map (fun r => (r.1, r.2.point)) = some (outs, point)) :
    ∃ last, Run step guard boot (sampleEvents.take n) outs last ∧ last.point = point := by
  obtain ⟨⟨_, last⟩, evaluated, same⟩ := Option.map_eq_some_iff.mp computed
  obtain ⟨rfl, rfl⟩ := Prod.mk.inj same
  exact ⟨last, Run.eval_run _ _ _ _ _ _ evaluated, rfl⟩

-- Whatever the module is doing when a file is used, it answers from what was last accepted
-- by this file since its object was made.
theorem files_keep_settings (evs : List Event) (outs : List (List Note)) (last : State)
    (run : Run step guard boot evs outs last) (dir file : String) :
    step last (.read dir file) = .ok ([.answered ((settingsAfter evs outs).read (dir, file))], last) ∧
      ∀ bytes, ∃ after,
        step last (.write dir file bytes) = .ok ([.answered ((settingsAfter evs outs).write (dir, file) bytes).1], after) := by
  obtain ⟨-, inv⟩ := run_settings evs outs last run
  refine ⟨read_settings last _ inv dir file, fun bytes => ?_⟩
  obtain ⟨after, done, -⟩ := write_settings last _ inv dir file bytes
  exact ⟨after, done⟩

theorem files_keep_settings_ex : ∃ outs last, Run step guard boot (sampleEvents.take 6) outs last ∧
    step last (.read "baz" "bar") = .ok ([.answered (.data [49, 50, 10])], last) := by
  obtain ⟨last, run, -⟩ := sample_run 6
    [[], [], [.made .foo], [.made .bar], [.made .baz, .returned 0], [.answered (.ret 3)]] .loaded (by decide +kernel)
  have answered := (files_keep_settings _ _ last run "baz" "bar").1
  have twelve : (settingsAfter (sampleEvents.take 6)
      [[], [], [.made .foo], [.made .bar], [.made .baz, .returned 0], [.answered (.ret 3)]]).read ("baz", "bar") =
      .data [49, 50, 10] := by decide +kernel
  rw [twelve] at answered
  exact ⟨_, last, run, answered⟩

def Cleanup.pointer (s : State) : Cleanup → Option Nat
  | .destroy obj => s.objs obj
  | .unregister => s.exampleKset

theorem built_pointers (s : State) (heap : Objects Container) (calls : List Cleanup) (held : List Nat)
    (settings : Settings (String × String)) (built : Built heap s.exampleKset s.objs calls held settings) :
    calls.map (Cleanup.pointer s) = held.map some := by
  induction built with
  | nothing => rfl
  | kset k pointer _ => exact congrArg (fun kset => [kset]) pointer
  | obj obj vars k p calls held settings rest _ _ _ pointer _ ih => exact congrArg₂ List.cons pointer ih

-- The objects alive are those behind the calls of the cleanup that is due, each once, and
-- when the module is gone every object has been freed once.
theorem objects_accounted (evs : List Event) (outs : List (List Note)) (last : State)
    (run : Run step guard boot evs outs last) :
    (∃ held : List Nat, last.point.due.map (Cleanup.pointer last) = held.map some ∧ held.Nodup ∧
        ∀ p, last.heap.Live p ↔ p ∈ held) ∧
      (last.point = .unloaded → last.heap.FreedOnce) ∧ ∀ e, guard last e → ∃ r, step last e = .ok r := by
  obtain ⟨-, inv⟩ := run_settings evs outs last run
  obtain ⟨held, counted, built⟩ := inv
  have live := built_live last.heap last.exampleKset last.objs _ held _ built counted
  have pointers := built_pointers last last.heap _ held _ built
  have distinct := built_nodup last.heap last.exampleKset last.objs _ held _ built
  refine ⟨⟨held, pointers, distinct, live⟩, fun unloaded => ?_, fun e allowed => ?_⟩
  · obtain rfl : held = [] := by
      rw [unloaded] at pointers
      exact List.map_eq_nil_iff.mp pointers.symm
    exact (Heap.freed_once_iff last.heap).mpr fun p alive => List.not_mem_nil ((live p).mp alive)
  · obtain ⟨notes, after, done, -⟩ := step_settings last _ ⟨held, counted, built⟩ e allowed
    exact ⟨_, done⟩

theorem objects_accounted_ex : ∃ outs last, Run step guard boot (sampleEvents.take 11) outs last ∧ last.heap.FreedOnce := by
  obtain ⟨last, run, unloaded⟩ := sample_run 11
    [[], [], [.made .foo], [.made .bar], [.made .baz, .returned 0], [.answered (.ret 3)], [], [.gone .baz], [.gone .bar],
      [.gone .foo], []] .unloaded (by decide +kernel)
  exact ⟨_, last, run, (objects_accounted _ _ last run).2.1 unloaded⟩

end LinuxModule.KsetExample
