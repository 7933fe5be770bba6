import LinuxModule.Base.Heap
import Mathlib.Algebra.BigOperators.Intervals

set_option autoImplicit false

namespace LinuxModule.Refcount

-- An object, the number of references to it, and the references it holds itself.
structure Object (α : Type) where
  refcount : Nat
  refs : List Nat
  content : α
deriving DecidableEq

variable {α : Type}

abbrev Store (α : Type) := Heap (Object α)

def new (content : α) (heap : Store α) : Store α := heap.alloc ⟨1, [], content⟩

def get (p : Nat) (heap : Store α) : Option (Store α) := do
  let object ← heap.read p
  heap.write p { object with refcount := object.refcount + 1 }

-- p takes a reference to q and keeps it as long as it lives.
def link (p q : Nat) (heap : Store α) : Option (Store α) := do
  let heap ← get q heap
  let object ← heap.read p
  heap.write p { object with refs := q :: object.refs }

def modify (p : Nat) (f : α → α) (heap : Store α) : Option (Store α) := do
  let object ← heap.read p
  heap.write p { object with content := f object.content }

-- Dropping the last reference frees the object, which drops those it holds.
def release : Nat → Store α → Nat → Option (Store α)
  | 0, _, _ => none
  | fuel + 1, heap, p => do
      let object ← heap.read p
      if object.refcount ≤ 1 then
        let heap ← heap.free p
        object.refs.foldlM (release fuel) heap
      else heap.write p { object with refcount := object.refcount - 1 }

def put (p : Nat) (heap : Store α) : Option (Store α) := release (p + 1) heap p

def references (heap : Store α) (q p : Nat) : Nat := (heap.read p).elim 0 fun object => object.refs.count q

def uses (heap : Store α) (q : Nat) : Nat := ∑ p ∈ Finset.range heap.size, references heap q p

-- Each count is the number of references: those held from outside and those of live
-- objects. An object refers to older ones only.
structure Counted (heap : Store α) (held : List Nat) : Prop where
  live : ∀ p ∈ held, heap.Live p
  counts : ∀ p object, heap.read p = some object → object.refcount = held.count p + uses heap p
  needed : ∀ p object, heap.read p = some object → 0 < object.refcount
  older : ∀ p object, heap.read p = some object → ∀ q ∈ object.refs, q < p ∧ heap.Live q

-- What is left of a heap when references are dropped.
def Trims (heap after : Store α) : Prop :=
  after.size = heap.size ∧ ∀ p object, after.read p = some object →
    ∃ before, heap.read p = some before ∧ object.refs = before.refs ∧ object.content = before.content

theorem trims_refl (heap : Store α) : Trims heap heap := ⟨rfl, fun _ object found => ⟨object, found, rfl, rfl⟩⟩

theorem trims_trans (heap middle after : Store α) (first : Trims heap middle) (later : Trims middle after) :
    Trims heap after := by
  refine ⟨later.1.trans first.1, fun p object found => ?_⟩
  obtain ⟨between, foundBetween, refs, content⟩ := later.2 p object found
  obtain ⟨before, foundBefore, refsBefore, contentBefore⟩ := first.2 p between foundBetween
  exact ⟨before, foundBefore, refs.trans refsBefore, content.trans contentBefore⟩

theorem empty_counted : Counted (Heap.empty : Store α) [] := by
  have nothing : ∀ p object, (Heap.empty : Store α).read p ≠ some object := by
    intro p object found
    exact absurd (Heap.read_some_live _ p object found).1 (Nat.not_lt_zero p)
  exact ⟨by simp, fun p object found => absurd found (nothing p object), fun p object found => absurd found (nothing p object),
    fun p object found => absurd found (nothing p object)⟩

-- One object has changed: the references change by what it gave up and what it took.
theorem uses_change (heap after : Store α) (p : Nat) (inside : p < heap.size) (size : after.size = heap.size)
    (others : ∀ other, other ≠ p → after.read other = heap.read other) (q : Nat) :
    uses after q + references heap q p = uses heap q + references after q p := by
  have member : p ∈ Finset.range heap.size := Finset.mem_range.mpr inside
  have rest : ∑ other ∈ (Finset.range heap.size).erase p, references after q other =
      ∑ other ∈ (Finset.range heap.size).erase p, references heap q other :=
    Finset.sum_congr rfl fun other inRest => by rw [references, references, others other (Finset.ne_of_mem_erase inRest)]
  rw [uses, uses, size, ← Finset.add_sum_erase _ _ member, ← Finset.add_sum_erase _ (references heap q) member, rest]
  omega

theorem references_some (heap : Store α) (q p : Nat) (object : Object α) (found : heap.read p = some object) :
    references heap q p = object.refs.count q := by
  rw [references, found, Option.elim_some]

theorem uses_positive (heap : Store α) (p q : Nat) (object : Object α) (found : heap.read p = some object)
    (member : q ∈ object.refs) : 0 < uses heap q := by
  have inside : p ∈ Finset.range heap.size := Finset.mem_range.mpr (Heap.read_some_live heap p object found).1
  have here : 0 < references heap q p := by
    rw [references_some heap q p object found]
    exact List.count_pos_iff.mpr member
  rw [uses, ← Finset.add_sum_erase _ _ inside]
  omega

theorem uses_used (heap : Store α) (q : Nat) (positive : 0 < uses heap q) :
    ∃ p object, heap.read p = some object ∧ q ∈ object.refs := by
  obtain ⟨p, -, some_here⟩ := Finset.exists_ne_zero_of_sum_ne_zero (Nat.ne_of_gt positive)
  cases found : heap.read p with
  | none => simp [references, found] at some_here
  | some object =>
      rw [references_some heap q p object found] at some_here
      exact ⟨p, object, found, List.count_pos_iff.mp (Nat.pos_of_ne_zero some_here)⟩

theorem uses_store (heap : Store α) (p : Nat) (object next : Object α) (found : heap.read p = some object) (q : Nat) :
    uses (heap.store p next) q + object.refs.count q = uses heap q + next.refs.count q := by
  have live := Heap.read_some_live heap p object found
  have change := uses_change heap (heap.store p next) p live.1 (Heap.size_store ..)
    (fun other different => Heap.read_store_elsewhere heap p other next different) q
  rwa [references_some heap q p object found,
    references_some _ q p next (Heap.read_store_here heap p next live)] at change

theorem uses_release (heap : Store α) (p : Nat) (object : Object α) (found : heap.read p = some object)
    (live : heap.Live p) (q : Nat) : uses (heap.release p live) q + object.refs.count q = uses heap q := by
  have change := uses_change heap (heap.release p live) p live.1 rfl
    (fun other different => Heap.read_release heap p other live different) q
  have gone : references (heap.release p live) q p = 0 := by
    have dead : ¬ (heap.release p live).Live p := fun again => ((Heap.live_release heap p p live).mp again).2 rfl
    rw [references, Heap.read, if_neg dead, Option.elim_none]
  rwa [references_some heap q p object found, gone, Nat.add_zero] at change

theorem uses_alloc (heap : Store α) (object : Object α) (q : Nat) :
    uses (heap.alloc object) q = uses heap q + object.refs.count q := by
  have old : ∀ p ∈ Finset.range heap.size, references (heap.alloc object) q p = references heap q p := by
    intro p member
    rw [references, references, Heap.read_alloc_old heap object p (Nat.ne_of_lt (Finset.mem_range.mp member))]
  rw [uses, Heap.size_alloc, Finset.sum_range_succ, Finset.sum_congr rfl old,
    references_some _ q heap.size object (Heap.read_alloc_fresh heap object), uses]

theorem new_counted (content : α) (heap : Store α) (held : List Nat) (counted : Counted heap held) :
    Counted (new content heap) (heap.size :: held) := by
  have unused : uses heap heap.size = 0 := by
    by_contra positive
    obtain ⟨p, object, found, member⟩ := uses_used heap heap.size (Nat.pos_of_ne_zero positive)
    exact Nat.lt_irrefl _ (counted.older p object found heap.size member).2.1
  have fresh : heap.size ∉ held := fun member => Nat.lt_irrefl _ (counted.live heap.size member).1
  have cases_read : ∀ p object, (new content heap).read p = some object →
      p = heap.size ∧ object = ⟨1, [], content⟩ ∨ p ≠ heap.size ∧ heap.read p = some object := by
    intro p object found
    by_cases here : p = heap.size
    · subst here
      exact .inl ⟨rfl, Option.some.inj (found.symm.trans (Heap.read_alloc_fresh heap _))⟩
    · exact .inr ⟨here, by rwa [new, Heap.read_alloc_old heap _ p here] at found⟩
  refine ⟨fun p member => ?_, fun p object found => ?_, fun p object found => ?_, fun p object found q member => ?_⟩
  · rw [new, Heap.live_alloc]
    rcases List.mem_cons.mp member with rfl | old
    · exact .inr rfl
    · exact .inl (counted.live p old)
  · rw [new, uses_alloc, List.count_nil, Nat.add_zero]
    rcases cases_read p object found with ⟨rfl, rfl⟩ | ⟨different, old⟩
    · rw [List.count_cons_self, List.count_eq_zero_of_not_mem fresh, unused]
    · rw [List.count_cons_of_ne (Ne.symm different)]
      exact counted.counts p object old
  · rcases cases_read p object found with ⟨rfl, rfl⟩ | ⟨-, old⟩
    · exact Nat.one_pos
    · exact counted.needed p object old
  · rcases cases_read p object found with ⟨rfl, rfl⟩ | ⟨-, old⟩
    · cases member
    · exact (counted.older p object old q member).imp id fun live => (Heap.live_alloc heap _ q).mpr (.inl live)

-- An object is written back; the references it now holds are those it held and `taken`.
theorem store_counted (heap : Store α) (p : Nat) (object next : Object α) (held heldNext taken : List Nat)
    (counted : Counted heap held) (found : heap.read p = some object)
    (refs : next.refs = taken ++ object.refs) (older : ∀ q ∈ taken, q < p)
    (others : ∀ q, q ≠ p → held.count q = heldNext.count q + taken.count q)
    (count : next.refcount + held.count p = object.refcount + heldNext.count p) (needed : 0 < next.refcount) :
    Counted (heap.store p next) heldNext := by
  have live := Heap.read_some_live heap p object found
  have own : taken.count p = 0 := List.count_eq_zero.mpr fun member => Nat.lt_irrefl p (older p member)
  have used : ∀ q, uses (heap.store p next) q = uses heap q + taken.count q := by
    intro q
    have change := uses_store heap p object next found q
    rw [refs, List.count_append] at change
    omega
  have inHeld : ∀ q, q ≠ p → q ∈ heldNext ∨ q ∈ taken → q ∈ held := by
    intro q different either
    rw [← List.count_pos_iff, others q different]
    rcases either with member | member
    · exact Nat.add_pos_left (List.count_pos_iff.mpr member) _
    · exact Nat.add_pos_right _ (List.count_pos_iff.mpr member)
  refine ⟨fun q member => ?_, fun q found' at_ => ?_, fun q found' at_ => ?_, fun q found' at_ r member => ?_⟩
  · rw [Heap.live_store]
    by_cases here : q = p
    · exact here ▸ live
    · exact counted.live q (inHeld q here (.inl member))
  · rw [used]
    by_cases here : q = p
    · subst here
      obtain rfl := Option.some.inj (at_.symm.trans (Heap.read_store_here heap q next live))
      have before := counted.counts q object found
      omega
    · rw [Heap.read_store_elsewhere heap p q next here] at at_
      have before := counted.counts q found' at_
      have change := others q here
      omega
  · by_cases here : q = p
    · subst here
      obtain rfl := Option.some.inj (at_.symm.trans (Heap.read_store_here heap q next live))
      exact needed
    · rw [Heap.read_store_elsewhere heap p q next here] at at_
      exact counted.needed q found' at_
  · rw [Heap.live_store]
    by_cases here : q = p
    · subst here
      obtain rfl := Option.some.inj (at_.symm.trans (Heap.read_store_here heap q next live))
      rw [refs, List.mem_append] at member
      rcases member with new | old
      · exact ⟨older r new, counted.live r (inHeld r (Nat.ne_of_lt (older r new)) (.inr new))⟩
      · exact counted.older q object found r old
    · rw [Heap.read_store_elsewhere heap p q next here] at at_
      exact counted.older q found' at_ r member

-- The last reference to p is given up: p goes, and the references it held are now ours.
theorem free_counted (heap : Store α) (p : Nat) (object : Object α) (held : List Nat) (counted : Counted heap (p :: held))
    (found : heap.read p = some object) (last : object.refcount ≤ 1) :
    ∃ after, heap.free p = some after ∧ Counted after (object.refs ++ held) ∧ Trims heap after := by
  have live := Heap.read_some_live heap p object found
  obtain ⟨unheld, unused⟩ : held.count p = 0 ∧ uses heap p = 0 := by
    have count := counted.counts p object found
    rw [List.count_cons_self] at count
    omega
  have elsewhere : ∀ q, q ≠ p → (heap.release p live).read q = heap.read q := fun q => Heap.read_release heap p q live
  have stays : ∀ q found', (heap.release p live).read q = some found' → q ≠ p ∧ heap.read q = some found' := by
    intro q found' at_
    have different := ((Heap.live_release heap p q live).mp (Heap.read_some_live _ q found' at_)).2
    exact ⟨different, (elsewhere q different).symm.trans at_⟩
  refine ⟨_, Heap.free_live heap p live, ⟨fun q member => ?_, fun q found' at_ => ?_, fun q found' at_ => ?_,
    fun q found' at_ r member => ?_⟩, rfl, fun q found' at_ => ⟨found', (stays q found' at_).2, rfl, rfl⟩⟩
  · rw [Heap.live_release]
    rcases List.mem_append.mp member with own | other
    · obtain ⟨lower, alive⟩ := counted.older p object found q own
      exact ⟨alive, Nat.ne_of_lt lower⟩
    · refine ⟨counted.live q (List.mem_cons_of_mem p other), ?_⟩
      rintro rfl
      exact absurd other (List.count_eq_zero.mp unheld)
  · obtain ⟨different, before⟩ := stays q found' at_
    have count := counted.counts q found' before
    have change := uses_release heap p object found live q
    rw [List.count_cons_of_ne (Ne.symm different)] at count
    rw [List.count_append]
    omega
  · exact counted.needed q found' (stays q found' at_).2
  · obtain ⟨-, before⟩ := stays q found' at_
    obtain ⟨lower, alive⟩ := counted.older q found' before r member
    refine ⟨lower, (Heap.live_release heap p r live).mpr ⟨alive, ?_⟩⟩
    rintro rfl
    exact Nat.ne_of_gt (uses_positive heap q r found' before member) unused

theorem release_counted (fuel : Nat) : ∀ (heap : Store α) (p : Nat) (held : List Nat), p < fuel → Counted heap (p :: held) →
    ∃ after, release fuel heap p = some after ∧ Counted after held ∧ Trims heap after := by
  induction fuel with
  | zero => exact fun _ p _ none_left => absurd none_left (Nat.not_lt_zero p)
  | succ fuel ih =>
      -- The references of a freed object are dropped one after the other.
      have all : ∀ (refs : List Nat) (heap : Store α) (held : List Nat), (∀ q ∈ refs, q < fuel) → Counted heap (refs ++ held) →
          ∃ after, refs.foldlM (release fuel) heap = some after ∧ Counted after held ∧ Trims heap after := by
        intro refs
        induction refs with
        | nil => exact fun heap held _ counted => ⟨heap, rfl, counted, trims_refl heap⟩
        | cons q rest ihRefs =>
            intro heap held lower counted
            obtain ⟨here, later⟩ := List.forall_mem_cons.mp lower
            obtain ⟨middle, dropped, countedMiddle, trimsMiddle⟩ := ih heap q (rest ++ held) here counted
            obtain ⟨after, done, countedAfter, trims⟩ := ihRefs middle held later countedMiddle
            refine ⟨after, ?_, countedAfter, trims_trans heap middle after trimsMiddle trims⟩
            rw [List.foldlM_cons, dropped]
            exact done
      intro heap p held inside counted
      obtain ⟨object, found⟩ := Heap.live_read heap p (counted.live p List.mem_cons_self)
      by_cases last : object.refcount ≤ 1
      · obtain ⟨middle, freed, countedMiddle, trimsMiddle⟩ := free_counted heap p object held counted found last
        obtain ⟨after, done, countedAfter, trims⟩ := all object.refs middle held
          (fun q member => by have lower := (counted.older p object found q member).1; omega) countedMiddle
        refine ⟨after, ?_, countedAfter, trims_trans heap middle after trimsMiddle trims⟩
        simp only [release, found, Option.bind_eq_bind, Option.bind_some, if_pos last, freed, done]
      · have live := Heap.read_some_live heap p object found
        refine ⟨heap.store p { object with refcount := object.refcount - 1 }, ?_, ?_, Heap.size_store .., fun q found' at_ => ?_⟩
        · simp only [release, found, Option.bind_eq_bind, Option.bind_some, if_neg last, Heap.write_live heap p _ live]
        · exact store_counted heap p object _ (p :: held) held [] counted found rfl (by simp)
            (fun q different => by simp [List.count_cons_of_ne (Ne.symm different)])
            (by simp only [List.count_cons_self]; omega) (Nat.sub_pos_of_lt (Nat.lt_of_not_le last))
        · by_cases here : q = p
          · subst here
            obtain rfl := Option.some.inj (at_.symm.trans (Heap.read_store_here heap q _ live))
            exact ⟨object, found, rfl, rfl⟩
          · rw [Heap.read_store_elsewhere heap p q _ here] at at_
            exact ⟨found', at_, rfl, rfl⟩

theorem put_counted (p : Nat) (heap : Store α) (held : List Nat) (counted : Counted heap (p :: held)) :
    ∃ after, put p heap = some after ∧ Counted after held ∧ Trims heap after :=
  release_counted (p + 1) heap p held (Nat.lt_succ_self p) counted

-- An object whose references and content are these, however often it is referred to.
def Holds (heap : Store α) (p : Nat) (refs : List Nat) (content : α) : Prop :=
  ∃ refcount, heap.read p = some ⟨refcount, refs, content⟩

theorem holds_live (heap : Store α) (p : Nat) (refs : List Nat) (content : α) (holds : Holds heap p refs content) :
    heap.Live p := by
  obtain ⟨_, found⟩ := holds
  exact Heap.read_some_live heap p _ found

theorem holds_unique (heap : Store α) (p : Nat) (refs others : List Nat) (content other : α)
    (holds : Holds heap p refs content) (again : Holds heap p others other) : others = refs ∧ other = content := by
  obtain ⟨_, found⟩ := holds
  obtain ⟨_, foundAgain⟩ := again
  have same := Option.some.inj (found.symm.trans foundAgain)
  simp only [Object.mk.injEq] at same
  exact ⟨same.2.1.symm, same.2.2.symm⟩

theorem trims_holds (heap after : Store α) (trims : Trims heap after) (p : Nat) (refs : List Nat) (content : α)
    (holds : Holds heap p refs content) (live : after.Live p) : Holds after p refs content := by
  obtain ⟨_, found⟩ := holds
  obtain ⟨object, foundAfter⟩ := Heap.live_read after p live
  obtain ⟨before, foundBefore, sameRefs, sameContent⟩ := trims.2 p object foundAfter
  obtain rfl := Option.some.inj (found.symm.trans foundBefore)
  obtain ⟨refcount, _, _⟩ := object
  subst sameRefs
  subst sameContent
  exact ⟨refcount, foundAfter⟩

theorem store_holds (heap : Store α) (p : Nat) (next : Object α) (live : heap.Live p) :
    Holds (heap.store p next) p next.refs next.content ∧
      ∀ q refs content, q ≠ p → (Holds (heap.store p next) q refs content ↔ Holds heap q refs content) :=
  ⟨⟨next.refcount, Heap.read_store_here heap p next live⟩, fun q refs content different => by
    rw [Holds, Holds, Heap.read_store_elsewhere heap p q next different]⟩

theorem new_holds (content : α) (heap : Store α) :
    Holds (new content heap) heap.size [] content ∧
      ∀ p refs other, Holds heap p refs other → Holds (new content heap) p refs other := by
  refine ⟨⟨1, Heap.read_alloc_fresh heap _⟩, fun p refs other ⟨refcount, found⟩ => ⟨refcount, ?_⟩⟩
  exact Heap.read_alloc_some heap _ _ p found

theorem modify_counted (p : Nat) (f : α → α) (heap : Store α) (held refs : List Nat) (content : α) (counted : Counted heap held)
    (holds : Holds heap p refs content) :
    ∃ after, modify p f heap = some after ∧ Counted after held ∧ Holds after p refs (f content) ∧
      ∀ q refs' content', q ≠ p → (Holds after q refs' content' ↔ Holds heap q refs' content') := by
  obtain ⟨refcount, found⟩ := holds
  have live := Heap.read_some_live heap p _ found
  refine ⟨heap.store p ⟨refcount, refs, f content⟩, ?_, ?_, store_holds heap p _ live⟩
  · simp only [modify, found, Option.bind_eq_bind, Option.bind_some, Heap.write_live heap p _ live]
  · have needed : 0 < refcount := counted.needed p _ found
    exact store_counted heap p _ _ held held [] counted found rfl (by simp) (by simp) rfl needed

theorem get_counted (p : Nat) (heap : Store α) (held : List Nat) (counted : Counted heap held) (live : heap.Live p) :
    ∃ after, get p heap = some after ∧ Counted after (p :: held) ∧
      ∀ q refs content, Holds heap q refs content → Holds after q refs content := by
  obtain ⟨object, found⟩ := Heap.live_read heap p live
  refine ⟨heap.store p { object with refcount := object.refcount + 1 }, ?_, ?_, fun q refs content holds => ?_⟩
  · simp only [get, found, Option.bind_eq_bind, Option.bind_some, Heap.write_live heap p _ live]
  · exact store_counted heap p object _ held (p :: held) [] counted found rfl (by simp)
      (fun q different => by simp [List.count_cons_of_ne (Ne.symm different)])
      (by simp only [List.count_cons_self]; omega) (Nat.succ_pos _)
  · by_cases here : q = p
    · subst here
      obtain ⟨_, again⟩ := holds
      obtain rfl := Option.some.inj (found.symm.trans again)
      exact (store_holds heap q _ live).1
    · exact ((store_holds heap p _ live).2 q refs content here).mpr holds

theorem link_counted (p q : Nat) (heap : Store α) (held refs : List Nat) (content : α) (counted : Counted heap held)
    (holds : Holds heap p refs content) (lower : q < p) (live : heap.Live q) :
    ∃ after, link p q heap = some after ∧ Counted after held ∧ Holds after p (q :: refs) content ∧
      ∀ r refs' content', r ≠ p → Holds heap r refs' content' → Holds after r refs' content' := by
  obtain ⟨middle, taken, countedMiddle, kept⟩ := get_counted q heap held counted live
  obtain ⟨refcount, found⟩ := kept p refs content holds
  have liveMiddle := Heap.read_some_live middle p _ found
  refine ⟨middle.store p ⟨refcount, q :: refs, content⟩, ?_, ?_, (store_holds middle p _ liveMiddle).1,
    fun r refs' content' different before => ((store_holds middle p _ liveMiddle).2 r refs' content' different).mpr
      (kept r refs' content' before)⟩
  · simp only [link, taken, found, Option.bind_eq_bind, Option.bind_some, Heap.write_live middle p _ liveMiddle]
  · have needed : 0 < refcount := countedMiddle.needed p _ found
    refine store_counted middle p _ _ (q :: held) held [q] countedMiddle found rfl (by simpa using lower) (fun r _ => ?_) ?_ needed
    · rw [← List.singleton_append, List.count_append, Nat.add_comm]
    · rw [List.count_cons_of_ne (Nat.ne_of_lt lower)]

-- Where the objects held refer only to objects that are held themselves, no other is alive.
theorem live_iff_held (heap : Store α) (held : List Nat) (counted : Counted heap held)
    (closed : ∀ p ∈ held, ∀ object, heap.read p = some object → ∀ q ∈ object.refs, q ∈ held) (p : Nat) :
    heap.Live p ↔ p ∈ held := by
  refine ⟨fun live => ?_, counted.live p⟩
  induction above : heap.size - p using Nat.strongRecOn generalizing p with
  | ind gap ih =>
      obtain ⟨object, found⟩ := Heap.live_read heap p live
      have count := counted.counts p object found
      have needed := counted.needed p object found
      by_contra unheld
      rw [List.count_eq_zero_of_not_mem unheld] at count
      obtain ⟨user, using_, foundUser, member⟩ := uses_used heap p (by omega)
      have liveUser := Heap.read_some_live heap user using_ foundUser
      have lower := (counted.older user using_ foundUser p member).1
      have bound := liveUser.1
      have heldUser := ih (heap.size - user) (by omega) user liveUser rfl
      exact unheld (closed user heldUser using_ foundUser p member)

end LinuxModule.Refcount
