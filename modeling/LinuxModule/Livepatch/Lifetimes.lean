import LinuxModule.Livepatch.Leaks

set_option autoImplicit false

namespace LinuxModule.Livepatch

-- The dummies of the module by themselves, with no patch and no other memory.
structure Spec where
  dummies : List Dummy
  allocating : Bool
  cleaning : Bool
  present : Bool

inductive SpecEvent where
  | insert
  | remove
  | alloc (dummy : Option Nat) (jiffies : UInt64)
  | cleanup (jiffies : UInt64)
  | other

namespace Spec

def initial : Spec := ⟨[], false, false, false⟩

def guard (t : Spec) : SpecEvent → Prop
  | .insert => t.present = false
  | .remove => t.present = true
  | .alloc dummy _ => t.present = true ∧ t.allocating = true ∧ ∀ d ∈ dummy, d ∉ t.dummies.map Dummy.address
  | .cleanup _ => t.present = true ∧ t.cleaning = true
  | .other => True

def step (expirePeriod : UInt64) (t : Spec) : SpecEvent → Except Fault (Unit × Spec)
  | .insert => .ok ((), { t with present := true, allocating := true, cleaning := true })
  | .remove => .ok ((), ⟨[], false, false, false⟩)
  | .alloc (some d) jiffies => .ok ((), { t with dummies := ⟨d, jiffies + expirePeriod⟩ :: t.dummies })
  | .alloc none _ => .ok ((), { t with allocating := false })
  | .cleanup jiffies => .ok ((), { t with dummies := t.dummies.filter (unexpired jiffies) })
  | .other => .ok ((), t)

end Spec

-- Every SV_LEAK belongs to a dummy that is on the list.
def NoneStale (s : State) : Prop := ∀ obj, obj ∈ s.svLeak → obj ∈ addresses s

-- The module's own dummy_free is not met for a dummy that fix1 has given a shadow.
def Keeps (s : State) : Event → Prop
  | .cleanupWork choose jiffies => ∀ d ∈ s.dummyList, unexpired jiffies d = false → (choose d.address).free = none →
      d.address ∉ s.svLeak
  | .modExit choose => ∀ d ∈ s.dummyList, choose d.address = none → d.address ∉ s.svLeak
  | _ => True

instance : ∀ (s : State) (e : Event), Decidable (Keeps s e)
  | s, .cleanupWork choose jiffies => inferInstanceAs (Decidable (∀ d ∈ s.dummyList, unexpired jiffies d = false →
      (choose d.address).free = none → d.address ∉ s.svLeak))
  | s, .modExit choose => inferInstanceAs (Decidable (∀ d ∈ s.dummyList, choose d.address = none → d.address ∉ s.svLeak))
  | _, .modInit => isTrue trivial
  | _, .allocWork _ _ _ => isTrue trivial
  | _, .fixInit _ => isTrue trivial
  | _, .complete => isTrue trivial
  | _, .write _ _ => isTrue trivial
  | _, .fixExit _ => isTrue trivial

theorem cleaning_stale_iff (keeps : Dummy → Bool) (check free : Nat → Option Patch) (lost : List Nat) (s before after : State)
    (log : List Message) (distinct : (addresses s).Nodup) (none_ : NoneStale s) (same : before.svLeak = s.svLeak)
    (cleaning : Cleaning keeps check free lost s.dummyList before s.dummyList (after, log)) :
    NoneStale after ↔ ∀ d ∈ s.dummyList, keeps d = false → free d.address = none → d.address ∉ s.svLeak := by
  have list := cleaning_ends _ _ _ _ _ _ _ _ cleaning
  have shadows := cleaning.svLeak
  rw [same] at shadows
  have alone : ∀ d ∈ s.dummyList, ∀ other ∈ s.dummyList, other.address = d.address → other = d :=
    fun d inside other there => List.inj_on_of_nodup_map distinct there inside
  constructor
  · intro none_after d inside goes unpatched shadowed
    have kept : d.address ∈ after.svLeak := by
      refine (shadows d.address).mpr ⟨shadowed, fun other there _ patched address => patched ?_⟩
      rw [← address]
      exact unpatched
    obtain ⟨other, there, address⟩ := List.mem_map.mp (none_after _ kept)
    rw [list] at there
    obtain ⟨there, stays⟩ := List.mem_filter.mp there
    rw [alone d inside other there address, goes] at stays
    cases stays
  · intro unshadowed obj member
    obtain ⟨old, others⟩ := (shadows obj).mp member
    obtain ⟨d, inside, rfl⟩ := List.mem_map.mp (none_ obj old)
    refine List.mem_map_of_mem ?_
    rw [list]
    refine List.mem_filter.mpr ⟨inside, ?_⟩
    cases goes : keeps d with
    | true => rfl
    | false =>
        by_cases unpatched : free d.address = none
        · exact absurd old (unshadowed d inside goes unpatched)
        · exact absurd rfl (others d inside goes unpatched)

theorem step_stale_iff (expirePeriod : UInt64) (s after : State) (lost : List Nat) (e : Event) (log : List Message)
    (accounted : Accounted s lost) (none_ : NoneStale s) (allowed : guard s e) (done : step expirePeriod s e = .ok (log, after)) :
    NoneStale after ↔ Keeps s e := by
  cases e with
  | allocWork version memory jiffies =>
      obtain ⟨_, _, met, _⟩ := allowed
      obtain ⟨log', after', done', _, list, _, svLeak, _⟩ := alloc_work_spec expirePeriod version memory jiffies lost s
        accounted.tracked (alloc_version s version met)
      obtain ⟨rfl, rfl⟩ := Prod.mk.inj (Except.ok.inj (done.symm.trans done'))
      refine ⟨fun _ => trivial, fun _ obj member => ?_⟩
      rcases svLeak obj member with old | ⟨_, new⟩
      · have before := none_ obj old
        rcases list with ⟨same, _⟩ | ⟨_, _, more, _⟩
        · rw [addresses, same]
          exact before
        · rw [addresses, more]
          exact List.mem_cons_of_mem _ before
      · exact new
  | cleanupWork choose jiffies =>
      obtain ⟨log', after', done', cleaning⟩ := cleanup_work_spec choose jiffies lost s accounted.tracked
        (dummies_distinct s lost accounted)
      obtain ⟨rfl, rfl⟩ := Prod.mk.inj (Except.ok.inj (done.symm.trans done'))
      exact cleaning_stale_iff _ _ _ lost s { s with cleanupDwork := false } after' log accounted.distinct none_ rfl cleaning
  | modExit choose =>
      obtain ⟨log', after', done', cleaning⟩ := mod_exit_spec choose lost s accounted.tracked (dummies_distinct s lost accounted)
      obtain ⟨rfl, rfl⟩ := Prod.mk.inj (Except.ok.inj (done.symm.trans done'))
      refine (cleaning_stale_iff _ _ _ lost s { s with allocDwork := false, cleanupDwork := false } after' log accounted.distinct
        none_ rfl cleaning).trans ?_
      exact ⟨fun all d inside => all d inside rfl, fun all d inside _ => all d inside⟩
  | fixExit p =>
      obtain ⟨log', after', done', _, _, svLeak, same⟩ := fix_exit_accounted p s lost accounted allowed
      obtain ⟨rfl, rfl⟩ := Prod.mk.inj (Except.ok.inj (done.symm.trans done'))
      simp only [Prod.mk.injEq] at same
      refine ⟨fun _ => trivial, fun _ obj member => ?_⟩
      rw [addresses, same.1]
      exact none_ obj (svLeak obj member)
  | modInit =>
      cases done
      exact ⟨fun _ => trivial, fun _ => none_⟩
  | fixInit p =>
      cases done
      exact ⟨fun _ => trivial, fun _ => none_⟩
  | complete =>
      cases done
      exact ⟨fun _ => trivial, fun _ => none_⟩
  | write p enabled =>
      cases done
      exact ⟨fun _ => trivial, fun _ => none_⟩

-- No shadow outlives its dummy exactly in the runs in which the module's own dummy_free
-- is never met for a dummy that has one. There fix1 refuses an allocation only for want
-- of memory: a shadow left at an address that is used again would refuse it too.
theorem shadows_outlive_iff (expirePeriod : UInt64) (evs : List Event) (outs : List (List Message)) (last : State)
    (run : Run (step expirePeriod) guard initial evs outs last) :
    (Run.Always (step expirePeriod) guard initial Keeps evs ↔
      ∀ first rest outsFirst middle, evs = first ++ rest → Run (step expirePeriod) guard initial first outsFirst middle →
        NoneStale middle) ∧
    (Run.Always (step expirePeriod) guard initial Keeps evs → ∀ d jiffies, d ∉ addresses last →
      ∃ s log, livepatchFix1DummyAlloc expirePeriod ⟨some d, true, true⟩ jiffies last =
        .ok (some ⟨d, jiffies + expirePeriod⟩, s, log)) := by
  have none_initial : NoneStale initial := fun obj member => absurd member (AList.notMem_empty obj)
  have reached : ∀ first outsFirst middle, Run (step expirePeriod) guard initial first outsFirst middle →
      Run.Always (step expirePeriod) guard initial Keeps first → NoneStale middle := by
    intro first outsFirst middle ran always
    have both : NoneStale middle ∧ ∃ lost, Accounted middle lost := by
      refine Run.always_invariant _ _ initial Keeps (fun s => NoneStale s ∧ ∃ lost, Accounted s lost)
        ⟨none_initial, [], accounted_initial⟩ ?_ first outsFirst middle ran always
      rintro s e log after ⟨none_, lost, accounted⟩ keeps allowed done
      obtain ⟨lost', next, _⟩ := accounted_after expirePeriod s after lost e log accounted allowed done
      exact ⟨(step_stale_iff expirePeriod s after lost e log accounted none_ allowed done).mpr keeps, lost', next⟩
    exact both.1
  refine ⟨⟨?_, ?_⟩, ?_⟩
  · rintro always first rest outsFirst middle rfl ran
    exact reached first outsFirst middle ran (Run.always_before _ _ _ _ first rest always)
  · rintro none_stale first e rest outsFirst middle rfl ran
    have split : first ++ e :: rest = (first ++ [e]) ++ rest := by simp
    obtain ⟨outsNext, after, longer⟩ := Run.before _ _ _ (first ++ [e]) rest outs last (split ▸ run)
    obtain ⟨_, log, met, _, again, allowed, done⟩ := Run.last_step _ _ _ after first e outsNext longer
    obtain ⟨_, rfl⟩ := Run.unique _ _ _ _ _ _ _ _ again ran
    obtain ⟨lost, accounted, _⟩ := run_accounted expirePeriod first outsFirst middle ran
    exact (step_stale_iff expirePeriod middle after lost e log accounted
      (none_stale first (e :: rest) outsFirst middle rfl ran) allowed done).mp (none_stale (first ++ [e]) rest outsNext after split longer)
  · intro always d jiffies unused
    have fresh : d ∉ last.svLeak := fun member => unused (reached evs outs last run always d member)
    simp [livepatchFix1DummyAlloc, Shadow.alloc, fresh]

theorem shadows_outlive_iff_ex : ∃ outs last, Run (step 10) guard initial sampleEvents outs last ∧ NoneStale last := by
  obtain ⟨outs, last, run, _⟩ := sample_run
  have agree := (shadows_outlive_iff 10 sampleEvents outs last run).1
  exact ⟨outs, last, run, agree.mp (Run.check_always _ _ _ _ _ (by decide +kernel)) sampleEvents [] outs last (by simp) run⟩

end LinuxModule.Livepatch
