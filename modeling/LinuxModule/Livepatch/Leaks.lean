import LinuxModule.Livepatch.Events

set_option autoImplicit false

namespace LinuxModule.Livepatch

-- The message of a dummy_alloc that forgets its leak.
def forgets : Message → Bool
  | .allocated none _ _ => true
  | _ => false

-- The ints called leak that are allocated: each has one SV_LEAK that points to it, or was
-- forgotten.
def Tracked (s : State) (lost : List Nat) : Prop := Owned s.leaks (Shadow.values s.svLeak ++ lost)

-- What the calls made for a dummy leave alone.
def State.around (s : State) : Bool × Bool × Bool × List Patch × List (Patch × Phase) :=
  (s.allocDwork, s.cleanupDwork, s.mod, s.loaded, s.stack)

-- What dummy_free in any version changes.
structure Frees (d : Nat) (version : Option Patch) (lost : List Nat) (s after : State) (log : List Message) : Prop where
  around : after.around = s.around
  list : after.dummyList = s.dummyList
  tracked : Tracked after lost
  svLeak : ∀ obj, obj ∈ after.svLeak ↔ obj ∈ s.svLeak ∧ (version ≠ none → obj ≠ d)
  svCounter : ∀ obj, obj ∈ after.svCounter → obj ∈ s.svCounter
  quiet : log.countP forgets = 0

theorem free_sv_leak_spec (version : Patch) (d : Nat) (lost : List Nat) (s : State) (tracked : Tracked s lost) :
    ∃ after log, freeSvLeak version d s = .ok (after, log) ∧ Frees d (some version) lost s after log ∧
      after.svCounter = s.svCounter := by
  cases found : s.svLeak.lookup d with
  | none =>
      have absent : d ∉ s.svLeak := AList.lookup_eq_none.mp found
      exact ⟨s, [.leaked version d], by simp [freeSvLeak, found],
        ⟨rfl, rfl, tracked, fun obj => ⟨fun member => ⟨member, fun _ same => absent (same ▸ member)⟩, And.left⟩, fun _ => id, rfl⟩, rfl⟩
  | some leak =>
      have order : (leak :: (Shadow.values (s.svLeak.erase d) ++ lost)).Perm (Shadow.values s.svLeak ++ lost) :=
        (Shadow.values_erase d leak s.svLeak found).symm.append_right lost
      obtain ⟨leaks, freed, owned⟩ := Owned.free _ _ leak (Owned.reorder _ _ _ tracked order)
      refine ⟨{ s with leaks := leaks, svLeak := s.svLeak.erase d }, [.prevented version d leak], ?_,
        ⟨rfl, rfl, owned, fun obj => ?_, fun _ => id, rfl⟩, rfl⟩
      · simp [freeSvLeak, found, kfreeLeak, freed]
      · rw [AList.mem_erase]
        exact ⟨fun both => ⟨both.2, fun _ => both.1⟩, fun both => ⟨both.2 nofun, both.1⟩⟩

theorem call_free_spec (version : Option Patch) (d : Dummy) (lost : List Nat) (s : State) (tracked : Tracked s lost) :
    ∃ after log, callFree version d s = .ok (after, log) ∧ Frees d.address version lost s after log := by
  cases version with
  | none => exact ⟨s, _, rfl, rfl, rfl, tracked,
      fun _ => ⟨fun member => ⟨member, fun impossible => absurd rfl impossible⟩, And.left⟩, fun _ => id, rfl⟩
  | some p =>
      obtain ⟨after, log, freed, frees, counters⟩ := free_sv_leak_spec p d.address lost s tracked
      cases p with
      | fix1 => exact ⟨after, log, freed, frees⟩
      | fix2 =>
          cases found : after.svCounter.lookup d.address with
          | none => exact ⟨after, log, by simp [callFree, livepatchFix2DummyFree, freed, found], frees⟩
          | some count =>
              refine ⟨{ after with svCounter := after.svCounter.erase d.address }, log ++ [.counter d.address count], ?_, ?_⟩
              · simp [callFree, livepatchFix2DummyFree, freed, found]
              · obtain ⟨around, list, tracked, svLeak, svCounter, quiet⟩ := frees
                refine ⟨around, list, tracked, svLeak, fun obj member => ?_, by simp [quiet, forgets]⟩
                exact svCounter obj (AList.mem_erase.mp member).2

theorem fix2_check_spec (memory : Bool) (d : Dummy) (jiffies : UInt64) (s : State) :
    ∃ svCounter, livepatchFix2DummyCheck memory d jiffies s = (timeAfter jiffies d.jiffiesExpire, { s with svCounter := svCounter }) ∧
      ∀ obj, obj ∈ svCounter → obj ∈ s.svCounter ∨ obj = d.address := by
  cases got : Shadow.getOrAlloc memory d.address 0 s.svCounter with
  | none => exact ⟨s.svCounter, by rw [livepatchFix2DummyCheck, got], fun _ => .inl⟩
  | some r =>
      obtain ⟨count, svCounter⟩ := r
      refine ⟨svCounter.insert d.address (cInt (count + 1)), by rw [livepatchFix2DummyCheck, got], fun obj member => ?_⟩
      have members := Shadow.get_or_alloc_members memory d.address 0 count s.svCounter svCounter got
      rcases (AList.mem_insert svCounter).mp member with same | before
      · exact .inr same
      · exact (members obj).mp before

theorem call_check_spec (version : Option Patch) (memory : Bool) (d : Dummy) (jiffies : UInt64) (s : State) :
    ∃ svCounter, callCheck version memory d jiffies s = (timeAfter jiffies d.jiffiesExpire, { s with svCounter := svCounter }) ∧
      ∀ obj, obj ∈ svCounter → obj ∈ s.svCounter ∨ (version = some .fix2 ∧ obj = d.address) := by
  cases version with
  | none => exact ⟨s.svCounter, rfl, fun _ => .inl⟩
  | some p =>
      cases p with
      | fix1 => exact ⟨s.svCounter, rfl, fun _ => .inl⟩
      | fix2 =>
          obtain ⟨svCounter, checked, members⟩ := fix2_check_spec memory d jiffies s
          exact ⟨svCounter, checked, fun obj member => (members obj member).imp_right fun here => ⟨rfl, here⟩⟩

-- The dummies that a cleanup keeps.
def unexpired (jiffies : UInt64) (d : Dummy) : Bool := !timeAfter jiffies d.jiffiesExpire

theorem erase_behind (kept rest : List Dummy) (d : Dummy) (distinct : (kept ++ d :: rest).Nodup) :
    (kept ++ d :: rest).erase d = kept ++ rest := by
  have fresh : d ∉ kept := fun inside => List.disjoint_of_nodup_append distinct inside List.mem_cons_self
  rw [List.erase_append_right _ fresh, List.erase_cons_head]

-- Halfway through the list: of the dummies behind the loop those to keep are on it.
structure Cleaning (keeps : Dummy → Bool) (check free : Nat → Option Patch) (lost : List Nat) (all : List Dummy) (before : State)
    (behind : List Dummy) (at_ : State × List Message) : Prop where
  around : at_.1.around = before.around
  list : at_.1.dummyList = behind.filter keeps ++ all.drop behind.length
  tracked : Tracked at_.1 lost
  svLeak : ∀ obj, obj ∈ at_.1.svLeak ↔ obj ∈ before.svLeak ∧
    ∀ d ∈ behind, keeps d = false → free d.address ≠ none → obj ≠ d.address
  svCounter : ∀ obj, obj ∈ at_.1.svCounter → obj ∈ before.svCounter ∨ ∃ d ∈ behind, check d.address = some .fix2
  quiet : at_.2.countP forgets = 0

section Loop

variable (keeps : Dummy → Bool) (check free : Nat → Option Patch) (lost : List Nat) (before : State) (behind rest : List Dummy)
  (d : Dummy) (s : State) (log : List Message) (counters : Shadow Int)

theorem cleaning_starts (all : List Dummy) (tracked : Tracked s lost) (list : s.dummyList = all)
    (quiet : log.countP forgets = 0) : Cleaning keeps check free lost all s [] (s, log) :=
  ⟨rfl, list, tracked, fun _ => ⟨fun member => ⟨member, by simp⟩, And.left⟩, fun _ => .inl, quiet⟩

theorem cleaning_list (cleaning : Cleaning keeps check free lost (behind ++ d :: rest) before behind (s, log)) :
    s.dummyList = behind.filter keeps ++ d :: rest := by
  have list := cleaning.list
  rw [List.drop_left] at list
  exact list

theorem cleaning_keeps (cleaning : Cleaning keeps check free lost (behind ++ d :: rest) before behind (s, log))
    (members : ∀ obj, obj ∈ counters → obj ∈ s.svCounter ∨ (check d.address = some .fix2 ∧ obj = d.address))
    (stays : keeps d = true) :
    Cleaning keeps check free lost (behind ++ d :: rest) before (behind ++ [d]) ({ s with svCounter := counters }, log) := by
  refine ⟨cleaning.around, ?_, cleaning.tracked, fun obj => ?_, fun obj member => ?_, cleaning.quiet⟩
  · simp [cleaning_list _ _ _ _ _ _ _ _ _ _ cleaning, stays]
  · rw [cleaning.svLeak obj]
    simp only [List.forall_mem_append, List.forall_mem_singleton, stays, Bool.true_eq_false, false_implies, and_true]
  · rcases members obj member with old | ⟨fix2, _⟩
    · exact (cleaning.svCounter obj old).imp_right fun ⟨other, inside, fix2⟩ => ⟨other, List.mem_append_left _ inside, fix2⟩
    · exact .inr ⟨d, by simp, fix2⟩

theorem cleaning_frees (distinct : (behind ++ d :: rest).Nodup)
    (cleaning : Cleaning keeps check free lost (behind ++ d :: rest) before behind (s, log))
    (members : ∀ obj, obj ∈ counters → obj ∈ s.svCounter ∨ (check d.address = some .fix2 ∧ obj = d.address))
    (goes : keeps d = false) :
    ∃ after written, callFree (free d.address) d { s with svCounter := counters, dummyList := s.dummyList.erase d } =
        .ok (after, written) ∧
      Cleaning keeps check free lost (behind ++ d :: rest) before (behind ++ [d]) (after, log ++ written) := by
  have removed : s.dummyList.erase d = behind.filter keeps ++ rest := by
    rw [cleaning_list _ _ _ _ _ _ _ _ _ _ cleaning]
    exact erase_behind _ rest d (distinct.sublist (List.Sublist.append List.filter_sublist (List.Sublist.refl _)))
  obtain ⟨after, written, freed, frees⟩ := call_free_spec (free d.address) d lost
    { s with svCounter := counters, dummyList := s.dummyList.erase d } cleaning.tracked
  refine ⟨after, written, freed, frees.around.trans cleaning.around, ?_, frees.tracked, fun obj => ?_,
    fun obj member => ?_, by rw [List.countP_append, cleaning.quiet, frees.quiet]⟩
  · simp [frees.list, removed, goes]
  · rw [frees.svLeak obj, cleaning.svLeak obj]
    simp only [List.forall_mem_append, List.forall_mem_singleton, goes, true_implies, and_assoc]
  · rcases members obj (frees.svCounter obj member) with old | ⟨fix2, _⟩
    · exact (cleaning.svCounter obj old).imp_right fun ⟨other, inside, fix2⟩ => ⟨other, List.mem_append_left _ inside, fix2⟩
    · exact .inr ⟨d, by simp, fix2⟩

end Loop

theorem cleaning_ends (keeps : Dummy → Bool) (check free : Nat → Option Patch) (lost : List Nat) (all : List Dummy)
    (before s : State) (log : List Message) (cleaning : Cleaning keeps check free lost all before all (s, log)) :
    s.dummyList = all.filter keeps := by
  have list := cleaning.list
  rw [List.drop_length, List.append_nil] at list
  exact list

theorem cleanup_work_spec (choose : Nat → Choice) (jiffies : UInt64) (lost : List Nat) (s : State) (tracked : Tracked s lost)
    (distinct : s.dummyList.Nodup) :
    ∃ log after, cleanupWorkFunc choose jiffies s = .ok (log, { after with cleanupDwork := true }) ∧
      Cleaning (unexpired jiffies) (fun d => (choose d).check) (fun d => (choose d).free) lost s.dummyList
        { s with cleanupDwork := false } s.dummyList (after, log) := by
  have loop := Ends.fold (fun _ => False) (cleanupDummy choose jiffies)
    (Cleaning (unexpired jiffies) (fun d => (choose d).check) (fun d => (choose d).free) lost s.dummyList
      { s with cleanupDwork := false }) s.dummyList ?_ ({ s with cleanupDwork := false }, [.cleanup jiffies])
    (cleaning_starts _ _ _ lost { s with cleanupDwork := false } _ s.dummyList tracked rfl rfl)
  · obtain ⟨⟨after, log⟩, done, cleaning⟩ := Ends.total _ _ loop
    exact ⟨log, after, by rw [cleanupWorkFunc, done]; rfl, cleaning⟩
  · rintro behind d rest ⟨at_, log⟩ split cleaning
    rw [split] at distinct cleaning ⊢
    obtain ⟨counters, checked, members⟩ := call_check_spec (choose d.address).check (choose d.address).memory d jiffies at_
    rw [cleanupDummy, checked]
    cases due : timeAfter jiffies d.jiffiesExpire with
    | false => exact cleaning_keeps _ _ _ lost _ behind rest d at_ log counters cleaning members (by simp [unexpired, due])
    | true =>
        obtain ⟨after, written, freed, next⟩ := cleaning_frees _ _ _ lost _ behind rest d at_ log counters distinct cleaning
          members (by simp [unexpired, due])
        simp only [if_true, freed, except_ok_bind]
        exact next

theorem mod_exit_spec (choose : Nat → Option Patch) (lost : List Nat) (s : State) (tracked : Tracked s lost)
    (distinct : s.dummyList.Nodup) :
    ∃ log after, livepatchShadowModExit choose s = .ok (log, { after with mod := false }) ∧
      Cleaning (fun _ => false) (fun _ => none) choose lost s.dummyList
        { s with allocDwork := false, cleanupDwork := false } s.dummyList (after, log) := by
  have loop := Ends.fold (fun _ => False) (exitDummy choose)
    (Cleaning (fun _ => false) (fun _ => none) choose lost s.dummyList { s with allocDwork := false, cleanupDwork := false })
    s.dummyList ?_ ({ s with allocDwork := false, cleanupDwork := false }, [])
    (cleaning_starts _ _ _ lost { s with allocDwork := false, cleanupDwork := false } _ s.dummyList tracked rfl rfl)
  · obtain ⟨⟨after, log⟩, done, cleaning⟩ := Ends.total _ _ loop
    exact ⟨log, after, by rw [livepatchShadowModExit, done]; rfl, cleaning⟩
  · rintro behind d rest ⟨at_, log⟩ split cleaning
    rw [split] at distinct cleaning ⊢
    obtain ⟨after, written, freed, next⟩ := cleaning_frees _ _ _ lost _ behind rest d at_ log at_.svCounter distinct cleaning
      (fun _ => .inl) rfl
    rw [exitDummy, freed]
    exact next

-- What one alloc work leads to: the list gets a dummy, or the work is not scheduled again.
structure Allocs (expirePeriod : UInt64) (version : Option Patch) (memory : Memory) (jiffies : UInt64) (lost : List Nat)
    (s after : State) (log : List Message) : Prop where
  rest : (after.cleanupDwork, after.mod, after.loaded, after.stack) = (s.cleanupDwork, s.mod, s.loaded, s.stack)
  list : (after.dummyList = s.dummyList ∧ after.allocDwork = false) ∨ ∃ d, memory.dummy = some d ∧
    after.dummyList = ⟨d, jiffies + expirePeriod⟩ :: s.dummyList ∧ after.allocDwork = true
  tracked : ∃ lost', Tracked after lost' ∧ lost'.length = lost.length + log.countP forgets
  svLeak : ∀ obj, obj ∈ after.svLeak → obj ∈ s.svLeak ∨ (version = some .fix1 ∧ obj ∈ addresses after)
  svCounter : after.svCounter = s.svCounter

theorem alloc_none (expirePeriod : UInt64) (version : Option Patch) (memory : Memory) (jiffies : UInt64) (lost : List Nat)
    (s : State) (log : List Message) (tracked : Tracked s lost) (quiet : log.countP forgets = 0) :
    Allocs expirePeriod version memory jiffies lost s { s with allocDwork := false } log :=
  ⟨rfl, .inl ⟨rfl, rfl⟩, ⟨lost, tracked, by rw [quiet]; rfl⟩, fun _ => .inl, rfl⟩

theorem alloc_work_spec (expirePeriod : UInt64) (version : Option Patch) (memory : Memory) (jiffies : UInt64) (lost : List Nat)
    (s : State) (tracked : Tracked s lost) (alloc : version = none ∨ version = some .fix1) :
    ∃ log after, allocWorkFunc expirePeriod version memory jiffies s = .ok (log, after) ∧
      Allocs expirePeriod version memory jiffies lost s after log := by
  have nothing := alloc_none expirePeriod version memory jiffies lost s [] tracked rfl
  cases dummy : memory.dummy with
  | none =>
      refine ⟨[], _, ?_, nothing⟩
      rcases alloc with rfl | rfl
      · simp [allocWorkFunc, callAlloc, dummyAlloc, dummy]
      · simp [allocWorkFunc, callAlloc, livepatchFix1DummyAlloc, dummy]
  | some d =>
      cases leak : memory.leak with
      | false =>
          refine ⟨[], _, ?_, nothing⟩
          rcases alloc with rfl | rfl
          · simp [allocWorkFunc, callAlloc, dummyAlloc, dummy, leak]
          · simp [allocWorkFunc, callAlloc, livepatchFix1DummyAlloc, dummy, leak]
      | true =>
          have grown := Owned.alloc _ _ () tracked
          rcases alloc with rfl | rfl
          · refine ⟨[.allocated none d (jiffies + expirePeriod)], { s with
              leaks := s.leaks.alloc ()
              dummyList := ⟨d, jiffies + expirePeriod⟩ :: s.dummyList
              allocDwork := true }, ?_, rfl, .inr ⟨d, dummy, rfl, rfl⟩, ⟨s.leaks.size :: lost, ?_, rfl⟩, fun _ => .inl, rfl⟩
            · simp [allocWorkFunc, callAlloc, dummyAlloc, dummy, leak]
            · exact Owned.reorder _ _ _ grown List.perm_middle
          · cases shadow : Shadow.alloc memory.shadow d s.leaks.size s.svLeak with
            | none =>
                obtain ⟨leaks, freed, owned⟩ := Owned.free _ _ _ grown
                refine ⟨[.noShadow d s.leaks.size], { s with leaks := leaks, allocDwork := false }, ?_, rfl, .inl ⟨rfl, rfl⟩,
                  ⟨lost, owned, rfl⟩, fun _ => .inl, rfl⟩
                simp [allocWorkFunc, callAlloc, livepatchFix1DummyAlloc, dummy, leak, shadow, kfreeLeak, freed]
            | some svLeak =>
                obtain ⟨fresh, _, rfl⟩ := Shadow.alloc_some _ _ _ _ _ shadow
                refine ⟨[.allocated (some .fix1) d (jiffies + expirePeriod)], { s with
                  leaks := s.leaks.alloc ()
                  svLeak := s.svLeak.insert d s.leaks.size
                  dummyList := ⟨d, jiffies + expirePeriod⟩ :: s.dummyList
                  allocDwork := true }, ?_, rfl, .inr ⟨d, dummy, rfl, rfl⟩, ⟨lost, ?_, rfl⟩, fun obj member => ?_, rfl⟩
                · simp [allocWorkFunc, callAlloc, livepatchFix1DummyAlloc, dummy, leak, shadow]
                · unfold Tracked
                  rw [Shadow.values_insert d s.leaks.size s.svLeak fresh]
                  exact grown
                · rcases (AList.mem_insert s.svLeak).mp member with same | before
                  · exact .inr ⟨rfl, by simp [addresses, same]⟩
                  · exact .inl before

theorem free_all_spec (lost : List Nat) (entries : List (Σ _ : Nat, Nat)) (s : State) (log : List Message)
    (owned : Owned s.leaks (entries.map Sigma.snd ++ lost)) (quiet : log.countP forgets = 0) :
    ∃ leaks log', (entries.foldlM (fun at_ entry => do
        let s ← kfreeLeak entry.2 at_.1
        .ok (s, at_.2 ++ [.prevented .fix1 entry.1 entry.2])) (s, log) : Except Fault (State × List Message)) =
          .ok ({ s with leaks := leaks }, log') ∧ Owned leaks lost ∧ log'.countP forgets = 0 := by
  induction entries generalizing s log with
  | nil => exact ⟨s.leaks, log, rfl, owned, quiet⟩
  | cons entry entries ih =>
      obtain ⟨leaks, freed, owned⟩ := Owned.free _ _ _ owned
      obtain ⟨last, log', done, owned, quiet⟩ := ih { s with leaks := leaks } (log ++ [.prevented .fix1 entry.1 entry.2]) owned
        (by simp [quiet, forgets])
      refine ⟨last, log', ?_, owned, quiet⟩
      simp only [List.foldlM_cons, kfreeLeak, freed, except_ok_bind]
      exact done

structure Accounted (s : State) (lost : List Nat) : Prop where
  tracked : Tracked s lost
  distinct : (addresses s).Nodup
  noLeak : Patch.fix1 ∉ s.loaded → s.svLeak = ∅
  noCounter : Patch.fix2 ∉ s.loaded → s.svCounter = ∅
  stack : ∀ entry ∈ s.stack, entry.1 ∈ s.loaded
  gone : s.mod = false → s.dummyList = []

theorem accounted_initial : Accounted initial [] :=
  ⟨Owned.empty, List.nodup_nil, fun _ => rfl, fun _ => rfl, by simp [initial], fun _ => rfl⟩

theorem dummies_distinct (s : State) (lost : List Nat) (accounted : Accounted s lost) : s.dummyList.Nodup :=
  List.Nodup.of_map _ accounted.distinct

theorem shadow_empty {α : Type} (shadow : Shadow α) (none_ : ∀ obj, obj ∉ shadow) : shadow = ∅ := by
  refine AList.ext (List.eq_nil_iff_forall_not_mem.mpr fun entry inside => ?_)
  exact none_ entry.1 (AList.mem_keys.mpr (List.mem_map_of_mem inside))

theorem alloc_version (s : State) (version : Option Patch) (met : version ∈ versions replacesAlloc s.stack) :
    version = none ∨ version = some .fix1 := by
  cases version with
  | none => exact .inl rfl
  | some p =>
      have replaced := (versions_on_stack _ _ p met).2
      cases p with
      | fix1 => exact .inr rfl
      | fix2 => cases replaced

theorem alloc_work_accounted (expirePeriod : UInt64) (version : Option Patch) (memory : Memory) (jiffies : UInt64)
    (lost : List Nat) (s : State) (accounted : Accounted s lost) (allowed : guard s (.allocWork version memory jiffies)) :
    ∃ log after lost', allocWorkFunc expirePeriod version memory jiffies s = .ok (log, after) ∧ Accounted after lost' ∧
      lost'.length = lost.length + log.countP forgets := by
  obtain ⟨present, _, met, unused⟩ := allowed
  obtain ⟨log, after, done, rest, list, ⟨lost', tracked, count⟩, svLeak, svCounter⟩ :=
    alloc_work_spec expirePeriod version memory jiffies lost s accounted.tracked (alloc_version s version met)
  simp only [Prod.mk.injEq] at rest
  obtain ⟨_, mod, loaded, stack⟩ := rest
  refine ⟨log, after, lost', done, ⟨tracked, ?_, fun unloaded => ?_, fun unloaded => ?_, ?_, fun gone => ?_⟩, count⟩
  · rcases list with ⟨same, _⟩ | ⟨d, granted, more, _⟩
    · rw [addresses, same]
      exact accounted.distinct
    · rw [addresses, more, List.map_cons]
      exact List.nodup_cons.mpr ⟨unused d granted, accounted.distinct⟩
  · rw [loaded] at unloaded
    refine shadow_empty _ fun obj member => ?_
    rcases svLeak obj member with before | ⟨rfl, _⟩
    · rw [accounted.noLeak unloaded] at before
      exact AList.notMem_empty obj before
    · obtain ⟨entry, onStack, same⟩ := List.mem_map.mp (versions_on_stack _ _ _ met).1
      exact unloaded (same ▸ accounted.stack entry onStack)
  · rw [svCounter]
    exact accounted.noCounter (loaded ▸ unloaded)
  · rw [stack, loaded]
    exact accounted.stack
  · rw [mod, present] at gone
    cases gone

-- What a pass over the list leaves of the account.
theorem cleaning_accounted (keeps : Dummy → Bool) (check free : Nat → Option Patch) (lost : List Nat) (s before after : State)
    (log : List Message) (accounted : Accounted s lost)
    (same : before.svLeak = s.svLeak ∧ before.svCounter = s.svCounter ∧ before.loaded = s.loaded ∧ before.stack = s.stack)
    (cleaning : Cleaning keeps check free lost s.dummyList before s.dummyList (after, log))
    (met : ∀ d ∈ addresses s, check d = some .fix2 → Patch.fix2 ∈ s.loaded) :
    (addresses after).Nodup ∧ (Patch.fix1 ∉ after.loaded → after.svLeak = ∅) ∧
      (Patch.fix2 ∉ after.loaded → after.svCounter = ∅) ∧ (∀ entry ∈ after.stack, entry.1 ∈ after.loaded) := by
  obtain ⟨svLeakSame, svCounterSame, loadedSame, stackSame⟩ := same
  have around := cleaning.around
  simp only [State.around, Prod.mk.injEq] at around
  obtain ⟨_, _, _, loaded, stack⟩ := around
  rw [loaded, stack, loadedSame, stackSame]
  refine ⟨?_, fun unloaded => ?_, fun unloaded => ?_, accounted.stack⟩
  · rw [addresses, cleaning_ends _ _ _ _ _ _ _ _ cleaning]
    exact accounted.distinct.sublist (List.filter_sublist.map _)
  · refine shadow_empty _ fun obj member => ?_
    have old := ((cleaning.svLeak obj).mp member).1
    rw [svLeakSame, accounted.noLeak unloaded] at old
    exact AList.notMem_empty obj old
  · refine shadow_empty _ fun obj member => ?_
    rcases cleaning.svCounter obj member with old | ⟨d, inside, fix2⟩
    · rw [svCounterSame, accounted.noCounter unloaded] at old
      exact AList.notMem_empty obj old
    · exact unloaded (met d.address (List.mem_map_of_mem inside) fix2)

theorem fix_exit_accounted (p : Patch) (s : State) (lost : List Nat) (accounted : Accounted s lost)
    (allowed : guard s (.fixExit p)) :
    ∃ log after, (fixExitOf p s).map (fun r => (r.2, { r.1 with loaded := s.loaded.filter (· ≠ p) })) = .ok (log, after) ∧
      Accounted after lost ∧ log.countP forgets = 0 ∧ (∀ obj, obj ∈ after.svLeak → obj ∈ s.svLeak) ∧
      (after.dummyList, after.allocDwork, after.cleanupDwork, after.mod) = (s.dummyList, s.allocDwork, s.cleanupDwork, s.mod) := by
  obtain ⟨_, offStack⟩ := allowed
  have stack : ∀ entry ∈ s.stack, entry.1 ∈ s.loaded.filter (· ≠ p) := by
    intro entry onStack
    refine List.mem_filter.mpr ⟨accounted.stack entry onStack, ?_⟩
    simpa using fun same : entry.1 = p => offStack (same ▸ List.mem_map_of_mem onStack)
  cases p with
  | fix1 =>
      obtain ⟨leaks, log, done, owned, quiet⟩ := free_all_spec lost s.svLeak.entries { s with svLeak := ∅ } [] accounted.tracked rfl
      refine ⟨log, { s with svLeak := ∅, leaks := leaks, loaded := s.loaded.filter (· ≠ .fix1) }, ?_,
        ⟨owned, accounted.distinct, fun _ => rfl, fun unloaded => ?_, stack, accounted.gone⟩, quiet,
        fun obj member => absurd member (AList.notMem_empty obj), rfl⟩
      · rw [fixExitOf, livepatchShadowFix1Exit, done]
        rfl
      · exact accounted.noCounter fun there => unloaded (List.mem_filter.mpr ⟨there, by decide⟩)
  | fix2 =>
      refine ⟨[], _, rfl, ⟨accounted.tracked, accounted.distinct, fun unloaded => ?_, fun _ => rfl, stack, accounted.gone⟩, rfl,
        fun _ => id, rfl⟩
      exact accounted.noLeak fun there => unloaded (List.mem_filter.mpr ⟨there, by decide⟩)

theorem completed_patch (entry after : Patch × Phase) (done : completed entry = some after) : after.1 = entry.1 := by
  obtain ⟨p, phase⟩ := entry
  cases phase <;> cases done <;> rfl

theorem turned_patch (p : Patch) (enabled : Bool) (entry : Patch × Phase) : (turned p enabled entry).1 = entry.1 := by
  unfold turned
  split
  · rename_i same
    exact same.symm
  · rfl

-- Each event keeps the account, and none of them stops in kfree.
theorem step_accounted (expirePeriod : UInt64) (s : State) (lost : List Nat) (e : Event) (accounted : Accounted s lost)
    (allowed : guard s e) :
    ∃ log after lost', step expirePeriod s e = .ok (log, after) ∧ Accounted after lost' ∧
      lost'.length = lost.length + log.countP forgets := by
  obtain ⟨tracked, distinct, noLeak, noCounter, stack, gone⟩ := accounted
  have account : Accounted s lost := ⟨tracked, distinct, noLeak, noCounter, stack, gone⟩
  cases e with
  | modInit => exact ⟨[], _, lost, rfl, ⟨tracked, distinct, noLeak, noCounter, stack, nofun⟩, rfl⟩
  | allocWork version memory jiffies =>
      exact alloc_work_accounted expirePeriod version memory jiffies lost s account allowed
  | cleanupWork choose jiffies =>
      obtain ⟨present, _, met⟩ := allowed
      obtain ⟨log, after, done, cleaning⟩ := cleanup_work_spec choose jiffies lost s tracked (dummies_distinct s lost account)
      obtain ⟨addrs, leaks, counters, onStack⟩ := cleaning_accounted _ _ _ lost s { s with cleanupDwork := false } after log
        account ⟨rfl, rfl, rfl, rfl⟩ cleaning fun d inside fix2 => by
          have here := (met d inside).1
          rw [fix2] at here
          obtain ⟨entry, onStack, same⟩ := List.mem_map.mp (versions_on_stack _ _ .fix2 here).1
          exact same ▸ stack entry onStack
      have around := cleaning.around
      simp only [State.around, Prod.mk.injEq] at around
      refine ⟨log, _, lost, done, ⟨cleaning.tracked, addrs, leaks, counters, onStack, fun gone => ?_⟩, by rw [cleaning.quiet]; rfl⟩
      cases (around.2.2.1.trans present).symm.trans gone
  | modExit choose =>
      obtain ⟨log, after, done, cleaning⟩ := mod_exit_spec choose lost s tracked (dummies_distinct s lost account)
      obtain ⟨addrs, leaks, counters, onStack⟩ := cleaning_accounted _ _ _ lost s
        { s with allocDwork := false, cleanupDwork := false } after log account ⟨rfl, rfl, rfl, rfl⟩ cleaning fun _ _ => nofun
      refine ⟨log, _, lost, done, ⟨cleaning.tracked, addrs, leaks, counters, onStack, fun _ => ?_⟩, by rw [cleaning.quiet]; rfl⟩
      simp [cleaning_ends _ _ _ _ _ _ _ _ cleaning]
  | fixInit p =>
      refine ⟨[], _, lost, rfl, ⟨tracked, distinct, fun unloaded => noLeak fun there => unloaded (List.mem_cons_of_mem _ there),
        fun unloaded => noCounter fun there => unloaded (List.mem_cons_of_mem _ there), fun entry inside => ?_, gone⟩, rfl⟩
      rcases List.mem_cons.mp inside with rfl | before
      · exact List.mem_cons_self
      · exact List.mem_cons_of_mem _ (stack entry before)
  | complete =>
      refine ⟨[], _, lost, rfl, ⟨tracked, distinct, noLeak, noCounter, fun entry inside => ?_, gone⟩, rfl⟩
      obtain ⟨before, onStack, same⟩ := List.mem_filterMap.mp inside
      rw [completed_patch before entry same]
      exact stack before onStack
  | write p enabled =>
      refine ⟨[], _, lost, rfl, ⟨tracked, distinct, noLeak, noCounter, fun entry inside => ?_, gone⟩, rfl⟩
      obtain ⟨before, onStack, rfl⟩ := List.mem_map.mp inside
      rw [turned_patch]
      exact stack before onStack
  | fixExit p =>
      obtain ⟨log, after, done, next, quiet, _⟩ := fix_exit_accounted p s lost account allowed
      exact ⟨log, after, lost, done, next, by rw [quiet]; rfl⟩

theorem accounted_after (expirePeriod : UInt64) (s after : State) (lost : List Nat) (e : Event) (log : List Message)
    (accounted : Accounted s lost) (allowed : guard s e) (done : step expirePeriod s e = .ok (log, after)) :
    ∃ lost', Accounted after lost' ∧ lost'.length = lost.length + log.countP forgets := by
  obtain ⟨log', after', lost', done', next, grown⟩ := step_accounted expirePeriod s lost e accounted allowed
  obtain ⟨rfl, rfl⟩ := Prod.mk.inj (Except.ok.inj (done.symm.trans done'))
  exact ⟨lost', next, grown⟩

theorem run_accounted (expirePeriod : UInt64) (evs : List Event) (outs : List (List Message)) (last : State)
    (run : Run (step expirePeriod) guard initial evs outs last) :
    ∃ lost, Accounted last lost ∧ lost.length = outs.flatten.countP forgets := by
  refine Run.rule _ _ _ (fun _ outs last => ∃ lost, Accounted last lost ∧ lost.length = outs.flatten.countP forgets)
    ⟨[], accounted_initial, rfl⟩ ?_ evs outs last run
  rintro evs outs middle e out after ⟨lost, accounted, count⟩ allowed done
  obtain ⟨lost', next, grown⟩ := accounted_after expirePeriod middle after lost e out accounted allowed done
  exact ⟨lost', next, by rw [grown, count]; simp⟩

-- fix1 is loaded between two allocations, fix2 on top of it before the cleanup.
def sampleEvents : List Event :=
  [.modInit, .allocWork none ⟨some 1, true, true⟩ 0, .fixInit .fix1, .complete, .allocWork (some .fix1) ⟨some 2, true, true⟩ 5,
    .fixInit .fix2, .complete, .cleanupWork (fun _ => ⟨some .fix2, some .fix2, true⟩) 12, .write .fix2 false, .complete,
    .fixExit .fix2, .modExit (fun _ => some .fix1), .write .fix1 false, .complete, .fixExit .fix1]

theorem sample_run : ∃ outs last, Run (step 10) guard initial sampleEvents outs last ∧ outs.flatten.countP forgets = 1 ∧
    last.loaded = [] := by
  obtain ⟨⟨outs, last⟩, computed, counts⟩ := Option.map_eq_some_iff.mp
    (by decide +kernel : (Run.eval (step 10) guard initial sampleEvents).map
      (fun r => (r.1.flatten.countP forgets, r.2.loaded)) = some (1, []))
  obtain ⟨count, loaded⟩ := Prod.mk.inj counts
  exact ⟨outs, last, Run.eval_run _ _ _ _ _ _ computed, count, loaded⟩

-- Whichever of the functions are patched at any time: no leak is freed twice, and those
-- that are still allocated are pointed to by an SV_LEAK each, but for one for each dummy
-- that the module's own dummy_alloc returned.
theorem leaks_accounted (expirePeriod : UInt64) (evs : List Event) (outs : List (List Message)) (last : State)
    (run : Run (step expirePeriod) guard initial evs outs last) :
    (∃ lost, Owned last.leaks (Shadow.values last.svLeak ++ lost) ∧ lost.length = outs.flatten.countP forgets) ∧
      ∀ e, guard last e → ∃ r, step expirePeriod last e = .ok r := by
  obtain ⟨lost, accounted, count⟩ := run_accounted expirePeriod evs outs last run
  refine ⟨⟨lost, accounted.tracked, count⟩, fun e allowed => ?_⟩
  obtain ⟨log, after, _, done, _⟩ := step_accounted expirePeriod last lost e accounted allowed
  exact ⟨(log, after), done⟩

theorem leaks_accounted_ex : ∃ outs last lost, Run (step 10) guard initial sampleEvents outs last ∧
    Owned last.leaks (Shadow.values last.svLeak ++ lost) ∧ lost.length = 1 := by
  obtain ⟨outs, last, run, count, _⟩ := sample_run
  obtain ⟨⟨lost, owned, length⟩, _⟩ := leaks_accounted 10 sampleEvents outs last run
  exact ⟨outs, last, lost, run, owned, length.trans count⟩

-- The dummy_alloc of fix1 forgets nothing, whether or not it gets its memory.
theorem fix1_alloc_quiet (expirePeriod : UInt64) (memory : Memory) (jiffies : UInt64) (s after : State) (log : List Message)
    (done : allocWorkFunc expirePeriod (some .fix1) memory jiffies s = .ok (log, after)) : log.countP forgets = 0 := by
  obtain ⟨⟨d, middle, log'⟩, called, rest⟩ := (except_bind_ok _ _ _).mp done
  have same : log' = log := by
    cases d with
    | none => exact (Prod.mk.inj (Except.ok.inj rest)).1
    | some d => exact (Prod.mk.inj (Except.ok.inj rest)).1
  subst same
  rw [callAlloc, livepatchFix1DummyAlloc] at called
  cases granted : memory.dummy with
  | none =>
      rw [granted] at called
      cases called
      rfl
  | some address =>
      simp only [granted] at called
      split at called
      · split at called
        · cases called
          rfl
        · obtain ⟨_, _, same⟩ := (except_bind_ok _ _ _).mp called
          cases same
          rfl
      · cases called
        rfl

-- While fix1 is in place nothing is forgotten, and only a write to its enabled file can
-- take it from there.
theorem patched_step (expirePeriod : UInt64) (s after : State) (lost : List Nat) (e : Event) (log : List Message)
    (accounted : Accounted s lost) (applied : (Patch.fix1, Phase.patched) ∈ s.stack)
    (stays : ∀ enabled, e ≠ .write .fix1 enabled) (allowed : guard s e) (done : step expirePeriod s e = .ok (log, after)) :
    (Patch.fix1, Phase.patched) ∈ after.stack ∧ log.countP forgets = 0 := by
  cases e with
  | modInit =>
      cases done
      exact ⟨applied, rfl⟩
  | allocWork version memory jiffies =>
      obtain ⟨_, _, met, _⟩ := allowed
      have old : version ≠ none := fun unpatched =>
        versions_settled replacesAlloc s.stack .fix1 applied rfl (unpatched ▸ met)
      obtain rfl := (alloc_version s version met).resolve_left old
      obtain ⟨log', after', done', rest, _⟩ :=
        alloc_work_spec expirePeriod (some .fix1) memory jiffies lost s accounted.tracked (.inr rfl)
      obtain ⟨rfl, rfl⟩ := Prod.mk.inj (Except.ok.inj (done.symm.trans done'))
      simp only [Prod.mk.injEq] at rest
      exact ⟨rest.2.2.2 ▸ applied, fix1_alloc_quiet expirePeriod memory jiffies s after log done⟩
  | cleanupWork choose jiffies =>
      obtain ⟨log', after', done', cleaning⟩ := cleanup_work_spec choose jiffies lost s accounted.tracked
        (dummies_distinct s lost accounted)
      obtain ⟨rfl, rfl⟩ := Prod.mk.inj (Except.ok.inj (done.symm.trans done'))
      have around := cleaning.around
      simp only [State.around, Prod.mk.injEq] at around
      exact ⟨around.2.2.2.2 ▸ applied, cleaning.quiet⟩
  | modExit choose =>
      obtain ⟨log', after', done', cleaning⟩ := mod_exit_spec choose lost s accounted.tracked (dummies_distinct s lost accounted)
      obtain ⟨rfl, rfl⟩ := Prod.mk.inj (Except.ok.inj (done.symm.trans done'))
      have around := cleaning.around
      simp only [State.around, Prod.mk.injEq] at around
      exact ⟨around.2.2.2.2 ▸ applied, cleaning.quiet⟩
  | fixInit p =>
      cases done
      exact ⟨List.mem_cons_of_mem _ applied, rfl⟩
  | complete =>
      cases done
      exact ⟨List.mem_filterMap.mpr ⟨_, applied, rfl⟩, rfl⟩
  | write p enabled =>
      cases done
      have other : Patch.fix1 ≠ p := fun same => stays enabled (same ▸ rfl)
      exact ⟨List.mem_map.mpr ⟨_, applied, if_neg other⟩, rfl⟩
  | fixExit p =>
      cases p with
      | fix1 => exact absurd (List.mem_map_of_mem applied) allowed.2
      | fix2 =>
          cases done
          exact ⟨applied, rfl⟩

-- fix1 repairs what it is for: from the moment its transition is over, and as long as its
-- enabled file is left alone, no leak is added to those forgotten before.
theorem fix1_stops_leaks (expirePeriod : UInt64) (evs later : List Event) (outs outsLater : List (List Message))
    (middle last : State) (run : Run (step expirePeriod) guard initial evs outs middle)
    (applied : (Patch.fix1, Phase.patched) ∈ middle.stack)
    (onward : Run (step expirePeriod) guard middle later outsLater last) (stays : ∀ enabled, Event.write .fix1 enabled ∉ later) :
    (Patch.fix1, Phase.patched) ∈ last.stack ∧
      ∃ lost, Owned last.leaks (Shadow.values last.svLeak ++ lost) ∧ lost.length = outs.flatten.countP forgets := by
  obtain ⟨lost, accounted, count⟩ := run_accounted expirePeriod evs outs middle run
  have kept : (∀ enabled, Event.write .fix1 enabled ∉ later) → (Patch.fix1, Phase.patched) ∈ last.stack ∧
      ∃ lost', Accounted last lost' ∧ lost'.length = lost.length := by
    refine Run.rule _ _ _ (fun later _ last => (∀ enabled, Event.write .fix1 enabled ∉ later) →
      (Patch.fix1, Phase.patched) ∈ last.stack ∧ ∃ lost', Accounted last lost' ∧ lost'.length = lost.length)
      (fun _ => ⟨applied, lost, accounted, rfl⟩) ?_ later outsLater last onward
    intro later _ at_ e log after ih allowed done stays
    obtain ⟨inPlace, lost', accounted, same⟩ := ih fun enabled inside => stays enabled (List.mem_append_left _ inside)
    obtain ⟨inPlaceAfter, quiet⟩ := patched_step expirePeriod at_ after lost' e log accounted inPlace
      (fun enabled written => stays enabled (List.mem_append_right _ (List.mem_singleton.mpr written.symm))) allowed done
    obtain ⟨lostAfter, next, grown⟩ := accounted_after expirePeriod at_ after lost' e log accounted allowed done
    exact ⟨inPlaceAfter, lostAfter, next, by rw [grown, quiet, same]; rfl⟩
  obtain ⟨inPlace, lost', next, same⟩ := kept stays
  exact ⟨inPlace, lost', next.tracked, same.trans count⟩

theorem fix1_stops_leaks_ex : ∃ outs middle outsLater last lost,
    Run (step 10) guard initial (sampleEvents.take 4) outs middle ∧
    Run (step 10) guard middle [.allocWork (some .fix1) ⟨some 2, true, true⟩ 5] outsLater last ∧
    Owned last.leaks (Shadow.values last.svLeak ++ lost) ∧ lost.length = 1 := by
  obtain ⟨⟨outs, middle⟩, computed, facts⟩ := Option.map_eq_some_iff.mp
    (by decide +kernel : (Run.eval (step 10) guard initial (sampleEvents.take 4)).map (fun r => (r.1.flatten.countP forgets,
      r.2.stack, (Run.eval (step 10) guard r.2 [.allocWork (some .fix1) ⟨some 2, true, true⟩ 5]).isSome)) =
        some (1, [(.fix1, .patched)], true))
  obtain ⟨count, facts⟩ := Prod.mk.inj facts
  obtain ⟨stack, more⟩ := Prod.mk.inj facts
  obtain ⟨⟨outsLater, last⟩, later⟩ := Option.isSome_iff_exists.mp more
  have run := Run.eval_run _ _ _ _ _ _ computed
  have onward := Run.eval_run _ _ _ _ _ _ later
  obtain ⟨_, lost, owned, length⟩ := fix1_stops_leaks 10 _ _ outs outsLater middle last run (stack ▸ List.mem_cons_self) onward
    fun _ written => by cases List.mem_singleton.mp written
  exact ⟨outs, middle, outsLater, last, lost, run, onward, owned, length.trans count⟩

-- Once the livepatch modules are unloaded nothing of theirs is left, whatever order they
-- were enabled, disabled and removed in; what the module forgot stays allocated.
theorem livepatches_unwind (expirePeriod : UInt64) (evs : List Event) (outs : List (List Message)) (last : State)
    (run : Run (step expirePeriod) guard initial evs outs last) (unloaded : last.loaded = []) :
    last.svLeak = ∅ ∧ last.svCounter = ∅ ∧ last.stack = [] ∧
      ∃ lost, Owned last.leaks lost ∧ lost.length = outs.flatten.countP forgets := by
  obtain ⟨lost, accounted, count⟩ := run_accounted expirePeriod evs outs last run
  have noLeak := accounted.noLeak (by simp [unloaded])
  refine ⟨noLeak, accounted.noCounter (by simp [unloaded]), ?_, lost, ?_, count⟩
  · refine List.eq_nil_iff_forall_not_mem.mpr fun entry inside => ?_
    have loaded := accounted.stack entry inside
    rw [unloaded] at loaded
    cases loaded
  · have tracked := accounted.tracked
    rw [Tracked, noLeak] at tracked
    exact tracked

theorem livepatches_unwind_ex : ∃ outs last lost, Run (step 10) guard initial sampleEvents outs last ∧ last.svLeak = ∅ ∧
    Owned last.leaks lost ∧ lost.length = 1 := by
  obtain ⟨outs, last, run, count, loaded⟩ := sample_run
  obtain ⟨svLeak, _, _, lost, owned, length⟩ := livepatches_unwind 10 sampleEvents outs last run loaded
  exact ⟨outs, last, lost, run, svLeak, owned, length.trans count⟩

end LinuxModule.Livepatch
