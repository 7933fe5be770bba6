import LinuxModule.Base.Runs
import LinuxModule.Top.Passes
import LinuxModule.Top.Readings

set_option autoImplicit false

namespace LinuxModule.Top

open Stdio

def Row.clear : Row → Row
  | .process pid cpu state numThreads vss rss _ uid name => .process pid cpu state numThreads vss rss [] uid name
  | .thread pid tid cpu state vss rss _ uid tname name => .thread pid tid cpu state vss rss [] uid tname name

-- The table that two readings lead to.
structure Expected (opts : Options) (pageSize : Int) (prev snap : Snapshot) (table : Table) : Prop where
  header : table.header = headerOf (snap.cpu noCpu) (prev.cpu noCpu)
  rows : ∃ infos, infos.Perm ((snap.items opts.threads).map fun item =>
      visible opts.threads (deltasFrom (prev.items opts.threads) item)) ∧
    infos.Pairwise (Qsort.Descending opts.column.key) ∧
    table.rows.map Row.clear =
      (opts.shown infos).map (rowOf opts.threads pageSize ((snap.cpu noCpu).total - (prev.cpu noCpu).total))

theorem find_perm {α κ : Type} (key : α → κ) (k : κ) (p : α → Bool) (selects : ∀ a, p a = true → key a = k)
    (first second : List α) (same : first.Perm second) (distinct : (first.map key).Nodup) : first.find? p = second.find? p := by
  induction same with
  | nil => rfl
  | cons a _ ih =>
      rw [List.find?_cons, List.find?_cons, ih (List.nodup_cons.mp distinct).2]
  | swap a b rest =>
      cases hitA : p a with
      | false => simp [List.find?_cons, hitA]
      | true =>
          cases hitB : p b with
          | false => simp [hitA, hitB]
          | true =>
              have equal : key b = key a := (selects b hitB).trans (selects a hitA).symm
              simp [equal] at distinct
  | trans before _ ih ih' =>
      exact (ih distinct).trans (ih' ((before.map key).nodup_iff.mp distinct))

theorem plain_deltas (threads : Bool) (olds : List ProcInfo) (info : ProcInfo) :
    plain threads (deltasFrom olds info) = plain threads info := by
  unfold deltasFrom withDeltas
  split
  rfl

-- The differences come from the times of the record found, and the rest from the new one.
theorem with_deltas_plain (threads : Bool) (old old' : Option ProcInfo) (info info' : ProcInfo)
    (sameOld : old.map (plain threads) = old'.map (plain threads)) (same : plain threads info = plain threads info') :
    visible threads (withDeltas old info) = visible threads (withDeltas old' info') := by
  simp only [plain, visible, ProcInfo.mk.injEq] at same
  cases old with
  | none =>
      obtain rfl : old' = none := by simpa using sameOld.symm
      simp only [withDeltas, visible, ProcInfo.mk.injEq]
      simp_all
  | some before =>
      obtain ⟨before', rfl, both⟩ : ∃ before', old' = some before' ∧ plain threads before' = plain threads before := by
        simpa using sameOld.symm
      simp only [plain, visible, ProcInfo.mk.injEq] at both
      simp only [withDeltas, visible, ProcInfo.mk.injEq]
      simp_all

theorem find_plain (threads : Bool) (pid tid : Int) (infos : List ProcInfo) :
    (infos.find? (sameThread pid tid)).map (plain threads) = (infos.map (plain threads)).find? (sameThread pid tid) := by
  rw [List.find?_map]
  rfl

theorem deltas_plain (threads : Bool) (olds items : List ProcInfo) (info item : ProcInfo)
    (before : (olds.map (plain threads)).Perm (items.map (plain threads))) (distinct : (items.map ProcInfo.id).Nodup)
    (same : plain threads info = plain threads item) :
    visible threads (deltasFrom olds info) = visible threads (deltasFrom items item) := by
  refine with_deltas_plain threads _ _ info item ?_ same
  obtain ⟨pid, tid⟩ : info.pid = item.pid ∧ info.tid = item.tid := by
    simp only [plain, visible, ProcInfo.mk.injEq] at same
    exact ⟨same.2.1, same.2.2.1⟩
  rw [find_plain, find_plain, pid, tid]
  refine (find_perm ProcInfo.id (item.pid, item.tid) _ ?_ _ _ before.symm ?_).symm
  · intro a hit
    simpa [sameThread, ProcInfo.id] using hit
  · rw [List.map_map]
    exact distinct

theorem results_plain (threads : Bool) (fills : List (ProcInfo → Except Stop ProcInfo)) (infos : List ProcInfo)
    (results : Results fills infos) (fresh : ∀ fill ∈ fills, Fresh threads fill) :
    infos.map (plain threads) = (fills.filterMap fun fill => (fill blank).toOption).map (plain threads) := by
  induction results with
  | nil => rfl
  | @cons fill info fills infos here _ ih =>
      obtain ⟨now, later⟩ := List.forall_mem_cons.mp fresh
      obtain ⟨item, filled, any⟩ := now
      obtain ⟨base, done⟩ := here
      obtain ⟨other, done', same⟩ := any base
      obtain rfl : info = other := Except.ok.inj (done.symm.trans done')
      rw [List.map_cons, ih later, List.filterMap_cons, filled, same]
      rfl

theorem results_deltas (threads : Bool) (olds items : List ProcInfo) (infos news : List ProcInfo)
    (before : (olds.map (plain threads)).Perm (items.map (plain threads))) (distinct : (items.map ProcInfo.id).Nodup)
    (same : infos.map (plain threads) = news.map (plain threads)) :
    (infos.map (deltasFrom olds)).map (visible threads) = news.map fun item => visible threads (deltasFrom items item) := by
  rw [List.map_map]
  induction infos generalizing news with
  | nil =>
      obtain rfl : news = [] := by simpa using same.symm
      rfl
  | cons info infos ih =>
      cases news with
      | nil => simp at same
      | cons item news =>
          obtain ⟨here, later⟩ := List.cons.inj same
          rw [List.map_cons, List.map_cons, ih news later, Function.comp_apply,
            deltas_plain threads olds items info item before distinct here]

theorem clear_row (threads : Bool) (pageSize : Int) (total : UInt64) (info : ProcInfo) :
    (rowOf threads pageSize total info).clear = rowOf threads pageSize total (visible threads info) := by
  cases threads <;> rfl

theorem shown_visible (opts : Options) (infos : List ProcInfo) :
    (opts.shown infos).map (visible opts.threads) = opts.shown (infos.map (visible opts.threads)) := by
  unfold Options.shown
  split
  · rfl
  · exact List.map_take

theorem key_visible (opts : Options) (sensible : ¬ (opts.threads = true ∧ opts.column = .thr)) (info : ProcInfo) :
    opts.column.key (visible opts.threads info) = opts.column.key info := by
  cases column : opts.column with
  | thr =>
      have processes : opts.threads = false := by
        cases threads : opts.threads with
        | true => exact absurd ⟨threads, column⟩ sensible
        | false => rfl
      simp [Column.key, thrKey, visible, processes]
  | _ => rfl

-- What one reading leaves for the next pass.
structure Holds (threads : Bool) (snap : Snapshot) (m : Main) : Prop where
  records : ∃ rows lost infos, Between m.globals rows lost infos ∧
    (infos.map (plain threads)).Perm ((snap.items threads).map (plain threads))
  cpu : m.globals.newCpu = snap.cpu noCpu

theorem start_holds (opts : Options) (first : Snapshot) (faithful : Faithful opts.threads first) :
    ∃ start, startUp opts first = .ok start ∧ Holds opts.threads first start := by
  obtain ⟨start, begun, rows, lost, infos, between, results, _, cpu, _⟩ :=
    Ends.total _ _ (start_up_spec (fun _ => False) opts first faithful.serves)
  have same := results_plain opts.threads _ infos results faithful.fresh
  exact ⟨start, begun, ⟨rows, lost, infos, between, by rw [same]; rfl⟩, cpu⟩

theorem serves_mono (stop weaker : Stop → Prop) (allows : ∀ e, stop e → weaker e) (threads : Bool) (snap : Snapshot)
    (serves : ServesSnapshot stop threads snap) : ServesSnapshot weaker threads snap := by
  refine ⟨fun missing message => allows _ (serves.files missing message), fun no => allows _ (serves.array no),
    fun p member named => ?_⟩
  have each := serves.each p member named
  cases threads with
  | true =>
      intro tasks task t inTasks numbered
      obtain ⟨refused, fails⟩ := each tasks task t inTasks numbered
      exact ⟨fun no message => allows _ (refused no message), fun base e failed => allows _ (fails base e failed)⟩
  | false => exact ⟨fun no message => allows _ (each.refused no message), fun base e failed => allows _ (each.fails base e failed)⟩

-- A pass over a faithful reading has one way to stop: no time has gone by on the cpus.
theorem pass_holds (opts : Options) (sensible : ¬ (opts.threads = true ∧ opts.column = .thr)) (pageSize : Int)
    (sort : Qsort (Option Entry)) (sorts : sort.Sorts) (prev snap : Snapshot) (m : Main) (before : Faithful opts.threads prev)
    (faithful : Faithful opts.threads snap) (holds : Holds opts.threads prev m) :
    Ends (fun e => e = .divideByZero ∧ (snap.cpu noCpu).total = (prev.cpu noCpu).total)
      (fun r => (snap.cpu noCpu).total ≠ (prev.cpu noCpu).total ∧ Expected opts pageSize prev snap r.1 ∧
        Holds opts.threads snap r.2) (pass opts pageSize sort m snap) := by
  obtain ⟨rows, lost, olds, between, same⟩ := holds.records
  have cpu : snap.cpu m.globals.newCpu = snap.cpu noCpu := faithful.cpu _
  refine Ends.mono _ _ _ _ (pass_spec _ opts pageSize sort sorts m snap rows lost olds between
    (serves_mono _ _ (fun _ never => never.elim) opts.threads snap faithful.serves)
    (fun equal => ⟨rfl, by rw [← cpu, equal, holds.cpu]⟩)) ?_
  rintro ⟨table, after⟩ ⟨rows', newLost, infos, passed⟩
  obtain ⟨⟨found, results, permuted⟩, ordered, total, shown⟩ := passed.shows_
  rw [cpu, holds.cpu] at total shown
  have plainly := results_plain opts.threads _ found results faithful.fresh
  have rowsOf := results_deltas opts.threads olds _ found (snap.items opts.threads) same before.distinct plainly
  refine ⟨total, ⟨by rw [shown, tableOf], infos.map (visible opts.threads), ?_, ?_, ?_⟩, ⟨rows', newLost ++ lost, infos,
    passed.between, ?_⟩, passed.cpu.trans cpu⟩
  · rw [← rowsOf]
    exact permuted.map _
  · rw [List.pairwise_map]
    refine ordered.imp fun {a b} less => ?_
    rw [Qsort.Descending, key_visible opts sensible, key_visible opts sensible]
    exact less
  · rw [shown, tableOf, ← shown_visible, List.map_map, List.map_map]
    exact List.map_congr_left fun info _ => clear_row _ _ _ info
  · refine (permuted.map (plain opts.threads)).trans ?_
    rw [List.map_map]
    have undone : (plain opts.threads ∘ deltasFrom olds) = plain opts.threads := funext fun info => plain_deltas _ _ _
    rw [undone, plainly]
    rfl

def sampleOptions : Options := ⟨0, 3, 1, .cpu, false⟩

theorem sample_run : ∃ start outs m, startUp sampleOptions (sampleSnapshot 5) = .ok start ∧
    Run (pass sampleOptions 4096 (Qsort.insertion _)) goesOn start [sampleSnapshot 6] outs m := by
  obtain ⟨first, second⟩ := samples_faithful
  obtain ⟨start, begun, holds⟩ := start_holds sampleOptions _ first
  obtain ⟨s, _, rfl⟩ := (except_map_ok _ _ start).mp begun
  have ends := pass_holds sampleOptions (by decide) 4096 (Qsort.insertion _) Qsort.insertion_sorts _ _ _ first second holds
  cases done : pass sampleOptions 4096 (Qsort.insertion _) ⟨s, sampleOptions.iterations⟩ (sampleSnapshot 6) with
  | ok r => exact ⟨_, _, _, begun, .next [] [] _ _ r.1 r.2 .start (.inr (show (0 : Int) < 1 by decide)) done⟩
  | error e =>
      obtain ⟨_, same⟩ := Ends.stopped _ _ _ e ends done
      exact absurd same (by decide +kernel)

end LinuxModule.Top
