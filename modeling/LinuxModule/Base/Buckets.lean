import Mathlib.Data.List.FinRange
import Mathlib.Data.List.Nodup
import Mathlib.Data.List.Pairwise
import Mathlib.Data.List.Perm.Basic

set_option autoImplicit false

namespace LinuxModule

-- A fixed array of intrusive lists. Buckets hold addresses; what an address points
-- to, and which bucket it belongs in, is the user's business.
abbrev Buckets (n : Nat) : Type := Fin n → List Nat

namespace Buckets

variable {n : Nat} {φ σ : Type}

def empty : Buckets n := fun _ => []

-- New nodes go to the front of their list.
def insert (t : Buckets n) (b : Fin n) (p : Nat) : Buckets n := fun c => if c = b then p :: t c else t c

-- Unlinking needs no bucket: a node knows its own neighbours.
def remove (t : Buckets n) (p : Nat) : Buckets n := fun c => (t c).filter (fun q => decide (q ≠ p))

def entries (t : Buckets n) : List Nat := (List.finRange n).flatMap t

-- The loop reads each bucket when it reaches it and each successor before the body
-- runs, so a body may unlink the node it was given.
def forEachSafe (table : σ → Buckets n) (body : Nat → σ → Except φ σ) (s : σ) : Except φ σ :=
  (List.finRange n).foldlM (fun s b => (table s b).foldlM (fun s p => body p s) s) s

theorem mem_entries (t : Buckets n) (p : Nat) : p ∈ t.entries ↔ ∃ b, p ∈ t b := by
  simp [entries]

@[simp] theorem entries_empty : (empty : Buckets n).entries = [] := by
  simp [entries, empty]

theorem entries_insert (t : Buckets n) (b : Fin n) (p : Nat) : (t.insert b p).entries.Perm (p :: t.entries) := by
  obtain ⟨before, after, split⟩ := List.append_of_mem (List.mem_finRange b)
  have distinct : (before ++ b :: after).Nodup := split ▸ List.nodup_finRange n
  have outside : ∀ c ∈ before ++ after, (t.insert b p) c = t c := by
    intro c member
    have different : c ≠ b := by
      rintro rfl
      exact (List.nodup_middle.mp distinct).notMem member
    simp only [insert, if_neg different]
  have here : (t.insert b p) b = p :: t b := by simp only [insert, if_pos]
  have left : before.flatMap (t.insert b p) = before.flatMap t :=
    List.flatMap_congr (fun c member => outside c (List.mem_append_left _ member))
  have right : after.flatMap (t.insert b p) = after.flatMap t :=
    List.flatMap_congr (fun c member => outside c (List.mem_append_right _ member))
  simp only [entries, split, List.flatMap_append, List.flatMap_cons, left, right, here]
  exact List.perm_middle

theorem bucket_unique (t : Buckets n) (distinct : t.entries.Nodup) (p : Nat) (b c : Fin n) (inB : p ∈ t b)
    (inC : p ∈ t c) : b = c := by
  by_contra different
  have apart := (List.nodup_flatMap.mp distinct).2
  have : Std.Symm (Function.onFun List.Disjoint t) := ⟨fun _ _ apart _ later before => apart before later⟩
  exact apart.forall (List.mem_finRange b) (List.mem_finRange c) different inB inC

def removeAll (t : Buckets n) (ps : List Nat) : Buckets n := fun c => (t c).filter (fun q => decide (q ∉ ps))

theorem remove_all_nil (t : Buckets n) : t.removeAll [] = t := by
  funext c
  simp [removeAll]

theorem remove_all_snoc (t : Buckets n) (ps : List Nat) (p : Nat) :
    (t.removeAll ps).remove p = t.removeAll (ps ++ [p]) := by
  funext c
  simp only [remove, removeAll, List.filter_filter]
  apply List.filter_congr
  intro q _
  by_cases same : q = p <;> simp [same]

theorem remove_all_entries (t : Buckets n) : t.removeAll t.entries = empty := by
  funext c
  simp only [removeAll, empty, List.filter_eq_nil_iff]
  intro p member
  simpa using (mem_entries t p).mpr ⟨c, member⟩

-- Rule for a loop that unlinks every node it visits. The invariant speaks of the
-- nodes already visited; the table is known at every point.
theorem for_each_safe_rule (table : σ → Buckets n) (body : Nat → σ → Except φ σ) (start : Buckets n)
    (inv : List Nat → σ → Prop) (distinct : start.entries.Nodup)
    (step : ∀ done p s, p ∈ start.entries → p ∉ done → table s = start.removeAll done → inv done s →
      ∃ next, body p s = .ok next ∧ table next = (table s).remove p ∧ inv (done ++ [p]) next)
    (s : σ) (at_start : table s = start) (holds : inv [] s) :
    ∃ next, forEachSafe table body s = .ok next ∧ table next = empty ∧ inv start.entries next := by
  -- One bucket, entered with `done` visited and the nodes `todo` still ahead.
  have bucket : ∀ todo done s, (∀ p ∈ todo, p ∈ start.entries) → (done ++ todo).Nodup →
      table s = start.removeAll done → inv done s →
      ∃ next, todo.foldlM (fun s p => body p s) s = .ok next ∧
        table next = start.removeAll (done ++ todo) ∧ inv (done ++ todo) next := by
    intro todo
    induction todo with
    | nil =>
        intro done s _ _ known holds
        exact ⟨s, rfl, by simpa using known, by simpa using holds⟩
    | cons p rest ih =>
        intro done s within fresh known holds
        have unseen : p ∉ done := fun member =>
          (List.nodup_middle.mp fresh).notMem (List.mem_append_left _ member)
        obtain ⟨middle, ran, removed, kept⟩ := step done p s (within p (by simp)) unseen known holds
        obtain ⟨next, rest_ran, rest_known, rest_kept⟩ := ih (done ++ [p]) middle
          (fun q member => within q (by simp [member])) (by simpa using fresh)
          (by rw [removed, known, remove_all_snoc]) kept
        refine ⟨next, ?_, by simpa using rest_known, by simpa using rest_kept⟩
        simp only [List.foldlM_cons, ran]
        exact rest_ran
  have buckets : ∀ bs cs s, List.finRange n = cs ++ bs →
      table s = start.removeAll (cs.flatMap start) → inv (cs.flatMap start) s →
      ∃ next, bs.foldlM (fun s b => (table s b).foldlM (fun s p => body p s) s) s = .ok next ∧
        table next = start.removeAll start.entries ∧ inv start.entries next := by
    intro bs
    induction bs with
    | nil =>
        intro cs s split known holds
        have all : start.entries = cs.flatMap start := by simp only [entries, split, List.append_nil]
        exact ⟨s, rfl, all ▸ known, all ▸ holds⟩
    | cons b rest ih =>
        intro cs s split known holds
        have parts : start.entries = cs.flatMap start ++ (start b ++ rest.flatMap start) := by
          simp only [entries, split, List.flatMap_append, List.flatMap_cons]
        have fresh : (cs.flatMap start ++ start b).Nodup := by
          rw [parts, ← List.append_assoc] at distinct
          exact (List.nodup_append.mp distinct).1
        -- No node of this bucket was visited in an earlier one.
        have untouched : table s b = start b := by
          rw [known]
          apply List.filter_eq_self.mpr
          intro p member
          simpa using fun before => (List.nodup_append.mp fresh).2.2 p before p member rfl
        obtain ⟨middle, ran, removed, kept⟩ := bucket (start b) (cs.flatMap start) s
          (fun p member => by rw [parts]; simp [member]) fresh known holds
        obtain ⟨next, rest_ran, rest_known, rest_kept⟩ := ih (cs ++ [b]) middle (by simp [split])
          (by simpa using removed) (by simpa using kept)
        refine ⟨next, ?_, rest_known, rest_kept⟩
        simp only [List.foldlM_cons, untouched, ran]
        exact rest_ran
  obtain ⟨next, ran, known, kept⟩ := buckets (List.finRange n) [] s (by simp)
    (by simpa [remove_all_nil] using at_start) (by simpa using holds)
  exact ⟨next, ran, by rw [known, remove_all_entries], kept⟩

end Buckets
end LinuxModule
