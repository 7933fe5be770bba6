import Mathlib.Data.List.Sort

set_option autoImplicit false

namespace LinuxModule

-- qsort(): it orders the elements by what the comparison says of them, and only ever
-- swaps them.
structure Qsort (α : Type) where
  order : (α → α → Int) → List α → List α
  permutes : ∀ cmp xs, (order cmp xs).Perm xs

namespace Qsort

variable {α : Type}

def Ascending (cmp : α → α → Int) (a b : α) : Prop := cmp a b ≤ 0

-- What it is documented to do with a comparison that is total and transitive.
def Sorts (sort : Qsort α) : Prop :=
  ∀ cmp, (∀ a b, Ascending cmp a b ∨ Ascending cmp b a) →
    (∀ a b c, Ascending cmp a b → Ascending cmp b c → Ascending cmp a c) →
    ∀ xs, (sort.order cmp xs).Pairwise (Ascending cmp)

def insertion (α : Type) : Qsort α where
  order cmp xs := xs.insertionSort (fun a b => cmp a b ≤ 0)
  permutes _ xs := List.perm_insertionSort _ xs

theorem insertion_sorts : (insertion α).Sorts := by
  intro cmp total trans xs
  have total' : Std.Total (fun a b : α => cmp a b ≤ 0) := ⟨total⟩
  have trans' : IsTrans α (fun a b => cmp a b ≤ 0) := ⟨trans⟩
  exact List.pairwise_insertionSort (fun a b : α => cmp a b ≤ 0) xs

-- Pointers that may be NULL, in descending order of a key, NULLs last.
def nullsLast (numcmp : Int → Int → Int) (key : α → Int) : Option α → Option α → Int
  | none, none => 0
  | none, some _ => 1
  | some _, none => -1
  | some a, some b => -numcmp (key a) (key b)

def Descending (key : α → Int) (a b : α) : Prop := key b ≤ key a

variable (numcmp : Int → Int → Int) (key : α → Int)

theorem nulls_last_iff (compares : ∀ a b, 0 ≤ numcmp a b ↔ b ≤ a) (x y : Option α) :
    Ascending (nullsLast numcmp key) x y ↔ y = none ∨ ∃ a b, x = some a ∧ y = some b ∧ Descending key a b := by
  cases x with
  | none => cases y <;> simp [Ascending, nullsLast]
  | some a =>
      cases y with
      | none => simp [Ascending, nullsLast]
      | some b => simp [Ascending, nullsLast, Descending, compares]

theorem nulls_last_sorted (compares : ∀ a b, 0 ≤ numcmp a b ↔ b ≤ a) (sort : Qsort (Option α)) (sorts : sort.Sorts)
    (xs : List (Option α)) : (sort.order (nullsLast numcmp key) xs).Pairwise (Ascending (nullsLast numcmp key)) := by
  have meaning := nulls_last_iff numcmp key compares
  refine sorts _ (fun x y => ?_) (fun x y z first second => ?_) xs
  · rw [meaning, meaning]
    cases x with
    | none => exact .inr (.inl rfl)
    | some a =>
        cases y with
        | none => exact .inl (.inl rfl)
        | some b =>
            rcases Int.le_total (key b) (key a) with less | less
            · exact .inl (.inr ⟨a, b, rfl, rfl, less⟩)
            · exact .inr (.inr ⟨b, a, rfl, rfl, less⟩)
  · rw [meaning] at first second ⊢
    rcases second with last | ⟨b, c, rfl, rfl, less⟩
    · exact .inl last
    · rcases first with none_there | ⟨a, b', rfl, same, more⟩
      · cases none_there
      · obtain rfl := Option.some.inj same
        exact .inr ⟨a, c, rfl, rfl, Int.le_trans less more⟩

-- In a list so ordered the elements stand in front of the NULLs.
theorem nulls_last_split (compares : ∀ a b, 0 ≤ numcmp a b ↔ b ≤ a) (xs : List (Option α))
    (sorted : xs.Pairwise (Ascending (nullsLast numcmp key))) :
    ∃ (elements : List α) (nulls : Nat), xs = elements.map some ++ List.replicate nulls none ∧ elements.Pairwise (Descending key) := by
  induction xs with
  | nil => exact ⟨[], 0, rfl, .nil⟩
  | cons x rest ih =>
      obtain ⟨above, later⟩ := List.pairwise_cons.mp sorted
      cases x with
      | none =>
          have all_null : ∀ y ∈ rest, y = none := by
            intro y member
            rcases (nulls_last_iff numcmp key compares none y).mp (above y member) with null | ⟨_, _, impossible, _⟩
            · exact null
            · cases impossible
          refine ⟨[], rest.length + 1, ?_, .nil⟩
          rw [List.replicate_succ, ← List.eq_replicate_of_mem all_null]
          rfl
      | some a =>
          obtain ⟨elements, nulls, rfl, ordered⟩ := ih later
          refine ⟨a :: elements, nulls, rfl, List.pairwise_cons.mpr ⟨fun b member => ?_, ordered⟩⟩
          have below := above (some b) (List.mem_append_left _ (List.mem_map_of_mem member))
          rcases (nulls_last_iff numcmp key compares (some a) (some b)).mp below with null | ⟨a', b', same, same', less⟩
          · cases null
          · cases same
            cases same'
            exact less

end Qsort
end LinuxModule
