import Mathlib.Data.List.AList

set_option autoImplicit false

namespace LinuxModule

-- Data attached to objects by their addresses: the shadow variables of one id.
abbrev Shadow (α : Type) : Type := AList (fun _ : Nat => α)

namespace Shadow

variable {α : Type}

def values (shadow : Shadow α) : List α := shadow.entries.map Sigma.snd

-- klp_shadow_alloc: an object that has the variable already is refused a second one.
def alloc (memory : Bool) (obj : Nat) (data : α) (shadow : Shadow α) : Option (Shadow α) :=
  if obj ∈ shadow ∨ memory = false then none else some (shadow.insert obj data)

-- klp_shadow_get_or_alloc
def getOrAlloc (memory : Bool) (obj : Nat) (fresh : α) (shadow : Shadow α) : Option (α × Shadow α) :=
  match shadow.lookup obj with
  | some data => some (data, shadow)
  | none => if memory then some (fresh, shadow.insert obj fresh) else none

theorem alloc_some (memory : Bool) (obj : Nat) (data : α) (shadow after : Shadow α)
    (done : alloc memory obj data shadow = some after) : obj ∉ shadow ∧ memory = true ∧ after = shadow.insert obj data := by
  by_cases refused : obj ∈ shadow ∨ memory = false
  · simp [alloc, refused] at done
  · obtain ⟨fresh, granted⟩ := not_or.mp refused
    rw [alloc, if_neg refused] at done
    exact ⟨fresh, by simpa using granted, (Option.some.inj done).symm⟩

theorem get_or_alloc_members (memory : Bool) (obj : Nat) (fresh data : α) (shadow after : Shadow α)
    (done : getOrAlloc memory obj fresh shadow = some (data, after)) (other : Nat) :
    other ∈ after ↔ other ∈ shadow ∨ other = obj := by
  cases found : shadow.lookup obj with
  | some here =>
      have member : obj ∈ shadow := AList.lookup_isSome.mp (by rw [found]; rfl)
      simp only [getOrAlloc, found, Option.some.injEq, Prod.mk.injEq] at done
      obtain ⟨rfl, rfl⟩ := done
      exact ⟨.inl, fun either => either.elim id fun same => same ▸ member⟩
  | none =>
      cases memory with
      | false => simp [getOrAlloc, found] at done
      | true =>
          simp only [getOrAlloc, found, if_true, Option.some.injEq, Prod.mk.injEq] at done
          obtain ⟨rfl, rfl⟩ := done
          rw [AList.mem_insert, or_comm]

theorem values_insert (obj : Nat) (data : α) (shadow : Shadow α) (fresh : obj ∉ shadow) :
    values (shadow.insert obj data) = data :: values shadow := by
  rw [values, AList.entries_insert_of_notMem fresh]
  rfl

theorem values_erase (obj : Nat) (data : α) (shadow : Shadow α) (found : shadow.lookup obj = some data) :
    (values shadow).Perm (data :: values (shadow.erase obj)) := by
  have member : obj ∈ shadow.entries.keys := AList.mem_keys.mp (AList.lookup_isSome.mp (by rw [found]; rfl))
  obtain ⟨other, first, rest, before, split, erased⟩ := List.exists_of_kerase member
  have same : other = data := by
    have inside : (⟨obj, other⟩ : Σ _ : Nat, α) ∈ shadow.entries := by simp [split]
    exact Option.some.inj ((AList.mem_lookup_iff.mpr inside).symm.trans found)
  subst same
  have whole : values shadow = first.map Sigma.snd ++ other :: rest.map Sigma.snd := by
    rw [values, split]
    simp
  have left : values (shadow.erase obj) = first.map Sigma.snd ++ rest.map Sigma.snd := by
    change (List.kerase obj shadow.entries).map Sigma.snd = _
    rw [erased, List.map_append]
  rw [whole, left]
  exact List.perm_middle

end Shadow
end LinuxModule
