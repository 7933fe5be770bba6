import LinuxModule.Base.Walk

set_option autoImplicit false

namespace LinuxModule

-- How a computation that may stop ends: with a result that has the property, or
-- stopped in one of the ways that are allowed.
def Ends {φ α : Type} (stop : φ → Prop) (post : α → Prop) (x : Except φ α) : Prop :=
  match x with
  | .ok a => post a
  | .error e => stop e

namespace Ends

variable {φ α β σ : Type} (stop : φ → Prop)

theorem bind (f : α → Except φ β) (post : β → Prop) (x : Except φ α) (first : Ends stop (fun a => Ends stop post (f a)) x) :
    Ends stop post (x >>= f) := by
  cases x with
  | ok a => exact first
  | error e => exact first

theorem map (f : α → β) (post : β → Prop) (x : Except φ α) (first : Ends stop (fun a => post (f a)) x) :
    Ends stop post (x.map f) := by
  cases x with
  | ok a => exact first
  | error e => exact first

theorem mono (post weaker : α → Prop) (x : Except φ α) (ends : Ends stop post x) (imp : ∀ a, post a → weaker a) :
    Ends stop weaker x := by
  cases x with
  | ok a => exact imp a ends
  | error e => exact ends

theorem result (post : α → Prop) (x : Except φ α) (a : α) (ends : Ends stop post x) (done : x = .ok a) : post a := by
  rw [done] at ends
  exact ends

theorem stopped (post : α → Prop) (x : Except φ α) (e : φ) (ends : Ends stop post x) (failed : x = .error e) : stop e := by
  rw [failed] at ends
  exact ends

-- Where nothing is allowed to stop it there is a result.
theorem total (post : α → Prop) (x : Except φ α) (ends : Ends (fun _ => False) post x) : ∃ a, x = .ok a ∧ post a := by
  cases x with
  | ok a => exact ⟨a, rfl, ends⟩
  | error e => exact ends.elim

-- The invariant of a loop speaks of the elements behind it.
theorem fold (f : σ → α → Except φ σ) (inv : List α → σ → Prop) (xs : List α)
    (kept : ∀ behind x rest s, xs = behind ++ x :: rest → inv behind s → Ends stop (inv (behind ++ [x])) (f s x))
    (s : σ) (start : inv [] s) : Ends stop (inv xs) (xs.foldlM f s) := by
  have general : ∀ rest behind s, xs = behind ++ rest → inv behind s → Ends stop (inv xs) (rest.foldlM f s) := by
    intro rest
    induction rest with
    | nil =>
        intro behind s split holds
        rw [List.append_nil] at split
        exact split ▸ holds
    | cons x rest ih =>
        intro behind s split holds
        rw [List.foldlM_cons]
        refine bind stop _ _ _ (mono stop _ _ _ (kept behind x rest s split holds) fun next => ?_)
        exact ih (behind ++ [x]) next (by simp [split])
  exact general xs [] s rfl start

end Ends
end LinuxModule
