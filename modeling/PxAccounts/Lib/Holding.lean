import Mathlib.Data.Set.Basic
import Mathlib.Logic.ExistsUnique
import Mathlib.Logic.Function.Basic

/-!
# Resources and the places that hold them

Some resources are in use, and every place holds the names of some resources.  A resource in use is to
be held in exactly one place: otherwise nobody would give it back, or it would be given back twice.
-/

namespace Holding

variable {ι ρ : Type*} {used : Set ρ} {held : ι → Set ρ}

/-- Every resource in use is held in exactly one place. -/
def HeldOnce (used : Set ρ) (held : ι → Set ρ) : Prop := ∀ r ∈ used, ∃! i, r ∈ held i

/-- Resources may go out of use while their names stay. -/
theorem HeldOnce.mono (h : HeldOnce used held) {used' : Set ρ} (hsub : used' ⊆ used) :
    HeldOnce used' held := fun r hr => h r (hsub hr)

variable [DecidableEq ι]

/-- What the other places hold when one place changes. -/
theorem mem_update_of_ne {new : Set ρ} {i j : ι} {r : ρ} (h : j ≠ i) :
    r ∈ Function.update held i new j ↔ r ∈ held j := by
  rw [Function.update_of_ne h]

theorem mem_update_self {new : Set ρ} {i : ι} {r : ρ} :
    r ∈ Function.update held i new i ↔ r ∈ new := by
  rw [Function.update_self]

/-- A resource that is held once stays so when a place changes that neither holds it before nor
after. -/
theorem existsUnique_update {new : Set ρ} {i : ι} {r : ρ} (h : ∃! j, r ∈ held j)
    (hbefore : r ∉ held i) (hafter : r ∉ new) : ∃! j, r ∈ Function.update held i new j := by
  obtain ⟨j, hj, honly⟩ := h
  have hne : j ≠ i := by
    rintro rfl
    exact hbefore hj
  refine ⟨j, (mem_update_of_ne hne).2 hj, fun k hk => ?_⟩
  by_cases hki : k = i
  · subst hki
    exact absurd (mem_update_self.1 hk) hafter
  · exact honly k ((mem_update_of_ne hki).1 hk)

/-- A place that is cleared after what it held went out of use. -/
theorem HeldOnce.clear (h : HeldOnce used held) (i : ι) :
    HeldOnce (used \ held i) (Function.update held i ∅) :=
  fun r hr => existsUnique_update (h r hr.1) hr.2 id

/-- A place gets other names in the place of those it held, which must be out of use; the names of
the resources made for it are among them, and no other place has them. -/
theorem HeldOnce.replace (h : HeldOnce used held) (i : ι) {new made : Set ρ}
    (hfree : ∀ r ∈ held i, r ∉ used) (hnew : ∀ r ∈ new, r ∉ used) (hmade : made ⊆ new)
    (hunheld : ∀ r ∈ made, ∀ j, r ∉ held j) :
    HeldOnce (used ∪ made) (Function.update held i new) := by
  rintro r (hr | hr)
  · exact existsUnique_update (h r hr) (fun hheld => hfree r hheld hr) fun hmem => hnew r hmem hr
  · refine ⟨i, mem_update_self.2 (hmade hr), fun k hk => ?_⟩
    by_contra hki
    exact hunheld r hr k ((mem_update_of_ne hki).1 hk)

end Holding
