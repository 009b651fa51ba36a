import Mathlib

/-!
# Lists cut at a separator

A list written with separators between its parts can be read back part by part.  Written with
nothing between them, the parts are told apart only when there is at most one.
-/

namespace Pieces

variable {α : Type} {sep : α} {ps : List (List α)}

/-- The parts can be told apart: none is empty or has a separator in it. -/
def Plain (sep : α) (ps : List (List α)) : Prop := ∀ p ∈ ps, p ≠ [] ∧ sep ∉ p

theorem Plain.not_mem_flatten (h : Plain sep ps) : sep ∉ ps.flatten := by
  intro hmem
  obtain ⟨p, hp, hsep⟩ := List.mem_flatten.1 hmem
  exact (h p hp).2 hsep

theorem Plain.flatten_ne_nil (h : Plain sep ps) (hps : ps ≠ []) : ps.flatten ≠ [] := by
  obtain ⟨p, l, rfl⟩ := List.exists_cons_of_ne_nil hps
  intro hnil
  exact (h p (by simp)).1 (List.flatten_eq_nil_iff.1 hnil p (by simp))

variable [DecidableEq α]

/-- The parts written with `sep` between them; the empty list has no parts. -/
def cut (sep : α) (l : List α) : List (List α) := if l = [] then [] else l.splitOn sep

/-- What is written with nothing between the parts reads as one part. -/
theorem cut_flatten (h : Plain sep ps) (hps : ps ≠ []) : cut sep ps.flatten = [ps.flatten] := by
  rw [cut, if_neg (h.flatten_ne_nil hps), List.splitOn_eq_singleton h.not_mem_flatten]

theorem cut_intercalate (h : Plain sep ps) : cut sep ([sep].intercalate ps) = ps := by
  unfold cut
  split
  · next hnil =>
    cases ps with
    | nil => rfl
    | cons p l =>
      -- A first part is not empty, and so neither is what is written.
      have hp : p ≠ [] := (h p (by simp)).1
      by_cases hl : l = []
      · subst hl
        rw [List.intercalate_singleton] at hnil
        exact absurd hnil hp
      · rw [List.intercalate_cons_of_ne_nil hl, List.append_assoc] at hnil
        exact absurd (List.append_eq_nil_iff.1 hnil).1 hp
  · next hne =>
    refine List.splitOn_intercalate sep (fun p hp => (h p hp).2) fun hps => hne ?_
    rw [hps]
    rfl

theorem cut_flatten_iff (h : Plain sep ps) : cut sep ps.flatten = ps ↔ ps.length ≤ 1 := by
  constructor
  · intro hcut
    by_cases hps : ps = []
    · simp [hps]
    · rw [cut_flatten h hps] at hcut
      rw [← hcut]
      simp
  · intro hlen
    match ps, hlen with
    | [], _ => rfl
    | [p], _ =>
      rw [cut_flatten h (by simp)]
      simp

/-! ## Parts with a separator after each -/

/-- The parts of a list in which a separator ends each part.  What follows the last separator is a
part if it is not empty. -/
def parts (sep : α) : List α → List (List α)
  | [] => []
  | a :: l =>
    if a = sep then [] :: parts sep l
    else
      match parts sep l with
      | [] => [[a]]
      | p :: ps => (a :: p) :: ps

@[simp] theorem parts_sep (l : List α) : parts sep (sep :: l) = [] :: parts sep l := by
  simp [parts]

/-- The first part ends at the first separator. -/
theorem parts_append_sep {p : List α} (h : sep ∉ p) (l : List α) :
    parts sep (p ++ sep :: l) = p :: parts sep l := by
  induction p with
  | nil => simp
  | cons a p ih =>
    simp only [List.mem_cons, not_or] at h
    simp [parts, Ne.symm h.1, ih h.2]

theorem parts_of_not_mem {p : List α} (h : sep ∉ p) (hp : p ≠ []) : parts sep p = [p] := by
  induction p with
  | nil => exact absurd rfl hp
  | cons a p ih =>
    simp only [List.mem_cons, not_or] at h
    by_cases hnil : p = []
    · simp [parts, Ne.symm h.1, hnil]
    · simp [parts, Ne.symm h.1, ih h.2 hnil]

/-- Parts without a separator are read as they were written. -/
theorem parts_flatMap {ps : List (List α)} (h : ∀ p ∈ ps, sep ∉ p) :
    parts sep (ps.flatMap fun p => p ++ [sep]) = ps := by
  induction ps with
  | nil => rfl
  | cons p ps ih =>
    rw [List.flatMap_cons, List.append_assoc, List.singleton_append, parts_append_sep (h p (by simp))]
    simp [ih fun q hq => h q (by simp [hq])]

/-- A part has no separator in it, and only what the list has. -/
theorem not_mem_of_mem_parts {l p : List α} (h : p ∈ parts sep l) : sep ∉ p ∧ p ⊆ l := by
  induction l generalizing p with
  | nil => simp [parts] at h
  | cons a l ih =>
    unfold parts at h
    split at h
    · rcases List.mem_cons.1 h with rfl | hmem
      · simp
      · exact ⟨(ih hmem).1, List.subset_cons_of_subset a (ih hmem).2⟩
    · next ha =>
      split at h
      · obtain rfl := List.mem_singleton.1 h
        simp [Ne.symm ha]
      · next q qs hparts =>
        rw [hparts] at ih
        rcases List.mem_cons.1 h with rfl | hmem
        · obtain ⟨hnot, hsub⟩ := ih List.mem_cons_self
          refine ⟨?_, List.cons_subset_cons a hsub⟩
          simp [Ne.symm ha, hnot]
        · obtain ⟨hnot, hsub⟩ := ih (List.mem_cons_of_mem q hmem)
          exact ⟨hnot, List.subset_cons_of_subset a hsub⟩

end Pieces
