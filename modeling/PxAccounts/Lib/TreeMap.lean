import Mathlib

/-!
# Ordered maps

What a loop over the entries of an `ExtTreeMap` builds when it inserts every entry it visits.
-/

namespace TreeMap

open Std

variable {α β : Type} {cmp : α → α → Ordering} [TransCmp cmp]

/-- Insert the entries of a list in turn. -/
def insertAll (m : ExtTreeMap α β cmp) (l : List (α × β)) : ExtTreeMap α β cmp :=
  l.foldl (fun m e => m.insert e.1 e.2) m

@[simp] theorem insertAll_nil (m : ExtTreeMap α β cmp) : insertAll m [] = m := rfl

@[simp] theorem insertAll_cons (m : ExtTreeMap α β cmp) (e : α × β) (l : List (α × β)) :
    insertAll m (e :: l) = insertAll (m.insert e.1 e.2) l := rfl

theorem insertAll_append (m : ExtTreeMap α β cmp) (l₁ l₂ : List (α × β)) :
    insertAll m (l₁ ++ l₂) = insertAll (insertAll m l₁) l₂ := List.foldl_append

theorem nodup_keys_toList (m : ExtTreeMap α β cmp) : (m.toList.map Prod.fst).Nodup := by
  rw [ExtTreeMap.map_fst_toList_eq_keys]
  exact m.nodup_keys

variable [LawfulEqCmp cmp]

theorem getElem?_insert_of_ne {m : ExtTreeMap α β cmp} {k a : α} {v : β} (h : k ≠ a) :
    (m.insert k v)[a]? = m[a]? := by
  rw [ExtTreeMap.getElem?_insert, if_neg]
  rwa [LawfulEqCmp.compare_eq_iff_eq]

theorem insert_of_getElem? {m : ExtTreeMap α β cmp} {k : α} {v : β} (h : m[k]? = some v) :
    m.insert k v = m := by
  refine ExtTreeMap.ext_getElem? fun a => ?_
  by_cases ha : k = a
  · subst ha
    rw [ExtTreeMap.getElem?_insert_self, h]
  · rw [getElem?_insert_of_ne ha]

theorem getElem?_erase_of_ne {m : ExtTreeMap α β cmp} {k a : α} (h : k ≠ a) :
    (m.erase k)[a]? = m[a]? := by
  rw [ExtTreeMap.getElem?_erase, if_neg]
  rwa [LawfulEqCmp.compare_eq_iff_eq]

theorem getElem?_alter_of_ne {m : ExtTreeMap α β cmp} {k a : α} {f : Option β → Option β}
    (h : k ≠ a) : (m.alter k f)[a]? = m[a]? := by
  rw [ExtTreeMap.getElem?_alter, if_neg]
  rwa [LawfulEqCmp.compare_eq_iff_eq]

theorem insertAll_getElem?_of_not_mem {l : List (α × β)} {m : ExtTreeMap α β cmp} {k : α}
    (h : k ∉ l.map Prod.fst) : (insertAll m l)[k]? = m[k]? := by
  induction l generalizing m with
  | nil => rfl
  | cons e l ih =>
    simp only [List.map_cons, List.mem_cons, not_or] at h
    rw [insertAll_cons, ih h.2, getElem?_insert_of_ne fun he => h.1 he.symm]

/-- The last entry of a key decides its value. -/
theorem insertAll_getElem?_split {l₁ l₂ : List (α × β)} {m : ExtTreeMap α β cmp} {k : α} {v : β}
    (h : k ∉ l₂.map Prod.fst) : (insertAll m (l₁ ++ (k, v) :: l₂))[k]? = some v := by
  rw [insertAll_append, insertAll_cons, insertAll_getElem?_of_not_mem h]
  simp

theorem insertAll_getElem?_of_mem {l : List (α × β)} {m : ExtTreeMap α β cmp} {k : α} {v : β}
    (hl : (l.map Prod.fst).Nodup) (h : (k, v) ∈ l) : (insertAll m l)[k]? = some v := by
  obtain ⟨l₁, l₂, rfl⟩ := List.append_of_mem h
  refine insertAll_getElem?_split ?_
  simp only [List.map_append, List.map_cons, List.nodup_append, List.nodup_cons] at hl
  exact hl.2.1.1

theorem mem_of_mem_toList {m : ExtTreeMap α β cmp} {e : α × β} (h : e ∈ m.toList) : e.1 ∈ m := by
  rw [← ExtTreeMap.mem_keys, ← ExtTreeMap.map_fst_toList_eq_keys]
  exact List.mem_map_of_mem h

/-- A map is rebuilt from its entries. -/
@[simp] theorem insertAll_toList (m : ExtTreeMap α β cmp) : insertAll ∅ m.toList = m := by
  refine ExtTreeMap.ext_getElem? fun k => ?_
  by_cases hk : k ∈ m
  · have hm : (k, m[k]) ∈ m.toList := by
      rw [ExtTreeMap.mem_toList_iff_getElem?_eq_some, ExtTreeMap.getElem?_eq_some_getElem hk]
    rw [insertAll_getElem?_of_mem (nodup_keys_toList m) hm, ExtTreeMap.getElem?_eq_some_getElem hk]
  · rw [insertAll_getElem?_of_not_mem, ExtTreeMap.getElem?_empty, ExtTreeMap.getElem?_eq_none hk]
    rwa [ExtTreeMap.map_fst_toList_eq_keys, ExtTreeMap.mem_keys]

theorem insertAll_toList_getElem? (m t : ExtTreeMap α β cmp) (k : α) :
    (insertAll m t.toList)[k]? = t[k]?.or m[k]? := by
  cases hk : t[k]? with
  | none =>
    have hnot : k ∉ t := fun hmem => by
      rw [ExtTreeMap.mem_iff_isSome_getElem?, hk] at hmem
      cases hmem
    rw [insertAll_getElem?_of_not_mem, Option.none_or]
    rwa [ExtTreeMap.map_fst_toList_eq_keys, ExtTreeMap.mem_keys]
  | some v =>
    rw [insertAll_getElem?_of_mem (nodup_keys_toList t)
      (ExtTreeMap.mem_toList_iff_getElem?_eq_some.2 hk), Option.some_or]

/-- The entries of a map with one key. -/
theorem toList_insert_empty (k : α) (v : β) :
    ((∅ : ExtTreeMap α β cmp).insert k v).toList = [(k, v)] := by
  have hlen : ((∅ : ExtTreeMap α β cmp).insert k v).toList.length = 1 := by
    rw [ExtTreeMap.length_toList, ExtTreeMap.size_insert]
    simp
  obtain ⟨e, he⟩ := List.length_eq_one_iff.1 hlen
  have hmem : (k, v) ∈ ((∅ : ExtTreeMap α β cmp).insert k v).toList :=
    ExtTreeMap.mem_toList_iff_getElem?_eq_some.2 ExtTreeMap.getElem?_insert_self
  rw [he, List.mem_singleton] at hmem
  rw [he, hmem]

theorem forall_mem_toList {m : ExtTreeMap α β cmp} {P : α × β → Prop} :
    (∀ e ∈ m.toList, P e) ↔ ∀ (k : α) (v : β), m[k]? = some v → P (k, v) := by
  constructor
  · exact fun h k v hget => h _ (ExtTreeMap.mem_toList_iff_getElem?_eq_some.2 hget)
  · exact fun h e he => h _ _ (ExtTreeMap.mem_toList_iff_getElem?_eq_some.1 he)

/-- Looking an entry up in the list of entries. -/
theorem lookup_toList [BEq α] [LawfulBEq α] (m : ExtTreeMap α β cmp) (k : α) :
    m.toList.lookup k = m[k]? := by
  have hlookup : ∀ l : List (α × β), (l.map Prod.fst).Nodup → ∀ v, l.lookup k = some v ↔
      (k, v) ∈ l := by
    intro l
    induction l with
    | nil => simp
    | cons e l ih =>
      intro hl v
      simp only [List.map_cons, List.nodup_cons] at hl
      by_cases hk : k = e.1
      · subst hk
        rw [List.lookup_cons_self, Option.some.injEq, List.mem_cons]
        constructor
        · rintro rfl
          exact .inl rfl
        · rintro (h | h)
          · rw [← h]
          · exact absurd (List.mem_map_of_mem h) hl.1
      · rw [List.lookup_cons, beq_eq_false_iff_ne.2 hk, List.mem_cons, ← ih hl.2 v]
        refine (or_iff_right ?_).symm
        rintro rfl
        exact hk rfl
  refine Option.ext fun v => ?_
  rw [hlookup _ (nodup_keys_toList m), ExtTreeMap.mem_toList_iff_getElem?_eq_some]

theorem map_insert {γ : Type} (f : α → β → γ) (m : ExtTreeMap α β cmp) (k : α) (v : β) :
    (m.insert k v).map f = (m.map f).insert k (f k v) := by
  refine ExtTreeMap.ext_getElem? fun a => ?_
  rw [ExtTreeMap.getElem?_map, ExtTreeMap.getElem?_insert, ExtTreeMap.getElem?_insert,
    ExtTreeMap.getElem?_map]
  split
  · next hka => rw [Option.map_some, LawfulEqCmp.eq_of_compare hka]
  · rfl

/-- Insert the entries of a list whose keys are missing. -/
def insertMissing (m : ExtTreeMap α β cmp) (l : List (α × β)) : ExtTreeMap α β cmp :=
  l.foldl (fun m e => if e.1 ∈ m then m else m.insert e.1 e.2) m

omit [LawfulEqCmp cmp] in
theorem insertMissing_cons (m : ExtTreeMap α β cmp) (e : α × β) (l : List (α × β)) :
    insertMissing m (e :: l) = insertMissing (if e.1 ∈ m then m else m.insert e.1 e.2) l := rfl

/-- The entries of the map win over those of the list. -/
theorem getElem?_insertMissing [BEq α] [LawfulBEq α] (m : ExtTreeMap α β cmp)
    (l : List (α × β)) (k : α) : (insertMissing m l)[k]? = m[k]?.or (l.lookup k) := by
  induction l generalizing m with
  | nil => exact Option.or_none.symm
  | cons e l ih =>
    rw [insertMissing_cons, ih]
    by_cases hk : k = e.1
    · subst hk
      rw [List.lookup_cons_self]
      by_cases hmem : e.1 ∈ m
      · obtain ⟨v, hv⟩ := Option.isSome_iff_exists.1 (ExtTreeMap.mem_iff_isSome_getElem?.1 hmem)
        rw [if_pos hmem, hv, Option.some_or, Option.some_or]
      · rw [if_neg hmem, ExtTreeMap.getElem?_insert_self, ExtTreeMap.getElem?_eq_none hmem,
          Option.some_or, Option.none_or]
    · have hother : (if e.1 ∈ m then m else m.insert e.1 e.2)[k]? = m[k]? := by
        split
        · rfl
        · exact getElem?_insert_of_ne (Ne.symm hk)
      have hlookup : (e :: l).lookup k = l.lookup k := by
        rw [List.lookup_cons, beq_false_of_ne hk]
      rw [hother, hlookup]

/-- The union of two maps that keeps the entries of the first. -/
theorem getElem?_insertMissing_toList [BEq α] [LawfulBEq α] (m t : ExtTreeMap α β cmp) (k : α) :
    (insertMissing m t.toList)[k]? = m[k]?.or t[k]? := by
  rw [getElem?_insertMissing, lookup_toList]

end TreeMap
