import Mathlib

/-!
# Directory trees

A tree of directories and files, the walk along the components of a path, and the making of
directories.  Where something stands in the tree is the list of the names that lead to it.
-/

namespace DirectoryTree

/-- One component of a path: nothing (two slashes in a row), `.`, `..` or a name. -/
inductive Step (α : Type)
  | skip
  | here
  | up
  | down (name : α)
deriving DecidableEq

inductive Kind
  | dir
  | file
deriving DecidableEq

/-- What stands where; whatever stands somewhere stands in a directory. -/
structure DirTree (α : Type) where
  kind : List α → Option Kind
  root : kind [] = some .dir
  parent : ∀ p a, (kind (p ++ [a])).isSome → kind p = some .dir

variable {α : Type}

namespace DirTree

variable {t u : DirTree α} {p q names : List α} {a : α} {l l' : List (Step α)}

theorem kind_eq_none (h : t.kind p ≠ some .dir) (l : List α) (hl : l ≠ []) :
    t.kind (p ++ l) = none := by
  induction l using List.reverseRecOn with
  | nil => exact absurd rfl hl
  | append_singleton l a ih =>
    by_contra hne
    have hdir := t.parent (p ++ l) a (by
      rw [List.append_assoc]
      exact Option.isSome_iff_ne_none.2 hne)
    by_cases hl' : l = []
    · rw [hl', List.append_nil] at hdir
      exact h hdir
    · rw [ih hl'] at hdir
      exact absurd hdir (by simp)

/-! ## Walking -/

/-- Where the components lead to, starting at `p`. -/
def walk (t : DirTree α) (p : List α) : List (Step α) → Option (List α)
  | [] => some p
  | .skip :: l => t.walk p l
  | .here :: l => if t.kind p = some .dir then t.walk p l else none
  | .up :: l => if t.kind p = some .dir then t.walk p.dropLast l else none
  | .down a :: l => if (t.kind (p ++ [a])).isSome then t.walk (p ++ [a]) l else none

theorem walk_append : t.walk p (l ++ l') = (t.walk p l).bind fun q => t.walk q l' := by
  induction l generalizing p with
  | nil => rfl
  | cons c l ih =>
    cases c with
    | skip => exact ih
    | here => simp only [List.cons_append, walk]; split <;> [exact ih; rfl]
    | up => simp only [List.cons_append, walk]; split <;> [exact ih; rfl]
    | down a => simp only [List.cons_append, walk]; split <;> [exact ih; rfl]

/-- A walk that leads nowhere stops at some component. -/
theorem exists_stop (h : t.walk p l = none) :
    ∃ pre c rest d, l = pre ++ c :: rest ∧ t.walk p pre = some d ∧ t.walk d [c] = none := by
  induction l generalizing p with
  | nil => exact absurd h (by simp [walk])
  | cons c l ih =>
    rw [← List.singleton_append, walk_append] at h
    cases hc : t.walk p [c] with
    | none => exact ⟨[], c, l, p, rfl, rfl, hc⟩
    | some q =>
      rw [hc, Option.bind_some] at h
      obtain ⟨pre, c', rest, d, rfl, hpre, hstop⟩ := ih h
      refine ⟨c :: pre, c', rest, d, rfl, ?_, hstop⟩
      rw [← List.singleton_append, walk_append, hc, Option.bind_some, hpre]

theorem eq_of_walk_names (h : t.walk p (names.map .down) = some q) : q = p ++ names := by
  induction names generalizing p with
  | nil =>
    cases h
    rw [List.append_nil]
  | cons a names ih =>
    simp only [List.map_cons, walk] at h
    split at h
    · rw [ih h, List.append_assoc, List.singleton_append]
    · exact absurd h (by simp)

/-- The names that a list of components starts with. -/
theorem exists_names (l : List (Step α)) :
    ∃ (names : List α) (rest : List (Step α)), l = names.map .down ++ rest ∧
      ∀ c, rest.head? = some c → ∀ a, c ≠ .down a := by
  induction l with
  | nil => exact ⟨[], [], rfl, fun c hc => absurd hc (by simp)⟩
  | cons c l ih =>
    by_cases hc : ∃ a, c = .down a
    · obtain ⟨a, rfl⟩ := hc
      obtain ⟨names, rest, rfl, hrest⟩ := ih
      exact ⟨a :: names, rest, rfl, hrest⟩
    · refine ⟨[], c :: l, rfl, fun c' hc' a ha => hc ⟨a, ?_⟩⟩
      rw [← ha]
      exact Option.some.inj hc'

/-- The second tree has whatever the first one has. -/
def Le (t u : DirTree α) : Prop := ∀ p k, t.kind p = some k → u.kind p = some k

theorem Le.walk (h : t.Le u) (hw : t.walk p l = some q) : u.walk p l = some q := by
  induction l generalizing p with
  | nil => exact hw
  | cons c l ih =>
    cases c with
    | skip => exact ih hw
    | here =>
      simp only [DirTree.walk] at hw ⊢
      split at hw
      · next hdir => rw [if_pos (h _ _ hdir)]; exact ih hw
      · exact absurd hw (by simp)
    | up =>
      simp only [DirTree.walk] at hw ⊢
      split at hw
      · next hdir => rw [if_pos (h _ _ hdir)]; exact ih hw
      · exact absurd hw (by simp)
    | down a =>
      simp only [DirTree.walk] at hw ⊢
      split at hw
      · next hsome =>
        obtain ⟨k, hk⟩ := Option.isSome_iff_exists.1 hsome
        rw [if_pos (by rw [h _ _ hk]; rfl)]
        exact ih hw
      · exact absurd hw (by simp)

/-- The names lead down a chain of directories that is not there yet. -/
def Missing (t : DirTree α) (p names : List α) : Prop :=
  t.kind p = some .dir ∧ ∀ a, names.head? = some a → t.kind (p ++ [a]) = none

theorem Missing.of_append {names' : List α} (h : t.Missing p (names ++ names')) :
    t.Missing p names := by
  refine ⟨h.1, fun a ha => h.2 a ?_⟩
  rw [List.head?_append, ha]
  rfl

/-- The chain is not there before. -/
theorem Missing.walk_eq_none (h : t.Missing p names) (hne : names ≠ []) (l : List (Step α)) :
    t.walk p (names.map .down ++ l) = none := by
  cases names with
  | nil => exact absurd rfl hne
  | cons a names => simp [walk, h.2 a rfl]

/-! ## Making directories -/

variable [DecidableEq α]

/-- A name can be added at `p`. -/
def Free (t : DirTree α) (p : List α) (a : α) : Prop :=
  t.kind p = some .dir ∧ t.kind (p ++ [a]) = none

instance (t : DirTree α) (p : List α) (a : α) : Decidable (t.Free p a) :=
  inferInstanceAs (Decidable (_ ∧ _))

/-- The directory `a` is made in `p`. -/
def make (t : DirTree α) (p : List α) (a : α) (h : t.Free p a) : DirTree α where
  kind := Function.update t.kind (p ++ [a]) (some .dir)
  root := by rw [Function.update_of_ne (by simp), t.root]
  parent q b hq := by
    have hp : t.kind q = some .dir := by
      by_cases heq : q ++ [b] = p ++ [a]
      · rw [(List.append_inj' heq rfl).1]
        exact h.1
      · rw [Function.update_of_ne heq] at hq
        exact t.parent q b hq
    by_cases heq : q = p ++ [a]
    · rw [heq, Function.update_self]
    · rw [Function.update_of_ne heq, hp]

theorem kind_make (h : t.Free p a) :
    (t.make p a h).kind = Function.update t.kind (p ++ [a]) (some .dir) := rfl

theorem le_make (h : t.Free p a) : t.Le (t.make p a h) := by
  intro q k hq
  rw [kind_make, Function.update_of_ne, hq]
  rintro rfl
  exact absurd (h.2.symm.trans hq) (by simp)

/-- `mkdir`: the last component has to be a name that is free in the directory the others lead to,
slashes at the end aside. -/
def mkdir (t : DirTree α) (p : List α) (l : List (Step α)) : Bool × DirTree α :=
  match l.reverse.dropWhile (· = .skip) with
  | .down a :: rev =>
    match t.walk p rev.reverse with
    | some q => if h : t.Free q a then (true, t.make q a h) else (false, t)
    | none => (false, t)
  | _ => (false, t)

theorem mkdir_skip : t.mkdir p (l ++ [.skip]) = t.mkdir p l := by
  simp [mkdir]

theorem mkdir_down (a : α) : t.mkdir p (l ++ [.down a]) =
    match t.walk p l with
    | some q => if h : t.Free q a then (true, t.make q a h) else (false, t)
    | none => (false, t) := by
  simp [mkdir]

/-- What is there is not made. -/
theorem mkdir_of_walk (h : (t.walk p l).isSome) : t.mkdir p l = (false, t) := by
  induction l using List.reverseRecOn with
  | nil => rfl
  | append_singleton l c ih =>
    obtain ⟨r, hr⟩ := Option.isSome_iff_exists.1 h
    rw [walk_append] at hr
    obtain ⟨q, hq, hc⟩ := Option.bind_eq_some_iff.1 hr
    cases c with
    | skip =>
      rw [mkdir_skip]
      exact ih (by rw [hq]; rfl)
    | here => simp [mkdir]
    | up => simp [mkdir]
    | down a =>
      rw [mkdir_down, hq]
      dsimp only
      rw [dif_neg]
      intro hfree
      simp [walk, hfree.2] at hc

/-! ## Chains of directories -/

/-- The directories `names` made below `p`, each in the one before. -/
def extend (t : DirTree α) (p names : List α) : DirTree α :=
  (names.foldl (fun s a => (if h : s.1.Free s.2 a then s.1.make s.2 a h else s.1, s.2 ++ [a]))
    (t, p)).1

theorem foldl_extend (t : DirTree α) (p names : List α) :
    (names.foldl (fun s a => (if h : s.1.Free s.2 a then s.1.make s.2 a h else s.1, s.2 ++ [a]))
      (t, p)) = (t.extend p names, p ++ names) := by
  refine Prod.ext rfl ?_
  induction names using List.reverseRecOn with
  | nil => simp
  | append_singleton names a ih =>
    rw [List.foldl_append, List.foldl_cons, List.foldl_nil]
    dsimp only
    rw [ih, List.append_assoc]

theorem extend_concat (a : α) : t.extend p (names ++ [a]) =
    if h : (t.extend p names).Free (p ++ names) a then (t.extend p names).make (p ++ names) a h
    else t.extend p names := by
  rw [extend, List.foldl_append, foldl_extend t p names, List.foldl_cons, List.foldl_nil]

theorem le_extend : t.Le (t.extend p names) := by
  induction names using List.reverseRecOn with
  | nil => exact fun _ _ h => h
  | append_singleton names a ih =>
    rw [extend_concat]
    split
    · next h => exact fun q k hq => le_make h q k (ih q k hq)
    · exact ih

/-- What a chain of directories adds. -/
theorem kind_extend (q : List α) : (t.extend p names).kind q = t.kind q ∨
    t.kind q = none ∧ (t.extend p names).kind q = some .dir ∧
      ∃ r, r ≠ [] ∧ r <+: names ∧ q = p ++ r := by
  induction names using List.reverseRecOn with
  | nil => exact .inl rfl
  | append_singleton names a ih =>
    have hold : (t.extend p names).kind q = t.kind q ∨ t.kind q = none ∧
        (t.extend p names).kind q = some .dir ∧ ∃ r, r ≠ [] ∧ r <+: names ++ [a] ∧ q = p ++ r := by
      refine ih.imp_right ?_
      rintro ⟨hnone, hdir, r, hr, hpre, rfl⟩
      exact ⟨hnone, hdir, r, hr, hpre.trans (List.prefix_append _ _), rfl⟩
    rw [extend_concat]
    split
    · next hfree =>
      by_cases hq : q = p ++ names ++ [a]
      · right
        refine ⟨?_, by rw [hq, kind_make, Function.update_self], names ++ [a], by simp,
          List.prefix_rfl, by rw [hq, List.append_assoc]⟩
        by_contra hne
        obtain ⟨k, hk⟩ := Option.ne_none_iff_exists'.1 hne
        rw [hq] at hk
        exact absurd (hfree.2.symm.trans (le_extend _ _ hk)) (by simp)
      · rw [kind_make, Function.update_of_ne hq]
        exact hold
    · exact hold

/-- Any name is free at the end of the chain. -/
theorem Missing.free (h : t.Missing p (names ++ [a])) :
    (t.extend p names).Free (p ++ names) a := by
  induction names using List.reverseRecOn generalizing a with
  | nil => exact ⟨by simpa [extend] using h.1, by simpa [extend] using h.2 a rfl⟩
  | append_singleton names b ih =>
    have hb : t.Missing p (names ++ [b]) := by
      refine ⟨h.1, fun c hc => h.2 c ?_⟩
      rw [List.head?_append, hc]
      rfl
    have hfree := ih hb
    rw [extend_concat, dif_pos hfree]
    constructor
    · rw [kind_make, ← List.append_assoc, Function.update_self]
    · -- Nothing can stand below what is not there.
      rw [kind_make, Function.update_of_ne (by simp), ← List.append_assoc]
      refine kind_eq_none ?_ [a] (by simp)
      rw [hfree.2]
      simp

/-- The chain is there once it is made. -/
theorem Missing.walk_extend (h : t.Missing p names) :
    (t.extend p names).walk p (names.map .down) = some (p ++ names) := by
  induction names using List.reverseRecOn with
  | nil => simp [walk]
  | append_singleton names a ih =>
    have hfree := h.free
    rw [extend_concat, dif_pos hfree, List.map_append, walk_append,
      (le_make hfree).walk (ih h.of_append)]
    simp [walk, kind_make]

end DirTree

end DirectoryTree
