import PxAccounts.Model.Paths
import PxAccounts.Proof.Messages

/-!
# The end of `mkpath`

`mkpath` climbs from base directory to base directory until one exists.  A relative path that does not
exist is in the end its own base directory.
-/

namespace PxAccounts

open Effect FILE

variable {σ : Type} {sh : Shell} {fs : FileSystem σ} {s : σ} {path full : String}

/-- The recursion of `mkpath` ends. -/
def Terminates (sh : Shell) (fs : FileSystem σ) (path : String) (s : σ) : Prop :=
  ∃ fuel, mkpath sh fs fuel path s ≠ .error .outOfFuel

/-- The absolute path in the `n`-th call, counted from 0, of the recursion of `mkpath`, if all calls
so far climb. -/
def climb (sh : Shell) : ℕ → String → Except Halt String
  | 0, path => abspath sh path
  | n + 1, path => do climb sh n (basedir (← abspath sh path))

/-- A text that the shell leaves as it is. -/
structure PlainPath (sh : Shell) (text : String) : Prop where
  nonempty : text ≠ ""
  nulFree : NulFree text
  plain : ∀ c ∈ text.toList, sh.isMeta c = false

/-- The path itself, or what stands before one of its slashes. -/
def IsBase (q path : String) : Prop :=
  q = path ∨ ∃ rest, path.toList = q.toList ++ '/' :: rest

/-- The path starts at the root. -/
def Absolute (path : String) : Prop := path.toList.head? = some '/'

/-! ## Base directories -/

theorem rfind_append {pre post : List Char} {c : Char} (h : c ∉ post) :
    rfind (pre ++ c :: post) c = some pre.length := by
  have hpost : post.reverse.findIdx? (· == c) = none := by
    refine List.findIdx?_eq_none_iff.2 fun x hx => ?_
    rw [beq_eq_false_iff_ne]
    rintro rfl
    exact h (List.mem_reverse.1 hx)
  rw [rfind, List.reverse_append, List.reverse_cons, List.append_assoc, List.findIdx?_append, hpost]
  simp [List.findIdx?_cons]

theorem rfind_eq_none {l : List Char} {c : Char} (h : c ∉ l) : rfind l c = none := by
  rw [rfind, List.findIdx?_eq_none_iff.2, Option.map_none]
  intro x hx
  rw [beq_eq_false_iff_ne]
  rintro rfl
  exact h (List.mem_reverse.1 hx)

theorem basedir_of_not_mem (h : '/' ∉ path.toList) : basedir path = path := by
  rw [basedir, rfind_eq_none h]

theorem basedir_of_slash {pre post : List Char} (hpath : path.toList = pre ++ '/' :: post)
    (hpost : '/' ∉ post) : basedir path = if pre = [] then "/" else String.ofList pre := by
  rw [basedir, hpath, rfind_append hpost]
  cases pre with
  | nil => rfl
  | cons c pre => simp

/-- A path with a slash is cut at its last one. -/
theorem exists_last_slash {l : List Char} (h : '/' ∈ l) :
    ∃ pre post, l = pre ++ '/' :: post ∧ '/' ∉ post := by
  obtain ⟨post, pre, hrev, hpost⟩ := List.eq_append_cons_of_mem (List.mem_reverse.2 h)
  refine ⟨pre.reverse, post.reverse, ?_, fun hmem => hpost (List.mem_reverse.1 hmem)⟩
  rw [← List.reverse_reverse l, hrev]
  simp

/-! ## The recursion -/

theorem abspath_of_plain (h : PlainPath sh path) : abspath sh path = .ok path := by
  rw [abspath, cStr_of_nulFree h.nulFree, sh.wordexp_plain path h.nonempty h.plain]

theorem mkpath_of_error {e : Halt} (h : abspath sh path = .error e) (fuel : ℕ) :
    mkpath sh fs (fuel + 1) path s = .error e := by
  rw [mkpath, h]
  rfl

theorem mkpath_of_exists (h : abspath sh path = .ok full) (hex : pathExists fs s full = true)
    (fuel : ℕ) : mkpath sh fs (fuel + 1) path s = .ok (true, s) := by
  rw [mkpath, h]
  exact if_pos hex

theorem mkpath_of_missing (h : abspath sh path = .ok full) (hex : ¬pathExists fs s full = true)
    (fuel : ℕ) : mkpath sh fs (fuel + 1) path s = (mkpath sh fs fuel (basedir full) s).map
      fun r => if r.1 then fs.mkdir r.2 (cStr full) else (false, r.2) := by
  rw [mkpath, h]
  refine (if_neg hex).trans ?_
  cases hparent : mkpath sh fs fuel (basedir full) s with
  | error e => rfl
  | ok r =>
    obtain ⟨made, s'⟩ := r
    cases made <;> rfl

theorem mkpath_succ_eq {fuel : ℕ} :
    mkpath sh fs (fuel + 1) path s = .error .outOfFuel ↔ ∃ full, abspath sh path = .ok full ∧
      ¬pathExists fs s full = true ∧ mkpath sh fs fuel (basedir full) s = .error .outOfFuel := by
  cases h : abspath sh path with
  | error e =>
    have hne : e ≠ .outOfFuel := by
      rintro rfl
      unfold abspath at h
      split at h <;> cases h
    rw [mkpath_of_error h]
    simpa using hne
  | ok full =>
    by_cases hex : pathExists fs s full = true
    · rw [mkpath_of_exists h hex]
      simp [hex]
    · rw [mkpath_of_missing h hex]
      cases hparent : mkpath sh fs fuel (basedir full) s <;> simp [hex, hparent, Except.map]

theorem terminates_iff : Terminates sh fs path s ↔ ∀ full, abspath sh path = .ok full →
    pathExists fs s full = true ∨ Terminates sh fs (basedir full) s := by
  constructor
  · rintro ⟨fuel, hfuel⟩ full hfull
    cases fuel with
    | zero => exact absurd rfl hfuel
    | succ fuel =>
      by_contra hnot
      rw [not_or] at hnot
      refine hfuel (mkpath_succ_eq.2 ⟨full, hfull, hnot.1, ?_⟩)
      by_contra hends
      exact hnot.2 ⟨fuel, hends⟩
  · intro h
    cases hpath : abspath sh path with
    | error e =>
      refine ⟨1, fun hfuel => ?_⟩
      obtain ⟨full, hfull, -⟩ := mkpath_succ_eq.1 hfuel
      exact absurd (hpath.symm.trans hfull) (by simp)
    | ok full =>
      obtain hex | ⟨fuel, hfuel⟩ := h full hpath
      · refine ⟨1, ?_⟩
        rw [mkpath_of_exists hpath hex]
        simp
      · refine ⟨fuel + 1, fun hsucc => ?_⟩
        obtain ⟨full', hfull', -, hparent⟩ := mkpath_succ_eq.1 hsucc
        cases hpath.symm.trans hfull'
        exact hfuel hparent

/-- The recursion ends if and only if it reaches a path that exists, or one that has no words. -/
theorem terminates_iff_climb : Terminates sh fs path s ↔
    ∃ n, ∀ full, climb sh n path = .ok full → pathExists fs s full = true := by
  constructor
  · rintro ⟨fuel, hfuel⟩
    induction fuel generalizing path with
    | zero => exact absurd rfl hfuel
    | succ fuel ih =>
      by_cases hfirst : ∀ full, climb sh 0 path = .ok full → pathExists fs s full = true
      · exact ⟨0, hfirst⟩
      · push Not at hfirst
        obtain ⟨full, hfull, hex⟩ := hfirst
        have hparent : mkpath sh fs fuel (basedir full) s ≠ .error .outOfFuel :=
          fun hparent => hfuel (mkpath_succ_eq.2 ⟨full, hfull, hex, hparent⟩)
        obtain ⟨n, hn⟩ := ih hparent
        refine ⟨n + 1, fun full' hfull' => hn full' ?_⟩
        rw [climb, show abspath sh path = .ok full from hfull] at hfull'
        exact hfull'
  · rintro ⟨n, hn⟩
    induction n generalizing path with
    | zero => exact terminates_iff.2 fun full hfull => .inl (hn full hfull)
    | succ n ih =>
      refine terminates_iff.2 fun full hfull => .inr (ih fun full' hfull' => hn full' ?_)
      rw [climb, hfull]
      exact hfull'

/-! ## Plain paths -/

theorem PlainPath.of_subset (h : PlainPath sh path) {l : List Char} (hne : l ≠ [])
    (hsub : ∀ c ∈ l, c ∈ path.toList) : PlainPath sh (String.ofList l) where
  nonempty hnil := hne (by simpa using congrArg String.toList hnil)
  nulFree hmem := h.nulFree (hsub _ (by simpa using hmem))
  plain c hc := h.plain c (hsub c (by simpa using hc))

theorem PlainPath.basedir (h : PlainPath sh path) : PlainPath sh (basedir path) := by
  by_cases hslash : '/' ∈ path.toList
  · obtain ⟨pre, post, hpath, hpost⟩ := exists_last_slash hslash
    rw [basedir_of_slash hpath hpost]
    split
    · exact h.of_subset (l := ['/']) (by simp) (by simpa using hslash)
    · next hne => exact h.of_subset hne fun c hc => by rw [hpath]; simp [hc]
  · rwa [basedir_of_not_mem hslash]

theorem PlainPath.terminates_iff (h : PlainPath sh path) :
    Terminates sh fs path s ↔
      pathExists fs s path = true ∨ Terminates sh fs (FILE.basedir path) s := by
  rw [PxAccounts.terminates_iff, abspath_of_plain h]
  simp

theorem ends_of_exists (h : PlainPath sh path) (hex : pathExists fs s path = true) :
    Terminates sh fs path s := h.terminates_iff.2 (.inl hex)

/-- An absolute path has the root among its base directories. -/
theorem ends_of_absolute (hroot : fs.stat s "/" = true) (h : PlainPath sh path)
    (habs : Absolute path) : Terminates sh fs path s := by
  induction hlen : path.toList.length using Nat.strong_induction_on generalizing path with
  | _ n ih =>
    obtain ⟨pre, post, hpath, hpost⟩ := exists_last_slash (List.mem_of_head? habs)
    have hbase := h.basedir
    have hdir := basedir_of_slash hpath hpost
    refine h.terminates_iff.2 (.inr ?_)
    by_cases hpre : pre = []
    · rw [if_pos hpre] at hdir
      rw [hdir] at hbase ⊢
      exact ends_of_exists hbase hroot
    · rw [if_neg hpre] at hdir
      rw [hdir] at hbase ⊢
      refine ih pre.length ?_ hbase ?_ (by simp)
      · rw [← hlen, hpath]
        simp
      · rw [Absolute, hpath, List.head?_append_of_ne_nil _ hpre] at habs
        simpa [Absolute] using habs

/-- A path without a slash is its own base directory. -/
theorem ends_iff_of_not_mem (h : PlainPath sh path) (hslash : '/' ∉ path.toList) :
    Terminates sh fs path s ↔ pathExists fs s path = true := by
  refine ⟨fun ⟨fuel, hfuel⟩ => ?_, ends_of_exists h⟩
  by_contra hex
  refine hfuel ?_
  clear hfuel
  induction fuel with
  | zero => rfl
  | succ fuel ih =>
    refine mkpath_succ_eq.2 ⟨path, abspath_of_plain h, hex, ?_⟩
    rw [basedir_of_not_mem hslash]
    exact ih

/-- What stands before a slash of a path is the base directory or stands before a slash of it. -/
theorem isBase_iff {pre post : List Char} (hpath : path.toList = pre ++ '/' :: post)
    (hpost : '/' ∉ post) {q : String} :
    IsBase q path ↔ q = path ∨ IsBase q (String.ofList pre) := by
  unfold IsBase
  rw [String.toList_ofList, hpath]
  refine or_congr_right ?_
  constructor
  · rintro ⟨rest, hrest⟩
    obtain ⟨l, hq, hl⟩ | ⟨l, hpre, hl⟩ := List.append_eq_append_iff.1 hrest
    · cases l with
      | nil => exact .inl (by rw [← String.ofList_toList (s := q), hq, List.append_nil])
      | cons c l =>
        rw [List.cons_append, List.cons.injEq] at hl
        exact absurd (by rw [hl.2]; simp) hpost
    · cases l with
      | nil => exact .inl (by rw [hpre, List.append_nil, String.ofList_toList])
      | cons c l =>
        rw [List.cons_append, List.cons.injEq] at hl
        exact .inr ⟨l, by rw [hpre, hl.1]⟩
  · rintro (rfl | ⟨rest, hrest⟩)
    · exact ⟨post, by simp⟩
    · exact ⟨rest ++ '/' :: post, by rw [hrest, List.append_assoc, List.cons_append]⟩

/-- A relative path is left by its base directories, of which one has to exist. -/
theorem ends_of_relative (h : PlainPath sh path) (hrel : ¬Absolute path) :
    Terminates sh fs path s ↔ ∃ q, IsBase q path ∧ pathExists fs s q = true := by
  induction hlen : path.toList.length using Nat.strong_induction_on generalizing path with
  | _ n ih =>
    by_cases hslash : '/' ∈ path.toList
    · obtain ⟨pre, post, hpath, hpost⟩ := exists_last_slash hslash
      have hpre : pre ≠ [] := by
        rintro rfl
        exact hrel (by rw [Absolute, hpath]; rfl)
      have hdir := basedir_of_slash hpath hpost
      rw [if_neg hpre] at hdir
      have hbase := h.basedir
      rw [hdir] at hbase
      have hparent := ih pre.length (by rw [← hlen, hpath]; simp) hbase (by
        rw [Absolute, hpath, List.head?_append_of_ne_nil _ hpre] at hrel
        simpa [Absolute] using hrel) (by simp)
      rw [h.terminates_iff, hdir, hparent]
      simp only [isBase_iff hpath hpost]
      constructor
      · rintro (hex | ⟨q, hq, hex⟩)
        · exact ⟨path, .inl rfl, hex⟩
        · exact ⟨q, .inr hq, hex⟩
      · rintro ⟨q, rfl | hq, hex⟩
        · exact .inl hex
        · exact .inr ⟨q, hq, hex⟩
    · rw [ends_iff_of_not_mem h hslash]
      refine ⟨fun hex => ⟨path, .inl rfl, hex⟩, ?_⟩
      rintro ⟨q, rfl | ⟨rest, hrest⟩, hex⟩
      · exact hex
      · exact absurd (by rw [hrest]; simp) hslash

/-- The recursion of `mkpath` ends if and only if it reaches a path that exists (or that the shell
makes nothing of).  For a path that expands to a plain one, that is: the expansion is absolute, or
it or what stands before one of its slashes exists. -/
theorem mkpath_ends_iff (sh : Shell) (fs : FileSystem σ) (s : σ) (hroot : fs.stat s "/" = true)
    (path : String) :
    (Terminates sh fs path s ↔
      ∃ n, ∀ full, climb sh n path = .ok full → pathExists fs s full = true) ∧
      ∀ full, abspath sh path = .ok full → PlainPath sh full →
        (Terminates sh fs path s ↔
          Absolute full ∨ ∃ q, IsBase q full ∧ pathExists fs s q = true) := by
  refine ⟨terminates_iff_climb, fun full hfull hplain => ?_⟩
  have hsame : Terminates sh fs path s ↔ Terminates sh fs full s := by
    rw [terminates_iff, hplain.terminates_iff]
    simp [hfull]
  rw [hsame]
  by_cases habs : Absolute full
  · exact iff_of_true (ends_of_absolute hroot hplain habs) (.inl habs)
  · rw [ends_of_relative hplain habs]
    simp [habs]

/-- Nothing but the root exists, and nothing can be made. -/
def rootOnly : FileSystem Unit where
  stat _ path := path == "/"
  mkdir _ _ := (false, ())

/-- Where nothing can be made either, the recursion for an absolute path ends at the root. -/
theorem mkpath_ends_iff_rootOnly : Terminates plainShell rootOnly "/accounts/user" () := by
  have hplain : PlainPath plainShell "/accounts/user" :=
    ⟨by decide, by unfold NulFree; decide, by simp [plainShell]⟩
  have hends := (mkpath_ends_iff plainShell rootOnly () rfl "/accounts/user").2 _
    (abspath_of_plain hplain) hplain
  exact hends.2 (.inl rfl)

/-- The directory `accounts` in the working directory, which does not exist, is never reached. -/
theorem relative_path_never_ends : ¬∀ (sh : Shell) (fs : FileSystem Unit) (path : String),
    fs.stat () "/" = true → Terminates sh fs path () := by
  intro h
  have hplain : PlainPath plainShell "accounts" :=
    ⟨by decide, by unfold NulFree; decide, by simp [plainShell]⟩
  exact absurd ((ends_iff_of_not_mem hplain (by decide)).1 (h plainShell rootOnly "accounts" rfl))
    (by decide)

end PxAccounts
