import PxAccounts.Proof.PathEnds

/-!
# What `mkpath` reports

`mkpath` makes the missing directories of a path one after the other, and stops at the first component
that is no name.
-/

namespace PxAccounts

open DirectoryTree FILE

variable {sh : Shell} {cwd : List String} {t u : DirTree String} {path : String}
  {d names : List String} {l l' pre : List (Step String)} {c : Step String}

/-! ## Components -/

/-- `mkpath` along the components, the last one first. -/
def makeAllRev (t : DirTree String) : List (Step String) → Bool × DirTree String
  | [] => (true, t)
  | c :: rev =>
    if (t.walk [] (c :: rev).reverse).isSome then (true, t)
    else match makeAllRev t rev with
      | (true, u) => u.mkdir [] (c :: rev).reverse
      | (false, u) => (false, u)

/-- `mkpath` along the components. -/
def makeAll (t : DirTree String) (l : List (Step String)) : Bool × DirTree String :=
  makeAllRev t l.reverse

theorem makeAll_concat : makeAll t (l ++ [c]) =
    if (t.walk [] (l ++ [c])).isSome then (true, t)
    else match makeAll t l with
      | (true, u) => u.mkdir [] (l ++ [c])
      | (false, u) => (false, u) := by
  rw [makeAll, List.reverse_append, List.reverse_singleton, List.singleton_append, makeAllRev,
    List.reverse_cons, List.reverse_reverse, makeAll]

theorem makeAll_of_walk (h : (t.walk [] l).isSome) : makeAll t l = (true, t) := by
  induction l using List.reverseRecOn with
  | nil => rfl
  | append_singleton l c _ => rw [makeAll_concat, if_pos h]

/-- Beyond a component that could not be made nothing more is made. -/
theorem makeAll_append_of_failed (h : makeAll t l = (false, u)) :
    makeAll t (l ++ l') = (false, u) := by
  have hwalk : t.walk [] l = none := by
    by_contra hne
    rw [makeAll_of_walk (Option.isSome_iff_ne_none.2 hne)] at h
    exact absurd (congrArg Prod.fst h) (by simp)
  induction l' using List.reverseRecOn with
  | nil => rwa [List.append_nil]
  | append_singleton l' c ih =>
    rw [← List.append_assoc, makeAll_concat, ih, if_neg]
    rw [List.append_assoc, DirTree.walk_append, hwalk]
    simp

theorem makeAll_concat_of_made (hwalk : t.walk [] (l ++ [c]) = none) (h : makeAll t l = (true, u)) :
    makeAll t (l ++ [c]) = u.mkdir [] (l ++ [c]) := by
  rw [makeAll_concat, hwalk, h]
  rfl

/-- Nothing is made below a file. -/
theorem made_below_file (hd : t.walk [] pre = some d) (hdir : t.kind d ≠ some .dir)
    (hc : t.walk d [c] = none) : makeAll t (pre ++ [c]) = (false, t) := by
  have hwalk : t.walk [] (pre ++ [c]) = none := by
    rw [DirTree.walk_append, hd, Option.bind_some, hc]
  rw [makeAll_concat_of_made hwalk (makeAll_of_walk (by rw [hd]; rfl))]
  cases c with
  | skip => simp [DirTree.walk] at hc
  | here => simp [DirTree.mkdir]
  | up => simp [DirTree.mkdir]
  | down a =>
    rw [DirTree.mkdir_down, hd]
    exact dif_neg fun hfree => hdir hfree.1

/-- The path is there once its missing names are made. -/
theorem walk_extended (hd : t.walk [] pre = some d) (h : t.Missing d names) :
    (t.extend d names).walk [] (pre ++ names.map .down) = some (d ++ names) := by
  rw [DirTree.walk_append, DirTree.le_extend.walk hd, Option.bind_some, h.walk_extend]

/-- The names of a missing chain are made. -/
theorem made_names (hd : t.walk [] pre = some d) (h : t.Missing d names) :
    makeAll t (pre ++ names.map .down) = (true, t.extend d names) := by
  induction names using List.reverseRecOn with
  | nil =>
    rw [List.map_nil, List.append_nil]
    exact makeAll_of_walk (by rw [hd]; rfl)
  | append_singleton names a ih =>
    have hwalk : t.walk [] (pre ++ (names ++ [a]).map .down) = none := by
      have hnone := h.walk_eq_none (by simp) []
      rw [List.append_nil] at hnone
      rw [DirTree.walk_append, hd, Option.bind_some, hnone]
    have hthere := walk_extended hd h.of_append
    rw [List.map_append, ← List.append_assoc] at hwalk ⊢
    rw [List.map_singleton] at hwalk ⊢
    rw [makeAll_concat_of_made hwalk (ih h.of_append), DirTree.mkdir_down, hthere,
      DirTree.extend_concat, dif_pos h.free]
    exact dif_pos h.free

/-- A component that is no name cannot be made in a new directory. -/
theorem made_no_name (hd : t.walk [] pre = some d) (h : t.Missing d names) (hne : names ≠ [])
    (hc : ∀ a, c ≠ .down a) :
    makeAll t (pre ++ names.map .down ++ [c]) = (false, t.extend d names) := by
  have hwalk : t.walk [] (pre ++ names.map .down ++ [c]) = none := by
    rw [List.append_assoc, DirTree.walk_append, hd, Option.bind_some, h.walk_eq_none hne]
  rw [makeAll_concat_of_made hwalk (made_names hd h)]
  cases c with
  | skip => rw [DirTree.mkdir_skip, DirTree.mkdir_of_walk (by rw [walk_extended hd h]; rfl)]
  | here => simp [DirTree.mkdir]
  | up => simp [DirTree.mkdir]
  | down a => exact absurd rfl (hc a)

/-! ## What becomes of the components -/

/-- A new directory is followed by a component that is no name, and what follows leads from the new
directory to something that exists. -/
def Strays (t : DirTree String) (l : List (Step String)) : Prop :=
  ∃ pre names c rest d, l = pre ++ names.map .down ++ c :: rest ∧ t.walk [] pre = some d ∧
    names ≠ [] ∧ t.Missing d names ∧ (∀ a, c ≠ .down a) ∧
    ((t.extend d names).walk (d ++ names) (c :: rest)).isSome

/-- What can become of the components: they exist; they lead through a file; they end in missing
names; or missing names are followed by a component that is no name. -/
theorem made_cases (t : DirTree String) (l : List (Step String)) :
    (t.walk [] l).isSome ∧ makeAll t l = (true, t) ∨
    t.walk [] l = none ∧ makeAll t l = (false, t) ∨
    ∃ pre names rest d, l = pre ++ names.map .down ++ rest ∧ t.walk [] pre = some d ∧ names ≠ [] ∧
      t.Missing d names ∧ (rest = [] ∧ makeAll t l = (true, t.extend d names) ∨
        ∃ c rest', rest = c :: rest' ∧ (∀ a, c ≠ .down a) ∧
          makeAll t l = (false, t.extend d names)) := by
  cases hwalk : t.walk [] l with
  | some q => exact .inl ⟨rfl, makeAll_of_walk (by rw [hwalk]; rfl)⟩
  | none =>
    obtain ⟨pre, c, post, d, rfl, hpre, hstop⟩ := DirTree.exists_stop hwalk
    by_cases hdir : t.kind d = some .dir
    · -- Only a name can be missing in a directory.
      obtain ⟨a, rfl⟩ : ∃ a, c = .down a := by
        cases c with
        | skip => simp [DirTree.walk] at hstop
        | here => simp [DirTree.walk, hdir] at hstop
        | up => simp [DirTree.walk, hdir] at hstop
        | down a => exact ⟨a, rfl⟩
      obtain ⟨names, rest, rfl, hrest⟩ := DirTree.exists_names post
      have hmissing : t.Missing d (a :: names) := by
        refine ⟨hdir, fun b hb => ?_⟩
        cases hb
        by_contra hne
        simp [DirTree.walk, Option.isSome_iff_ne_none, hne] at hstop
      have hl : pre ++ .down a :: (names.map .down ++ rest) =
          pre ++ (a :: names).map .down ++ rest := by simp
      right; right
      rw [hl] at hwalk ⊢
      refine ⟨pre, a :: names, rest, d, rfl, hpre, by simp, hmissing, ?_⟩
      cases rest with
      | nil =>
        rw [List.append_nil]
        exact .inl ⟨rfl, made_names hpre hmissing⟩
      | cons c rest =>
        have hc := hrest c rfl
        right
        refine ⟨c, rest, rfl, hc, ?_⟩
        rw [List.append_cons]
        exact makeAll_append_of_failed (made_no_name hpre hmissing (by simp) hc)
    · right; left
      refine ⟨rfl, ?_⟩
      rw [List.append_cons]
      exact makeAll_append_of_failed (made_below_file hpre hdir hstop)

/-- The result is whether the path exists afterwards, unless the path strays. -/
theorem isSome_walk_made_iff :
    ((makeAll t l).2.walk [] l).isSome = (makeAll t l).1 ↔ ¬Strays t l := by
  constructor
  · rintro hright ⟨pre, names, c, rest, d, rfl, hpre, hne, hmissing, hc, hrest⟩
    have hmade : makeAll t (pre ++ names.map .down ++ c :: rest) = (false, t.extend d names) := by
      rw [List.append_cons]
      exact makeAll_append_of_failed (made_no_name hpre hmissing hne hc)
    rw [hmade, DirTree.walk_append, walk_extended hpre hmissing, Option.bind_some, hrest] at hright
    exact absurd hright (by simp)
  · intro hstrays
    obtain ⟨hwalk, hmade⟩ | ⟨hwalk, hmade⟩ |
      ⟨pre, names, rest, d, rfl, hpre, hne, hmissing, ⟨rfl, hmade⟩ | ⟨c, rest, rfl, hc, hmade⟩⟩ :=
      made_cases t l
    · rw [hmade]
      exact hwalk
    · rw [hmade, hwalk]
      rfl
    · rw [hmade, List.append_nil, walk_extended hpre hmissing]
      rfl
    · rw [hmade]
      by_contra hsome
      rw [Bool.not_eq_false] at hsome
      rw [DirTree.walk_append, walk_extended hpre hmissing, Option.bind_some] at hsome
      exact hstrays ⟨pre, names, c, rest, d, rfl, hpre, hne, hmissing, hc, hsome⟩

/-- Only missing directories on the path are made. -/
theorem kind_made (t : DirTree String) (l : List (Step String)) (q : List String) :
    (makeAll t l).2.kind q = t.kind q ∨ t.kind q = none ∧ (makeAll t l).2.kind q = some .dir ∧
      ∃ l', l' <+: l ∧ t.walk [] l' = none ∧ (makeAll t l).2.walk [] l' = some q := by
  have hchain : ∀ pre names rest d, l = pre ++ names.map .down ++ rest →
      t.walk [] pre = some d → t.Missing d names →
      (t.extend d names).kind q = t.kind q ∨ t.kind q = none ∧
        (t.extend d names).kind q = some .dir ∧ ∃ l', l' <+: l ∧ t.walk [] l' = none ∧
          (t.extend d names).walk [] l' = some q := by
    rintro pre names rest d rfl hpre hmissing
    refine (DirTree.kind_extend q).imp_right ?_
    rintro ⟨hnone, hdir, r, hr, ⟨r', rfl⟩, rfl⟩
    refine ⟨hnone, hdir, pre ++ r.map .down, ⟨r'.map .down ++ rest, by simp⟩, ?_, ?_⟩
    · have hgone := hmissing.of_append.walk_eq_none hr []
      rw [List.append_nil] at hgone
      rw [DirTree.walk_append, hpre, Option.bind_some, hgone]
    · have hall := hmissing.walk_extend
      rw [List.map_append, DirTree.walk_append] at hall
      obtain ⟨p, hp, -⟩ := Option.bind_eq_some_iff.1 hall
      rw [DirTree.walk_append, DirTree.le_extend.walk hpre, Option.bind_some, hp,
        DirTree.eq_of_walk_names hp]
  obtain ⟨-, hmade⟩ | ⟨-, hmade⟩ |
    ⟨pre, names, rest, d, hl, hpre, -, hmissing, ⟨-, hmade⟩ | ⟨-, -, -, -, hmade⟩⟩ := made_cases t l
  · rw [hmade]
    exact .inl rfl
  · rw [hmade]
    exact .inl rfl
  · rw [hmade]
    exact hchain pre names rest d hl hpre hmissing
  · rw [hmade]
    exact hchain pre names rest d hl hpre hmissing

/-! ## Paths -/

theorem pathSteps_of_slash {pre post : List Char} (hpath : path.toList = pre ++ '/' :: post)
    (hpost : '/' ∉ post) :
    pathSteps path = pathSteps (String.ofList pre) ++ [pathStep post] := by
  rw [pathSteps, hpath, List.splitOn_append_cons_self, List.splitOn_eq_singleton hpost,
    List.map_append, pathSteps, String.toList_ofList, List.map_singleton]

theorem start_of_absolute (habs : Absolute path) : treeFileSystem.start cwd path = [] := if_pos habs

theorem pathExists_of_absolute (h : PlainPath sh path) (habs : Absolute path) :
    pathExists (treeFileSystem cwd) t path = (t.walk [] (pathSteps path)).isSome := by
  rw [pathExists, cStr_of_nulFree h.nulFree]
  simp [treeFileSystem, h.nonempty, start_of_absolute habs]

theorem mkdir_of_absolute (h : PlainPath sh path) (habs : Absolute path) :
    (treeFileSystem cwd).mkdir t (cStr path) = t.mkdir [] (pathSteps path) := by
  rw [cStr_of_nulFree h.nulFree]
  simp [treeFileSystem, h.nonempty, start_of_absolute habs]

/-- `mkpath` goes along the components of an absolute path. -/
theorem mkpath_eq_made (h : PlainPath sh path) (habs : Absolute path) {fuel : ℕ}
    (hfuel : path.toList.length < fuel) :
    mkpath sh (treeFileSystem cwd) fuel path t = .ok (makeAll t (pathSteps path)) := by
  induction hlen : path.toList.length using Nat.strong_induction_on generalizing path fuel with
  | _ n ih =>
    have hex : pathExists (treeFileSystem cwd) t path = (t.walk [] (pathSteps path)).isSome :=
      pathExists_of_absolute h habs
    obtain ⟨pre, post, hpath, hpost⟩ := exists_last_slash (List.mem_of_head? habs)
    obtain ⟨fuel, rfl⟩ := Nat.exists_eq_add_of_lt hfuel
    by_cases hthere : (t.walk [] (pathSteps path)).isSome
    · rw [mkpath_of_exists (abspath_of_plain h) (hex.trans hthere), makeAll_of_walk hthere]
    · have hparent : mkpath sh (treeFileSystem cwd) (path.toList.length + fuel) (basedir path) t =
          .ok (makeAll t (pathSteps (String.ofList pre))) := by
        have hbase := h.basedir
        have hdir := basedir_of_slash hpath hpost
        have hlen' : path.toList.length = pre.length + post.length + 1 := by
          rw [hpath]
          simp
          omega
        by_cases hpre : pre = []
        · rw [if_pos hpre] at hdir
          rw [hdir] at hbase ⊢
          -- The root exists, and so does what its only component leads to.
          rw [hlen', Nat.add_right_comm, mkpath_of_exists (abspath_of_plain hbase) rfl, hpre]
          rfl
        · rw [if_neg hpre] at hdir
          rw [hdir] at hbase ⊢
          rw [Absolute, hpath, List.head?_append_of_ne_nil _ hpre] at habs
          exact ih pre.length (by omega) hbase (by simpa [Absolute] using habs) (by simp; omega)
            (by simp)
      rw [mkpath_of_missing (abspath_of_plain h) (by rwa [hex]), hparent, Except.map]
      have hmkdir : ∀ u, (treeFileSystem cwd).mkdir u (cStr path) = u.mkdir [] (pathSteps path) :=
        fun u => mkdir_of_absolute h habs
      simp only [hmkdir]
      rw [pathSteps_of_slash hpath hpost] at hthere ⊢
      rw [makeAll_concat, if_neg hthere]
      obtain ⟨result, u⟩ := makeAll t (pathSteps (String.ofList pre))
      cases result <;> rfl

/-- A part of the components is that of a base directory. -/
theorem exists_base {l : List (Step String)} (hl : l ≠ []) (hpre : l <+: pathSteps path) :
    ∃ base, IsBase base path ∧ pathSteps base = l := by
  induction hlen : path.toList.length using Nat.strong_induction_on generalizing path with
  | _ n ih =>
    by_cases hslash : '/' ∈ path.toList
    · obtain ⟨pre, post, hpath, hpost⟩ := exists_last_slash hslash
      have hsteps := pathSteps_of_slash hpath hpost
      rw [hsteps] at hpre
      obtain rfl | hpre := List.prefix_concat_iff.1 hpre
      · exact ⟨path, .inl rfl, hsteps⟩
      · obtain ⟨base, hbase, hl⟩ := ih pre.length (by rw [← hlen, hpath]; simp) hpre (by simp)
        exact ⟨base, (isBase_iff hpath hpost).2 (.inr hbase), hl⟩
    · refine ⟨path, .inl rfl, ?_⟩
      have hone : pathSteps path = [pathStep path.toList] := by
        rw [pathSteps, List.splitOn_eq_singleton hslash, List.map_singleton]
      rw [hone]
      rw [hone, ← List.nil_append [_]] at hpre
      obtain rfl | hnil := List.prefix_concat_iff.1 hpre
      · rfl
      · exact absurd (List.prefix_nil.1 hnil) hl

/-! ## The result -/

/-- A call of `mkpath` returns whether the path exists afterwards, and makes only the path and
missing ancestors of it. -/
structure ReportsRight (sh : Shell) (cwd : List String) (path : String)
    (t u : DirTree String) (result : Bool) : Prop where
  returns : ∀ fuel, path.toList.length < fuel →
    mkpath sh (treeFileSystem cwd) fuel path t = .ok (result, u)
  exists_of_true : result = true → pathExists (treeFileSystem cwd) u path = true
  not_exists_of_false : result = false → pathExists (treeFileSystem cwd) u path = false
  only_ancestors : ∀ q, u.kind q = t.kind q ∨ t.kind q = none ∧ u.kind q = some .dir ∧
    ∃ base, IsBase base path ∧ t.walk [] (pathSteps base) = none ∧
      u.walk [] (pathSteps base) = some q

theorem reportsRight_iff (h : PlainPath sh path) (habs : Absolute path) :
    (∃ u result, ReportsRight sh cwd path t u result) ↔
      ((makeAll t (pathSteps path)).2.walk [] (pathSteps path)).isSome =
        (makeAll t (pathSteps path)).1 := by
  have hmade : ∀ fuel, path.toList.length < fuel →
      mkpath sh (treeFileSystem cwd) fuel path t = .ok (makeAll t (pathSteps path)) :=
    fun fuel hfuel => mkpath_eq_made h habs hfuel
  have hex : ∀ u, pathExists (treeFileSystem cwd) u path = (u.walk [] (pathSteps path)).isSome :=
    fun u => pathExists_of_absolute h habs
  rw [← hex]
  constructor
  · rintro ⟨u, result, hright⟩
    have hresult := (hmade _ (Nat.lt_succ_self _)).symm.trans (hright.returns _ (Nat.lt_succ_self _))
    rw [Except.ok.inj hresult]
    cases result with
    | true => exact hright.exists_of_true rfl
    | false => exact hright.not_exists_of_false rfl
  · intro hsome
    refine ⟨(makeAll t (pathSteps path)).2, (makeAll t (pathSteps path)).1, hmade, hsome.trans,
      hsome.trans,
      fun q => (kind_made t (pathSteps path) q).imp_right ?_⟩
    rintro ⟨hnone, hdir, l, hpre, hgone, hthere⟩
    have hl : l ≠ [] := by
      rintro rfl
      exact absurd hgone (by simp [DirTree.walk])
    obtain ⟨base, hbase, rfl⟩ := exists_base hl hpre
    exact ⟨hnone, hdir, base, hbase, hgone, hthere⟩

/-- `mkpath` reports what it did if and only if the path does not stray: missing names are not
followed by an empty component, `.` or `..` from which the path leads on to something that exists.
-/
theorem mkpath_reports_iff (sh : Shell) (cwd : List String) (t : DirTree String) {path : String}
    (h : PlainPath sh path) (habs : Absolute path) :
    (∃ u result, ReportsRight sh cwd path t u result) ↔ ¬Strays t (pathSteps path) := by
  rw [reportsRight_iff h habs, isSome_walk_made_iff]

/-- A tree with nothing but the root. -/
def bareTree : DirTree String where
  kind p := if p = [] then some .dir else none
  root := if_pos rfl
  parent p a h := by
    rw [if_neg (by simp)] at h
    exact absurd h (by simp)

/-- A path without a slash at its end is made and reported as made. -/
theorem mkpath_reports_accounts :
    ∃ u result, ReportsRight plainShell [] "/accounts" bareTree u result := by
  have hplain : PlainPath plainShell "/accounts" :=
    ⟨by decide, by unfold NulFree; decide, by simp [plainShell]⟩
  refine (mkpath_reports_iff plainShell [] bareTree hplain rfl).2 ?_
  exact isSome_walk_made_iff.1 (by decide +kernel)

/-- With a slash at its end, a path is made and reported as not made. -/
theorem trailing_slash_is_misreported : ¬∀ (sh : Shell) (cwd : List String) (t : DirTree String)
    (path : String), PlainPath sh path → Absolute path →
      ∃ u result, ReportsRight sh cwd path t u result := by
  intro h
  have hplain : PlainPath plainShell "/accounts/" :=
    ⟨by decide, by unfold NulFree; decide, by simp [plainShell]⟩
  have hright := (reportsRight_iff hplain rfl).1 (h plainShell [] bareTree _ hplain rfl)
  refine isSome_walk_made_iff.1 hright ⟨[.skip], ["accounts"], .skip, [], [], by decide, rfl,
    by decide, ⟨rfl, fun a ha => ?_⟩, by simp, rfl⟩
  cases ha
  rfl

end PxAccounts
