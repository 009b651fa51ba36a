import PxAccounts.Lib.Effect
import PxAccounts.Model.Paths

/-!
# Lists of paths

The two loops over a list of paths give one entry for each component, as long as the shell makes a
word of each.
-/

namespace PxAccounts

open Effect

variable {sh : Shell} {pathStr : String}

/-- The components between the colons. -/
def components (pathStr : String) : List String :=
  (pathStr.toList.splitOn ':').map String.ofList

/-- Both loops end with one entry for each component, in order: its absolute path. -/
def PathsRead (sh : Shell) (pathStr : String) : Prop :=
  ∃ paths, PATH.extractPathStr sh pathStr = .ok paths ∧
    List.Forall₂ (fun component path => FILE.abspath sh component = .ok path)
      (components pathStr) paths ∧
    ∀ pluginPaths, PluginManager.pluginPaths sh pluginPaths (some pathStr) = .ok (pluginPaths ++ paths)

/-- The shell makes nothing of the text. -/
def ExpandsToNothing (sh : Shell) (text : String) : Prop := sh.wordexp (cStr text) = .words []

/-! ## The loop -/

theorem splitOn_of_find {token : List Char} {pos : ℕ} (h : find token ':' = some pos) :
    token.splitOn ':' = token.take pos :: (token.drop (pos + 1)).splitOn ':' := by
  obtain ⟨hlt, hcolon, hbefore⟩ := List.findIdx?_eq_some_iff_getElem.1 h
  have hcut : token = token.take pos ++ ':' :: token.drop (pos + 1) := by
    conv_lhs => rw [← List.take_append_drop pos token, List.drop_eq_getElem_cons hlt]
    rw [beq_iff_eq.1 hcolon]
  have hnot : ':' ∉ token.take pos := by
    intro hmem
    obtain ⟨i, hi, hget⟩ := List.getElem_of_mem hmem
    rw [List.getElem_take] at hget
    rw [List.length_take] at hi
    exact hbefore i (by omega) (by rw [hget]; rfl)
  conv_lhs => rw [hcut]
  exact List.splitOn_append_cons_self_of_not_mem hnot _

theorem splitOn_of_find_eq_none {token : List Char} (h : find token ':' = none) :
    token.splitOn ':' = [token] := by
  refine List.splitOn_eq_singleton fun hmem => ?_
  have hne := List.findIdx?_eq_none_iff.1 h ':' hmem
  simp at hne

theorem splitPaths_of_find {pathList : List String} {token : List Char} {pos : ℕ}
    (h : find token ':' = some pos) : splitPaths sh pathList token = (do
      let path ← FILE.abspath sh (String.ofList (token.take pos))
      splitPaths sh (pathList ++ [path]) (token.drop (pos + 1))) := by
  rw [splitPaths]
  split
  · next hpos =>
    cases h.symm.trans hpos
    rfl
  · next hnone => exact absurd (h.symm.trans hnone) (by simp)

theorem splitPaths_of_find_eq_none {pathList : List String} {token : List Char}
    (h : find token ':' = none) : splitPaths sh pathList token = (do
      let path ← FILE.abspath sh (String.ofList token)
      return pathList ++ [path]) := by
  rw [splitPaths]
  split
  · next hpos => exact absurd (h.symm.trans hpos) (by simp)
  · rfl

/-- The loop adds the absolute paths of the components, one after the other. -/
theorem splitPaths_ok_iff {pathList paths : List String} {token : List Char} :
    splitPaths sh pathList token = .ok paths ↔ ∃ added, paths = pathList ++ added ∧
      List.Forall₂ (fun part path => FILE.abspath sh (String.ofList part) = .ok path)
        (token.splitOn ':') added := by
  induction pathList, token using splitPaths.induct with
  | case1 pathList token pos h ih =>
    rw [splitPaths_of_find h, splitOn_of_find h, except_bind_ok]
    constructor
    · rintro ⟨path, hpath, hrest⟩
      obtain ⟨added, rfl, hadded⟩ := (ih path).1 hrest
      exact ⟨path :: added, by rw [List.append_assoc, List.singleton_append], .cons hpath hadded⟩
    · rintro ⟨added, rfl, _ | ⟨hpath, hadded⟩⟩
      refine ⟨_, hpath, (ih _).2 ⟨_, ?_, hadded⟩⟩
      rw [List.append_assoc, List.singleton_append]
  | case2 pathList token h =>
    rw [splitPaths_of_find_eq_none h, splitOn_of_find_eq_none h, except_bind_ok]
    constructor
    · rintro ⟨path, hpath, hpaths⟩
      cases hpaths
      exact ⟨[path], rfl, .cons hpath .nil⟩
    · rintro ⟨added, rfl, _ | ⟨hpath, _ | _⟩⟩
      exact ⟨_, hpath, rfl⟩

/-! ## The two copies -/

/-- The `PluginManager` adds to its paths what `extract_path_str` makes of the variable. -/
theorem pluginPaths_ok_iff {pluginPaths paths : List String} :
    PluginManager.pluginPaths sh pluginPaths (some pathStr) = .ok paths ↔
      ∃ added, PATH.extractPathStr sh pathStr = .ok added ∧ paths = pluginPaths ++ added := by
  simp only [PluginManager.pluginPaths, PATH.extractPathStr, splitPaths_ok_iff, List.nil_append]
  constructor
  · rintro ⟨added, rfl, hadded⟩
    exact ⟨added, ⟨added, rfl, hadded⟩, rfl⟩
  · rintro ⟨added, ⟨_, rfl, hadded⟩, rfl⟩
    exact ⟨added, rfl, hadded⟩

theorem abspath_ok_iff {path : String} :
    (∃ full, FILE.abspath sh path = .ok full) ↔ ¬ExpandsToNothing sh path := by
  unfold FILE.abspath ExpandsToNothing
  split
  · next h => simp [h]
  · next h => simp [h]
  · next h => simp [h]

theorem exists_paths_iff {names : List String} :
    (∃ paths, List.Forall₂ (fun name path => FILE.abspath sh name = .ok path) names paths) ↔
      ∀ name ∈ names, ¬ExpandsToNothing sh name := by
  induction names with
  | nil => exact ⟨fun _ name hname => absurd hname List.not_mem_nil, fun _ => ⟨[], .nil⟩⟩
  | cons name names ih =>
    rw [List.forall_mem_cons, ← ih, ← abspath_ok_iff]
    constructor
    · rintro ⟨_, _ | ⟨hpath, hpaths⟩⟩
      exact ⟨⟨_, hpath⟩, _, hpaths⟩
    · rintro ⟨⟨path, hpath⟩, paths, hpaths⟩
      exact ⟨path :: paths, .cons hpath hpaths⟩

/-- A list of paths is read if and only if the shell makes a word of each component (or reports an
error). -/
theorem paths_read_iff (sh : Shell) (pathStr : String) :
    PathsRead sh pathStr ↔ ∀ component ∈ components pathStr, ¬ExpandsToNothing sh component := by
  rw [← exists_paths_iff]
  constructor
  · rintro ⟨paths, -, hpaths, -⟩
    exact ⟨paths, hpaths⟩
  · rintro ⟨paths, hpaths⟩
    have hextract : PATH.extractPathStr sh pathStr = .ok paths :=
      splitPaths_ok_iff.2 ⟨paths, rfl, List.forall₂_map_left_iff.1 hpaths⟩
    exact ⟨paths, hextract, hpaths,
      fun pluginPaths => pluginPaths_ok_iff.2 ⟨paths, hextract, rfl⟩⟩

/-- In a list with two colons in a row, the component between them has no words. -/
theorem empty_component_is_not_read : ¬∀ (sh : Shell) (pathStr : String), PathsRead sh pathStr := by
  intro h
  obtain ⟨paths, -, hpaths, -⟩ := h plainShell "/usr/plugins::/plugins"
  exact exists_paths_iff.1 ⟨paths, hpaths⟩ "" (by decide) plainShell.wordexp_empty

end PxAccounts
