import PxAccounts.Lib.Layers
import PxAccounts.Lib.TreeMap
import PxAccounts.Model.PluginManager
import PxAccounts.Model.Reference

/-!
# Plugin files

The directories of plugin files are layers of which the last path is on top.  A malformed file is
passed over, so what is loaded under a name depends only on the files of the last directory that
describes a plugin of that name.
-/

namespace PxAccounts

open PluginManager PluginContainerBase Layers

variable {Text : Type} {yaml : YamlCpp Text} {dir : Directory Text}
  {dirs dirs' : String → Directory Text} {pluginPaths : List String}

/-- The plugin that a file of the directory describes, under its name. -/
def Directory.pluginIn (yaml : YamlCpp Text) (dir : Directory Text) (path pluginFile : String) :
    Option (String × PluginInfo) :=
  (createContainer yaml dir.files[pluginFile]? (path ++ "/" ++ pluginFile)).map fun p => (p.name, p)

/-- The files of a directory that describe plugins. -/
def Directory.pluginLayer (yaml : YamlCpp Text) (dir : Directory Text) (path : String) :
    Layer String String PluginInfo where
  read := dir.pluginIn yaml path
  names := (dir.dirfiles ".yaml").filter fun name => (dir.pluginIn yaml path name).isSome

/-- The layers of the paths, that of the last on top. -/
def pluginLayers (yaml : YamlCpp Text) (dirs : String → Directory Text)
    (pluginPaths : List String) : List (Layer String String PluginInfo) :=
  (pluginPaths.map fun path => (dirs path).pluginLayer yaml path).reverse

/-- The same files everywhere, which `readdir` may give in another order. -/
def SameFiles (dirs dirs' : String → Directory Text) : Prop :=
  ∀ path, (dirs' path).files = (dirs path).files

/-! ## The loops load the layers -/

theorem getElem?_insertPlugins (path : String) (names : List String) (plugins : StrMap PluginInfo) :
    (fun name : String => ((names.filterMap fun pluginFile =>
        createContainer yaml dir.files[pluginFile]? (path ++ "/" ++ pluginFile)).foldl
          (fun plugins p => plugins.insert p.name p) plugins)[name]?) =
      loadNames (dir.pluginIn yaml path)
        (names.filter fun name => (dir.pluginIn yaml path name).isSome)
        fun name => plugins[name]? := by
  induction names generalizing plugins with
  | nil => rfl
  | cons pluginFile names ih =>
    cases hread : createContainer yaml dir.files[pluginFile]? (path ++ "/" ++ pluginFile) with
    | none =>
      have hnone : ¬(dir.pluginIn yaml path pluginFile).isSome := by
        rw [Directory.pluginIn, hread]
        exact Bool.false_ne_true
      simp only [List.filterMap_cons, hread]
      rw [List.filter_cons_of_neg (p := fun name => (dir.pluginIn yaml path name).isSome) hnone]
      exact ih plugins
    | some p =>
      have hsome : dir.pluginIn yaml path pluginFile = some (p.name, p) := by
        rw [Directory.pluginIn, hread]
        rfl
      simp only [List.filterMap_cons, hread, List.foldl_cons]
      rw [ih, List.filter_cons_of_pos (by rw [hsome]; rfl)]
      simp only [loadNames, hsome]
      congr 1
      funext name
      by_cases hname : p.name = name
      · subst hname
        rw [Std.ExtTreeMap.getElem?_insert_self, Function.update_self]
      · rw [TreeMap.getElem?_insert_of_ne hname, Function.update_of_ne (Ne.symm hname)]

theorem getElem?_readPlugins (yaml : YamlCpp Text) (dirs : String → Directory Text)
    (pluginPaths : List String) :
    (fun name : String => (readPlugins yaml dirs pluginPaths)[name]?) =
      loadAll (pluginLayers yaml dirs pluginPaths) := by
  have hpaths : ∀ plugins : StrMap PluginInfo, (fun name : String =>
      (pluginPaths.foldl (fun plugins path => (readPathPlugins yaml (dirs path) path).foldl
        (fun plugins p => plugins.insert p.name p) plugins) plugins)[name]?) =
      pluginPaths.foldl (fun known path => ((dirs path).pluginLayer yaml path).load known)
        fun name => plugins[name]? := by
    induction pluginPaths with
    | nil => exact fun _ => rfl
    | cons path pluginPaths ih =>
      intro plugins
      rw [List.foldl_cons, List.foldl_cons, ih, readPathPlugins, getElem?_insertPlugins]
      rfl
  have hempty : (fun name : String => (∅ : StrMap PluginInfo)[name]?) = fun _ => none :=
    funext fun _ => Std.ExtTreeMap.getElem?_empty
  rw [readPlugins, hpaths, hempty, loadAll, pluginLayers, List.foldr_reverse, List.foldl_map]

theorem readable_pluginLayers : ∀ layer ∈ pluginLayers yaml dirs pluginPaths, layer.Readable := by
  intro layer hlayer
  rw [pluginLayers, List.mem_reverse] at hlayer
  obtain ⟨path, -, rfl⟩ := List.mem_map.1 hlayer
  exact fun name hname => (List.mem_filter.1 hname).2

/-! ## Orders of the files -/

theorem defines_pluginLayer_iff {dir' : Directory Text} (h : dir'.files = dir.files)
    {path name : String} {info : PluginInfo} :
    (dir'.pluginLayer yaml path).Defines name info ↔ (dir.pluginLayer yaml path).Defines name info := by
  have hread : dir'.pluginIn yaml path = dir.pluginIn yaml path := by
    funext pluginFile
    rw [Directory.pluginIn, h, Directory.pluginIn]
  have hperm : dir'.readdir.Perm dir.readdir := by
    have hkeys := dir'.readdir_perm
    rw [h] at hkeys
    exact hkeys.trans dir.readdir_perm.symm
  refine Layer.Reorders.defines_iff ⟨hread, ?_⟩
  dsimp only [Directory.pluginLayer]
  rw [hread]
  exact (hperm.filter _).filter _

theorem prevails_pluginLayers_iff (h : SameFiles dirs dirs') {name : String} {info : PluginInfo} :
    Prevails (pluginLayers yaml dirs' pluginPaths) name info ↔
      Prevails (pluginLayers yaml dirs pluginPaths) name info := by
  rw [pluginLayers, pluginLayers, ← List.map_reverse, ← List.map_reverse]
  induction pluginPaths.reverse with
  | nil => rfl
  | cons path paths ih =>
    rw [List.map_cons, List.map_cons, Prevails, Prevails, ih]
    simp only [defines_pluginLayer_iff (h path)]

/-- The directory in an order in which the files with one description come last. -/
def Directory.lastly (yaml : YamlCpp Text) (dir : Directory Text) (path name : String)
    (info : PluginInfo) : Directory Text where
  files := dir.files
  readdir :=
    dir.readdir.filter (fun file => decide (dir.pluginIn yaml path file ≠ some (name, info))) ++
      dir.readdir.filter fun file => decide (dir.pluginIn yaml path file = some (name, info))
  readdir_perm := by
    refine List.Perm.trans ?_ dir.readdir_perm
    have hperm := List.perm_append_comm.trans (List.filter_append_perm
      (fun file => decide (dir.pluginIn yaml path file = some (name, info))) dir.readdir)
    simpa only [decide_not] using hperm

theorem pluginLayer_lastly (path name : String) (info : PluginInfo) :
    (dir.lastly yaml path name info).pluginLayer yaml path =
      (dir.pluginLayer yaml path).lastly name info := by
  rw [Directory.pluginLayer, Layer.lastly, Layer.mk.injEq]
  refine ⟨rfl, ?_⟩
  dsimp only [Directory.pluginLayer, Directory.lastly, Directory.dirfiles]
  rw [List.filter_append, List.filter_append]
  congr 1
  · simp only [List.filter_filter]
    exact List.filter_congr fun file _ => by ac_rfl
  · simp only [List.filter_filter]
    exact List.filter_congr fun file _ => by ac_rfl

/-- What can be loaded under a name, in some order of the files, are the plugins of that name in the
last directory that has any. -/
theorem exists_loaded_iff (yaml : YamlCpp Text) (dirs : String → Directory Text)
    (pluginPaths : List String) (name : String) (info : PluginInfo) :
    (∃ dirs', SameFiles dirs dirs' ∧ (readPlugins yaml dirs' pluginPaths)[name]? = some info) ↔
      Prevails (pluginLayers yaml dirs pluginPaths) name info := by
  constructor
  · rintro ⟨dirs', hfiles, hloaded⟩
    have hloaded' := (congrFun (getElem?_readPlugins yaml dirs' pluginPaths) name).symm.trans hloaded
    exact (prevails_pluginLayers_iff hfiles).1 (prevails_of_loaded readable_pluginLayers hloaded')
  · intro h
    refine ⟨fun path => (dirs path).lastly yaml path name info, fun _ => rfl, ?_⟩
    have hlayers : pluginLayers yaml (fun path => (dirs path).lastly yaml path name info)
        pluginPaths = (pluginLayers yaml dirs pluginPaths).map fun layer => layer.lastly name info := by
      rw [pluginLayers, pluginLayers, List.map_reverse, List.map_map]
      exact congrArg List.reverse (List.map_congr_left fun path _ => pluginLayer_lastly path name info)
    refine (congrFun (getElem?_readPlugins yaml _ pluginPaths) name).trans ?_
    rw [hlayers]
    exact loadAll_lastly readable_pluginLayers h

/-- In every order of the files, something is loaded under a name that some plugin has. -/
theorem loaded_of_prevails {name : String} {info : PluginInfo}
    (h : Prevails (pluginLayers yaml dirs pluginPaths) name info) (hfiles : SameFiles dirs dirs') :
    ∃ info', (readPlugins yaml dirs' pluginPaths)[name]? = some info' := by
  obtain ⟨info', hinfo'⟩ :=
    loadAll_of_prevails readable_pluginLayers ((prevails_pluginLayers_iff hfiles).2 h)
  exact ⟨info', (congrFun (getElem?_readPlugins yaml dirs' pluginPaths) name).trans hinfo'⟩

/-- Under each name one of the plugins of that name in the last directory that has any is loaded, and
each of them in some order of the files; in no order is the name left out.  The order does not
matter if and only if there is never more than one. -/
theorem plugins_of_last_path (yaml : YamlCpp Text) (dirs : String → Directory Text)
    (pluginPaths : List String) :
    (∀ name info, (∃ dirs', SameFiles dirs dirs' ∧
        (readPlugins yaml dirs' pluginPaths)[name]? = some info) ↔
      Prevails (pluginLayers yaml dirs pluginPaths) name info) ∧
    (∀ name info, Prevails (pluginLayers yaml dirs pluginPaths) name info → ∀ dirs',
      SameFiles dirs dirs' → ∃ info', (readPlugins yaml dirs' pluginPaths)[name]? = some info') ∧
    ((∀ dirs', SameFiles dirs dirs' →
        readPlugins yaml dirs' pluginPaths = readPlugins yaml dirs pluginPaths) ↔
      ∀ name info info', Prevails (pluginLayers yaml dirs pluginPaths) name info →
        Prevails (pluginLayers yaml dirs pluginPaths) name info' → info = info') := by
  refine ⟨exists_loaded_iff yaml dirs pluginPaths, fun _ _ h _ hfiles => loaded_of_prevails h hfiles,
    fun hsame name info info' hinfo hinfo' => ?_, fun hone dirs' hfiles => ?_⟩
  · obtain ⟨dirs₁, hfiles₁, hloaded₁⟩ :=
      (exists_loaded_iff yaml dirs pluginPaths name info).2 hinfo
    obtain ⟨dirs₂, hfiles₂, hloaded₂⟩ :=
      (exists_loaded_iff yaml dirs pluginPaths name info').2 hinfo'
    rw [hsame dirs₁ hfiles₁] at hloaded₁
    rw [hsame dirs₂ hfiles₂] at hloaded₂
    exact Option.some.inj (hloaded₁.symm.trans hloaded₂)
  · have hle : ∀ {dirs₁ dirs₂ : String → Directory Text}, SameFiles dirs dirs₁ →
        SameFiles dirs dirs₂ → ∀ {name : String} {info : PluginInfo},
        (readPlugins yaml dirs₁ pluginPaths)[name]? = some info →
        (readPlugins yaml dirs₂ pluginPaths)[name]? = some info := by
      intro dirs₁ dirs₂ hfiles₁ hfiles₂ name info hloaded₁
      have hinfo := (exists_loaded_iff yaml dirs pluginPaths name info).1 ⟨dirs₁, hfiles₁, hloaded₁⟩
      obtain ⟨info', hloaded₂⟩ := loaded_of_prevails hinfo hfiles₂
      have hinfo' :=
        (exists_loaded_iff yaml dirs pluginPaths name info').1 ⟨dirs₂, hfiles₂, hloaded₂⟩
      rw [hloaded₂, hone name info info' hinfo hinfo']
    refine Std.ExtTreeMap.ext_getElem? fun name => Option.ext fun info => ⟨?_, ?_⟩
    · exact hle hfiles fun _ => rfl
    · exact hle (fun _ => rfl) hfiles

end PxAccounts
