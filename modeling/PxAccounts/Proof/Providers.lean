import PxAccounts.Lib.Layers
import PxAccounts.Lib.TreeMap
import PxAccounts.Model.ProviderHandler
import PxAccounts.Model.Reference

/-!
# Loaded providers

The directories of provider files are layers that are loaded one over the other, where a malformed
file hides the files that `readdir` gives after it.
-/

namespace PxAccounts

open ProviderHandler Layers

variable {Text : Type} {yaml : YamlCpp Text} {dir : Directory Text}

/-- The provider that a text defines, if it is well formed. -/
def providerIn (yaml : YamlCpp Text) (text : Text) : Option ProviderStruct :=
  (yaml.load text).bind fun root => (readProvider yaml root).toOption

/-- The provider files of a directory, each under the title it defines. -/
def Directory.layer (yaml : YamlCpp Text) (dir : Directory Text) :
    Layer String String ProviderStruct where
  read providerName :=
    (dir.files[providerName]?.bind (providerIn yaml)).map fun provider => (provider.title, provider)
  names := dir.dirfiles ".yaml"

/-- The well-formed files of the directory define different titles. -/
def Directory.DistinctTitles (yaml : YamlCpp Text) (dir : Directory Text) : Prop :=
  ∀ name ∈ (dir.layer yaml).names, ∀ name' ∈ (dir.layer yaml).names, ∀ title provider provider',
    (dir.layer yaml).read name = some (title, provider) →
    (dir.layer yaml).read name' = some (title, provider') → name = name'

/-- The layers of the three directories, that of the user on top. -/
def providerLayers (yaml : YamlCpp Text) (system app user : Directory Text) :
    List (Layer String String ProviderStruct) :=
  [user.layer yaml, app.layer yaml, system.layer yaml]

/-- In whatever order the files are found, the providers are the same, and each title has the
definition of the topmost directory that defines it. -/
def LoadsByPriority (yaml : YamlCpp Text) (system app user : Directory Text) : Prop :=
  ∀ system' app' user' : Directory Text, system'.files = system.files → app'.files = app.files →
    user'.files = user.files →
    construct yaml system' app' user' = construct yaml system app user ∧
      ∀ title provider, Prevails (providerLayers yaml system app user) title provider →
        (construct yaml system' app' user')[title]? = some provider

/-! ## The constructor loads the layers -/

theorem initProvider_eq (file : Option Text) (providers : StrMap ProviderStruct) :
    initProvider yaml file providers =
      match file.bind (providerIn yaml) with
      | none => (false, providers)
      | some provider => (true, providers.insert provider.title provider) := by
  cases file with
  | none => rfl
  | some text =>
    rw [initProvider, Option.bind_some, providerIn]
    cases yaml.load text with
    | none => rfl
    | some root =>
      dsimp only [Option.bind_some]
      cases readProvider yaml root <;> rfl

theorem getElem?_initFiles (names : List String) (providers : StrMap ProviderStruct) :
    (fun title : String => (initFiles yaml dir.files names providers).2[title]?) =
      loadNames (dir.layer yaml).read names fun title => providers[title]? := by
  induction names generalizing providers with
  | nil => rfl
  | cons providerName names ih =>
    rw [initFiles, initProvider_eq]
    cases hread : dir.files[providerName]?.bind (providerIn yaml) with
    | none =>
      have hnone : (dir.layer yaml).read providerName = none := by
        dsimp only [Directory.layer]
        rw [hread]
        rfl
      rw [loadNames_of_isNone hnone]
    | some provider =>
      have hsome : (dir.layer yaml).read providerName = some (provider.title, provider) := by
        dsimp only [Directory.layer]
        rw [hread]
        rfl
      simp only [loadNames, hsome]
      rw [ih]
      congr 1
      funext title
      by_cases htitle : provider.title = title
      · subst htitle
        rw [Std.ExtTreeMap.getElem?_insert_self, Function.update_self]
      · rw [TreeMap.getElem?_insert_of_ne htitle, Function.update_of_ne (Ne.symm htitle)]

theorem getElem?_construct (system app user : Directory Text) :
    (fun title : String => (construct yaml system app user)[title]?) =
      loadAll (providerLayers yaml system app user) := by
  change (fun title : String => (initFiles yaml user.files (user.dirfiles ".yaml")
    (initFiles yaml app.files (app.dirfiles ".yaml")
      (initFiles yaml system.files (system.dirfiles ".yaml") ∅).2).2).2[title]?) = _
  have hempty : (fun title : String => (∅ : StrMap ProviderStruct)[title]?) = fun _ => none :=
    funext fun _ => Std.ExtTreeMap.getElem?_empty
  rw [getElem?_initFiles, getElem?_initFiles, getElem?_initFiles, hempty]
  rfl

/-! ## Directories and layers -/

theorem Directory.reorders {dir' : Directory Text} (h : dir'.files = dir.files) :
    (dir.layer yaml).Reorders (dir'.layer yaml) := by
  constructor
  · dsimp only [layer]
    rw [h]
  · have hperm : dir'.readdir.Perm dir.readdir := by
      have hkeys := dir'.readdir_perm
      rw [h] at hkeys
      exact hkeys.trans dir.readdir_perm.symm
    exact hperm.filter _

/-- Every order of the provider files is one in which `readdir` can give them. -/
theorem Directory.exists_of_reorders {layer' : Layer String String ProviderStruct}
    (h : (dir.layer yaml).Reorders layer') :
    ∃ dir' : Directory Text, dir'.files = dir.files ∧ dir'.layer yaml = layer' := by
  obtain ⟨read, names⟩ := layer'
  obtain ⟨hread, hnames⟩ := h
  dsimp only at hread hnames
  let isYaml : String → Bool := fun name =>
    (withoutDot ".yaml").isEmpty || FILE.extpart name == withoutDot ".yaml"
  have hyaml : ∀ name ∈ names, isYaml name = true :=
    fun name hname => (List.mem_filter.1 (hnames.mem_iff.1 hname)).2
  refine ⟨{ files := dir.files, readdir := names ++ dir.readdir.filter fun name => !isYaml name
            readdir_perm := ?_ }, rfl, ?_⟩
  · exact ((hnames.append_right _).trans (List.filter_append_perm isYaml _)).trans dir.readdir_perm
  · have hfilter :
        (names ++ dir.readdir.filter fun name => !isYaml name).filter isYaml = names := by
      rw [List.filter_append, List.filter_eq_self.2 hyaml, List.filter_filter]
      simp
    rw [layer, Layer.mk.injEq]
    exact ⟨hread.symm, hfilter⟩

theorem Directory.DistinctTitles.unambiguous (h : dir.DistinctTitles yaml) :
    (dir.layer yaml).Unambiguous := by
  rintro title provider provider' ⟨name, hmem, hname⟩ ⟨name', hmem', hname'⟩
  obtain rfl := h name hmem name' hmem' title provider provider' hname hname'
  exact congrArg Prod.snd (Option.some.inj (hname.symm.trans hname'))

/-- The loaded providers do not depend on the order of the files, and each title has the definition
of the topmost directory that defines it, if and only if every such definition is secured by a
directory without malformed files. -/
theorem providers_by_priority_iff (yaml : YamlCpp Text) (system app user : Directory Text)
    (hsystem : system.DistinctTitles yaml) (happ : app.DistinctTitles yaml)
    (huser : user.DistinctTitles yaml) :
    LoadsByPriority yaml system app user ↔
      ∀ title provider, Prevails (providerLayers yaml system app user) title provider →
        Secured (providerLayers yaml system app user) title provider := by
  have hun : ∀ layer ∈ providerLayers yaml system app user, layer.Unambiguous := by
    intro layer hlayer
    simp only [providerLayers, List.mem_cons, List.not_mem_nil, or_false] at hlayer
    rcases hlayer with rfl | rfl | rfl
    · exact huser.unambiguous
    · exact happ.unambiguous
    · exact hsystem.unambiguous
  rw [← Layers.loads_by_priority_iff hun]
  constructor
  · rintro h _ (_ | ⟨hu, _ | ⟨ha, _ | ⟨hs, _ | _⟩⟩⟩)
    obtain ⟨user', huser', rfl⟩ := Directory.exists_of_reorders hu
    obtain ⟨app', happ', rfl⟩ := Directory.exists_of_reorders ha
    obtain ⟨system', hsystem', rfl⟩ := Directory.exists_of_reorders hs
    obtain ⟨hsame, hprevails⟩ := h system' app' user' hsystem' happ' huser'
    change loadAll (providerLayers yaml system' app' user') = _ ∧ _
    rw [← getElem?_construct, ← getElem?_construct, hsame]
    exact ⟨rfl, fun title provider hp => (congrFun (getElem?_construct system' app' user')
      title).symm.trans (hprevails title provider hp)⟩
  · intro h system' app' user' hsystem' happ' huser'
    have hl : List.Forall₂ Layer.Reorders (providerLayers yaml system app user)
        (providerLayers yaml system' app' user') :=
      .cons (Directory.reorders huser') (.cons (Directory.reorders happ')
        (.cons (Directory.reorders hsystem') .nil))
    obtain ⟨hsame, hprevails⟩ := h _ hl
    rw [← getElem?_construct, ← getElem?_construct] at hsame
    refine ⟨Std.ExtTreeMap.ext_getElem? fun title => congrFun hsame title,
      fun title provider hp => ?_⟩
    have hloaded := hprevails title provider hp
    rwa [← getElem?_construct] at hloaded

/-- The directory with the files of the map, in the order of their names. -/
def Directory.ofFiles (files : StrMap Text) : Directory Text where
  files := files
  readdir := files.keys
  readdir_perm := .refl _

/-- A provider file. -/
def providerText (title server : String) : YamlText :=
  .whole (.mapping [("provider", .mapping [("title", .scalar title),
    ("plugins", .sequence [.mapping [("mail", .mapping [("server", .scalar server)])]])])])

/-- A provider of the system that the user redefines. -/
def systemProviders : StrMap YamlText :=
  (∅ : StrMap YamlText).insert "planet.yaml" (providerText "Planet" "one")

def userProviders : StrMap YamlText :=
  (∅ : StrMap YamlText).insert "planet.yaml" (providerText "Planet" "two")

/-- A malformed file next to a good one. -/
def brokenProviders : StrMap YamlText :=
  ((∅ : StrMap YamlText).insert "a.yaml" (providerText "Planet" "one")).insert "b.yaml"
    (.part .null 1)

theorem distinctTitles_of_names {dir : Directory Text} (name : String)
    (h : ∀ name' ∈ (dir.layer yaml).names, ((dir.layer yaml).read name').isSome → name' = name) :
    dir.DistinctTitles yaml := by
  intro name₁ hmem₁ name₂ hmem₂ title provider₁ provider₂ hread₁ hread₂
  rw [h name₁ hmem₁ (by rw [hread₁]; rfl), h name₂ hmem₂ (by rw [hread₂]; rfl)]

/-- Without malformed files the user's definition is loaded. -/
theorem providers_by_priority_user : LoadsByPriority referenceYaml (.ofFiles systemProviders)
    (.ofFiles ∅) (.ofFiles userProviders) := by
  refine (providers_by_priority_iff referenceYaml (.ofFiles systemProviders) (.ofFiles ∅)
    (.ofFiles userProviders) (distinctTitles_of_names "planet.yaml" (by decide +kernel))
    (distinctTitles_of_names "" (by decide +kernel))
    (distinctTitles_of_names "planet.yaml" (by decide +kernel))).2 ?_
  refine fun title provider => secured_of_readable fun layer hlayer => ?_
  simp only [providerLayers, List.mem_cons, List.not_mem_nil, or_false] at hlayer
  rcases hlayer with rfl | rfl | rfl
  · unfold Layer.Readable
    decide +kernel
  · unfold Layer.Readable
    decide +kernel
  · unfold Layer.Readable
    decide +kernel

/-- Which providers are loaded depends on where the malformed file comes. -/
theorem malformed_file_hides : ¬∀ (yaml : YamlCpp YamlText) (system app user : Directory YamlText),
    system.DistinctTitles yaml → app.DistinctTitles yaml → user.DistinctTitles yaml →
    LoadsByPriority yaml system app user := by
  intro h
  have hempty : (Directory.ofFiles (∅ : StrMap YamlText)).DistinctTitles referenceYaml :=
    distinctTitles_of_names "" (by decide +kernel)
  have hloads := h referenceYaml (.ofFiles ∅) (.ofFiles ∅) (.ofFiles brokenProviders) hempty hempty
    (distinctTitles_of_names "a.yaml" (by decide +kernel))
  let backwards : Directory YamlText :=
    { files := brokenProviders, readdir := ["b.yaml", "a.yaml"], readdir_perm := by decide +kernel }
  obtain ⟨hsame, -⟩ := hloads (.ofFiles ∅) (.ofFiles ∅) backwards rfl rfl rfl
  have hdiffer : (construct referenceYaml (.ofFiles ∅) (.ofFiles ∅) backwards)["Planet"]?.isSome ≠
      (construct referenceYaml (.ofFiles ∅) (.ofFiles ∅)
        (.ofFiles brokenProviders))["Planet"]?.isSome := by decide +kernel
  exact hdiffer (by rw [hsame])

end PxAccounts
