import PxAccounts.Proof.PluginLoading

/-!
# Registered plugins

The containers are initiated in the order of their names, each in the interpreter that those before
it left.  A container is registered under the title that its plugin gives, where the last one with a
title takes the place of the others.
-/

namespace PxAccounts

open Effect PluginManager

variable {host : PluginHost} {py : Interpreter} {l : List (String × PluginInfo)}
  {name name' : String} {p p' : LoadedPlugin}

/-- The interpreter after the containers of a list were initiated. -/
def interpreterAfter (host : PluginHost) (py : Interpreter) (l : List (String × PluginInfo)) :
    Interpreter :=
  l.foldl (fun py kv => (initContainer host kv.2 py).2) py

/-- The container with the name is initiated in its turn. -/
def Inited (host : PluginHost) (py : Interpreter) (l : List (String × PluginInfo)) (name : String)
    (p : LoadedPlugin) : Prop :=
  ∃ before after, l = before ++ (name, p.info) :: after ∧
    (initContainer host p.info (interpreterAfter host py before)).1 = some p.plugin

/-- The plugin has the title, and no initiated one with a greater name has it too. -/
def LastTitled (host : PluginHost) (py : Interpreter) (l : List (String × PluginInfo))
    (title : String) (p : LoadedPlugin) : Prop :=
  ∃ name, Inited host py l name p ∧ p.plugin.getTitle = .ok title ∧
    ∀ name' p', name < name' → Inited host py l name' p' → p'.plugin.getTitle ≠ .ok title

theorem interpreterAfter_concat (kv : String × PluginInfo) :
    interpreterAfter host py (l ++ [kv]) =
      (initContainer host kv.2 (interpreterAfter host py l)).2 := by
  rw [interpreterAfter, List.foldl_append]
  rfl

/-- The last of a list is initiated after all others. -/
theorem inited_concat (kv : String × PluginInfo) : Inited host py (l ++ [kv]) name p ↔
    Inited host py l name p ∨ kv = (name, p.info) ∧
      (initContainer host p.info (interpreterAfter host py l)).1 = some p.plugin := by
  constructor
  · rintro ⟨before, after, heq, hinit⟩
    rcases List.eq_nil_or_concat after with rfl | ⟨after, kv', rfl⟩
    · obtain ⟨rfl, hkv⟩ := List.append_inj' heq rfl
      exact .inr ⟨by simpa using hkv, hinit⟩
    · rw [List.concat_eq_append, ← List.cons_append, ← List.append_assoc] at heq
      obtain ⟨rfl, -⟩ := List.append_inj' heq rfl
      exact .inl ⟨before, after, rfl, hinit⟩
  · rintro (⟨before, after, rfl, hinit⟩ | ⟨rfl, hinit⟩)
    · exact ⟨before, after ++ [kv], by simp, hinit⟩
    · exact ⟨l, [], rfl, hinit⟩

theorem Inited.mem (h : Inited host py l name p) : (name, p.info) ∈ l := by
  obtain ⟨before, after, rfl, -⟩ := h
  simp

/-! ## The registry -/

/-- What one turn does. -/
theorem initPlugin_ok_iff {s s' : State} {kv : String × PluginInfo} :
    initPlugin host s kv = .ok s' ↔ s'.py = (initContainer host kv.2 s.py).2 ∧
      (((initContainer host kv.2 s.py).1 = none ∧ s'.plugins = s.plugins) ∨
        ∃ plugin container, (initContainer host kv.2 s.py).1 = some plugin ∧
          (LoadedPlugin.mk kv.2 plugin).container = .ok container ∧
          s'.plugins = s.plugins.insert container.title ⟨kv.2, plugin⟩) := by
  obtain ⟨plugins', py'⟩ := s'
  rw [initPlugin]
  cases hinit : initContainer host kv.2 s.py with
  | mk result py₁ =>
    cases result with
    | none =>
      dsimp only
      constructor
      · intro h
        cases h
        exact ⟨rfl, .inl ⟨rfl, rfl⟩⟩
      · rintro ⟨rfl, ⟨-, rfl⟩ | ⟨plugin, container, h, -⟩⟩
        · rfl
        · cases h
    | some plugin =>
      dsimp only
      rw [except_bind_ok]
      constructor
      · rintro ⟨container, hcontainer, h⟩
        cases h
        exact ⟨rfl, .inr ⟨plugin, container, rfl, hcontainer, rfl⟩⟩
      · rintro ⟨rfl, ⟨h, -⟩ | ⟨plugin', container, h, hcontainer, rfl⟩⟩
        · cases h
        · cases h
          exact ⟨container, hcontainer, rfl⟩

theorem title_of_container {container : PluginContainer} (h : p.container = .ok container) :
    p.plugin.getTitle = .ok container.title := by
  rw [LoadedPlugin.container, except_bind_ok] at h
  obtain ⟨title, htitle, h⟩ := h
  rw [except_bind_ok] at h
  obtain ⟨maxCount, -, h⟩ := h
  rw [except_bind_ok] at h
  obtain ⟨autoInit, -, h⟩ := h
  cases h
  exact htitle

/-- What is registered after the turns of a list, in the order of the names. -/
structure Registered (host : PluginHost) (py : Interpreter) (l : List (String × PluginInfo))
    (s : State) : Prop where
  interpreter : s.py = interpreterAfter host py l
  plugins : ∀ (title : String) (p : LoadedPlugin),
    s.plugins[title]? = some p ↔ LastTitled host py l title p
  complete : ∀ name p, Inited host py l name p → ∃ container, p.container = .ok container

/-- A turn that initiates nothing leaves the last plugin of every title. -/
theorem lastTitled_concat_of_none {kv : String × PluginInfo} {title : String}
    (h : (initContainer host kv.2 (interpreterAfter host py l)).1 = none) :
    LastTitled host py (l ++ [kv]) title p ↔ LastTitled host py l title p := by
  have hinited : ∀ name p, Inited host py (l ++ [kv]) name p ↔ Inited host py l name p := by
    intro name p
    rw [inited_concat, or_iff_left]
    rintro ⟨rfl, hinit⟩
    rw [h] at hinit
    cases hinit
  simp only [LastTitled, hinited]

/-- A plugin whose turn comes after all others is the last of its title. -/
theorem lastTitled_concat_of_some {kv : String × PluginInfo} {plugin : InitedPlugin}
    {title title' : String} (hlast : ∀ kv' ∈ l, kv'.1 < kv.1)
    (h : (initContainer host kv.2 (interpreterAfter host py l)).1 = some plugin)
    (htitle' : plugin.getTitle = .ok title') :
    LastTitled host py (l ++ [kv]) title p ↔
      if title' = title then p = ⟨kv.2, plugin⟩ else LastTitled host py l title p := by
  have hinited : ∀ name p, Inited host py (l ++ [kv]) name p ↔
      Inited host py l name p ∨ (name = kv.1 ∧ p = ⟨kv.2, plugin⟩) := by
    intro name p
    rw [inited_concat]
    refine or_congr_right ⟨?_, ?_⟩
    · rintro ⟨rfl, hinit⟩
      refine ⟨rfl, ?_⟩
      rw [h] at hinit
      cases hinit
      rfl
    · rintro ⟨rfl, rfl⟩
      exact ⟨rfl, h⟩
  simp only [LastTitled, hinited]
  split
  · next heq =>
    subst heq
    constructor
    · rintro ⟨name, hinit | ⟨rfl, rfl⟩, -, hnone⟩
      · exact absurd htitle' (hnone kv.1 ⟨kv.2, plugin⟩ (hlast _ hinit.mem) (.inr ⟨rfl, rfl⟩))
      · rfl
    · rintro rfl
      refine ⟨kv.1, .inr ⟨rfl, rfl⟩, htitle', ?_⟩
      rintro name' p' hlt (hinit | ⟨rfl, -⟩)
      · exact absurd hlt (lt_asymm (hlast _ hinit.mem))
      · exact absurd hlt (lt_irrefl _)
  · next hne =>
    constructor
    · rintro ⟨name, hinit | ⟨rfl, rfl⟩, htitle, hnone⟩
      · exact ⟨name, hinit, htitle, fun name' p' hlt hinit' => hnone name' p' hlt (.inl hinit')⟩
      · rw [htitle'] at htitle
        exact absurd (Except.ok.inj htitle) hne
    · rintro ⟨name, hinit, htitle, hnone⟩
      refine ⟨name, .inl hinit, htitle, ?_⟩
      rintro name' p' hlt (hinit' | ⟨rfl, rfl⟩)
      · exact hnone name' p' hlt hinit'
      · rw [htitle']
        exact fun heq => hne (Except.ok.inj heq)

/-- The turns of a list whose names increase register what is initiated. -/
theorem registered_of_foldlM {s : State} (hsorted : l.Pairwise fun kv kv' => kv.1 < kv'.1)
    (h : l.foldlM (initPlugin host) { plugins := ∅, py } = .ok s) : Registered host py l s := by
  induction l using List.reverseRecOn generalizing s with
  | nil =>
    cases h
    refine ⟨rfl, fun title p => ?_, fun name p h => absurd h.mem (by simp)⟩
    rw [Std.ExtTreeMap.getElem?_empty]
    exact ⟨nofun, fun ⟨name, hinit, _⟩ => absurd hinit.mem (by simp)⟩
  | append_singleton l kv ih =>
    rw [List.pairwise_append] at hsorted
    obtain ⟨hsorted, -, hlt⟩ := hsorted
    have hlast : ∀ kv' ∈ l, kv'.1 < kv.1 := fun kv' hmem => hlt kv' hmem kv (by simp)
    rw [List.foldlM_append, except_bind_ok] at h
    obtain ⟨s₁, h₁, h⟩ := h
    rw [List.foldlM_cons, except_bind_ok] at h
    obtain ⟨s₂, h₂, h⟩ := h
    cases h
    obtain ⟨hinterpreter, hplugins, hcomplete⟩ := ih hsorted h₁
    obtain ⟨hpy, hcase⟩ := initPlugin_ok_iff.1 h₂
    rw [hinterpreter] at hpy hcase
    refine ⟨by rw [hpy, interpreterAfter_concat], fun title p => ?_, fun name p hinit => ?_⟩
    · rcases hcase with ⟨hnone, heq⟩ | ⟨plugin, container, hsome, hcontainer, heq⟩
      · rw [heq, hplugins, lastTitled_concat_of_none hnone]
      · rw [heq, lastTitled_concat_of_some hlast hsome (title_of_container hcontainer)]
        split
        · next htitle =>
          subst htitle
          rw [Std.ExtTreeMap.getElem?_insert_self, Option.some.injEq]
          exact eq_comm
        · next htitle => rw [TreeMap.getElem?_insert_of_ne htitle, hplugins]
    · rcases (inited_concat kv).1 hinit with hbefore | ⟨rfl, hturn⟩
      · exact hcomplete name p hbefore
      · rcases hcase with ⟨hnone, -⟩ | ⟨plugin, container, hsome, hcontainer, -⟩
        · rw [hturn] at hnone
          cases hnone
        · rw [hturn] at hsome
          cases hsome
          exact ⟨container, hcontainer⟩

/-- The turns of a list succeed if all plugins that are initiated have their attributes. -/
theorem foldlM_initPlugin_ok
    (h : ∀ name p, Inited host py l name p → ∃ container, p.container = .ok container) :
    ∃ s, l.foldlM (initPlugin host) { plugins := ∅, py } = .ok s ∧
      s.py = interpreterAfter host py l := by
  induction l using List.reverseRecOn with
  | nil => exact ⟨_, rfl, rfl⟩
  | append_singleton l kv ih =>
    obtain ⟨s₁, h₁, hinterpreter⟩ :=
      ih fun name p hinit => h name p ((inited_concat kv).2 (.inl hinit))
    have hturn : ∃ s₂, initPlugin host s₁ kv = .ok s₂ := by
      cases hinit : (initContainer host kv.2 s₁.py).1 with
      | none => exact ⟨⟨s₁.plugins, _⟩, initPlugin_ok_iff.2 ⟨rfl, .inl ⟨hinit, rfl⟩⟩⟩
      | some plugin =>
        obtain ⟨container, hcontainer⟩ := h kv.1 ⟨kv.2, plugin⟩
          ((inited_concat kv).2 (.inr ⟨rfl, by rw [← hinterpreter]; exact hinit⟩))
        exact ⟨⟨_, _⟩, initPlugin_ok_iff.2 ⟨rfl, .inr ⟨plugin, container, hinit, hcontainer, rfl⟩⟩⟩
    obtain ⟨s₂, h₂⟩ := hturn
    refine ⟨s₂, ?_, ?_⟩
    · rw [List.foldlM_append, except_bind_ok]
      refine ⟨s₁, h₁, ?_⟩
      rw [List.foldlM_cons, except_bind_ok]
      exact ⟨s₂, h₂, rfl⟩
    · rw [(initPlugin_ok_iff.1 h₂).1, hinterpreter, interpreterAfter_concat]

theorem sorted_toList (plugins : StrMap PluginInfo) :
    plugins.toList.Pairwise fun kv kv' => kv.1 < kv'.1 := by
  have hordered := Std.ExtTreeMap.ordered_keys_toList (t := plugins)
  exact hordered.imp fun h => compare_lt_iff_lt.1 h

/-- Loading succeeds if and only if all plugins that are initiated have their attributes, and then
registers under each title the one with the greatest name among those with the title. -/
theorem registered_iff (host : PluginHost) (py : Interpreter) (plugins : StrMap PluginInfo) :
    ((∃ s, initPlugins host py plugins = .ok s) ↔
      ∀ name p, Inited host py plugins.toList name p → ∃ container, p.container = .ok container) ∧
    ∀ s, initPlugins host py plugins = .ok s → ∀ (title : String) (p : LoadedPlugin),
      s.plugins[title]? = some p ↔ LastTitled host py plugins.toList title p := by
  refine ⟨⟨fun ⟨s, h⟩ => ?_, fun h => ?_⟩, fun s h => ?_⟩
  · exact (registered_of_foldlM (sorted_toList plugins) h).complete
  · obtain ⟨s, h, -⟩ := foldlM_initPlugin_ok h
    exact ⟨s, h⟩
  · exact (registered_of_foldlM (sorted_toList plugins) h).plugins

/-! ## Plugins to try these on -/

/-- A Python module with a plugin of the title. -/
def titledModule (title : String) : PythonModule where
  plugin := .ok { title := .ok title, autoInit := .ok false, maxCount := .ok (-1) }

/-- Two directories with a module of one name. -/
def referenceHost : PluginHost where
  dlopen _ := none
  builtinModule _ := none
  findModule dir moduleName :=
    if moduleName = "my_mail" then
      if dir = "/a" then some (.ok (titledModule "first"))
      else if dir = "/b" then some (.ok (titledModule "second"))
      else none
    else none

def referenceInterpreter : Interpreter where
  sysPath := []
  modules := ∅

/-- A Python plugin in the directory. -/
def pythonInfo (name path : String) : PluginInfo where
  name := name
  version := "1.0"
  typeStr := "python"
  type := .pythonPlugin
  path := path
  infoPath := "/plugins/" ++ name ++ ".yaml"

def referencePlugins : StrMap PluginInfo :=
  ((∅ : StrMap PluginInfo).insert "my-mail" (pythonInfo "my-mail" "/a")).insert "my_mail"
    (pythonInfo "my_mail" "/b")

theorem toList_referencePlugins : referencePlugins.toList =
    [("my-mail", pythonInfo "my-mail" "/a"), ("my_mail", pythonInfo "my_mail" "/b")] := by
  decide +kernel

/-! ## Looking plugins up -/

/-- Every registered plugin has the title under which it is registered. -/
def PluginManager.State.Titled (s : State) : Prop :=
  ∀ (title : String) (p : LoadedPlugin), s.plugins[title]? = some p →
    p.plugin.getTitle = .ok title

/-- The registered containers as the account operations see them. -/
def PluginManager.State.containers (s : State) : StrMap PluginContainer :=
  s.plugins.filterMap fun _ p => p.container.toOption

theorem getElem?_containers (s : State) (title : String) :
    s.containers[title]? = s.plugins[title]?.bind fun p => p.container.toOption :=
  Std.ExtTreeMap.getElem?_filterMap'

/-- The configuration of a service whose plugins are the registered ones. -/
def Config.withPlugins {Text : Type} (config : Config Text) (s : State) (h : s.Titled) :
    Config Text where
  __ := config
  registeredPlugins := s.containers
  title_registered title container hget := by
    rw [getElem?_containers, Option.bind_eq_some_iff] at hget
    obtain ⟨p, hp, hcontainer⟩ := hget
    have hok : p.container = .ok container := by
      cases hresult : p.container with
      | error e =>
        rw [hresult] at hcontainer
        cases hcontainer
      | ok container' =>
        rw [hresult] at hcontainer
        cases hcontainer
        rfl
    exact Except.ok.inj ((title_of_container hok).symm.trans (h title p hp))

theorem find_eq_lookup {l : List (String × LoadedPlugin)}
    (h : ∀ kv ∈ l, kv.2.plugin.getTitle = .ok kv.1) (pluginName : String) :
    PluginManager.find pluginName l = .ok (l.lookup pluginName) := by
  induction l with
  | nil => rfl
  | cons kv l ih =>
    obtain ⟨title, p⟩ := kv
    have htitle : p.plugin.getTitle = .ok title := h (title, p) (by simp)
    rw [PluginManager.find]
    dsimp only
    rw [htitle]
    by_cases heq : title = pluginName
    · subst heq
      rw [List.lookup_cons_self]
      simp only [bind, Except.bind, beq_self_eq_true, if_true]
      rfl
    · rw [List.lookup_cons, beq_eq_false_iff_ne.2 (Ne.symm heq)]
      simp only [bind, Except.bind, beq_iff_eq, if_neg heq]
      exact ih fun kv hmem => h kv (by simp [hmem])

theorem pluginNamed_eq {Text : Type} (env : Env Text) (pluginName : String) :
    env.pluginNamed pluginName = env.registeredPlugins[pluginName]? := by
  have hlookup : ∀ l : List (String × PluginContainer), (∀ kv ∈ l, kv.2.title = kv.1) →
      (l.find? fun kv => kv.2.title == pluginName).map Prod.snd = l.lookup pluginName := by
    intro l h
    induction l with
    | nil => rfl
    | cons kv l ih =>
      obtain ⟨title, container⟩ := kv
      have htitle : container.title = title := h (title, container) (by simp)
      by_cases heq : title = pluginName
      · subst heq
        rw [List.lookup_cons_self, List.find?_cons_of_pos (by simp [htitle])]
        rfl
      · rw [List.lookup_cons, beq_eq_false_iff_ne.2 (Ne.symm heq),
          List.find?_cons_of_neg (by simpa [htitle] using heq)]
        exact ih fun kv hmem => h kv (by simp [hmem])
  rw [Env.pluginNamed, hlookup, TreeMap.lookup_toList]
  exact TreeMap.forall_mem_toList.2 fun title container h => env.title_registered title container h

/-- After the plugins were loaded, `operator[]` finds exactly what is registered under the title, and
so does a service that runs with these plugins: a container if a plugin is registered. -/
theorem plugin_lookup {Text : Type} (config : Config Text) (answers : Answers Text)
    (host : PluginHost) (py : Interpreter) (plugins : StrMap PluginInfo) (s : State)
    (h : initPlugins host py plugins = .ok s) : ∃ htitled : s.Titled, ∀ pluginName : String,
      subscript s pluginName = .ok s.plugins[pluginName]? ∧
      ({ config.withPlugins s htitled, answers with } : Env Text).pluginNamed pluginName =
        (s.plugins[pluginName]?.bind fun p => p.container.toOption) ∧
      ∀ p, s.plugins[pluginName]? = some p → ∃ container, p.container = .ok container ∧
        ({ config.withPlugins s htitled, answers with } : Env Text).pluginNamed pluginName =
          some container := by
  have hregistered := registered_of_foldlM (sorted_toList plugins) h
  have htitled : s.Titled := by
    intro title p hp
    obtain ⟨name, -, htitle, -⟩ := (hregistered.plugins title p).1 hp
    exact htitle
  have hnamed : ∀ pluginName : String,
      ({ config.withPlugins s htitled, answers with } : Env Text).pluginNamed pluginName =
        s.plugins[pluginName]?.bind fun p => p.container.toOption := by
    intro pluginName
    rw [pluginNamed_eq]
    exact getElem?_containers s pluginName
  refine ⟨htitled, fun pluginName => ⟨?_, hnamed pluginName, fun p hp => ?_⟩⟩
  · rw [subscript, find_eq_lookup, TreeMap.lookup_toList]
    exact TreeMap.forall_mem_toList.2 htitled
  · obtain ⟨name, hinit, -⟩ := (hregistered.plugins pluginName p).1 hp
    obtain ⟨container, hcontainer⟩ := hregistered.complete name p hinit
    refine ⟨container, hcontainer, ?_⟩
    rw [hnamed, hp, Option.bind_some, hcontainer]
    rfl

/-- With two plugins of one title, the one that is registered is found. -/
theorem plugin_lookup_first : ∃ s, initPlugins referenceHost referenceInterpreter referencePlugins =
    .ok s ∧ ∃ p container, subscript s "first" = .ok (some p) ∧ p.container = .ok container := by
  obtain ⟨s, h⟩ : ∃ s, initPlugins referenceHost referenceInterpreter referencePlugins = .ok s := by
    rw [initPlugins, toList_referencePlugins]
    exact ⟨_, rfl⟩
  obtain ⟨_, hlookup⟩ := plugin_lookup referenceConfig referenceAnswers referenceHost
    referenceInterpreter referencePlugins s h
  obtain ⟨hsubscript, -, hcontainer⟩ := hlookup "first"
  have hsome : s.plugins["first"]?.isSome := by
    rw [initPlugins, toList_referencePlugins] at h
    cases h
    decide +kernel
  obtain ⟨p, hp⟩ := Option.isSome_iff_exists.1 hsome
  obtain ⟨container, hcontainer, -⟩ := hcontainer p hp
  exact ⟨s, h, p, container, by rw [hsubscript, hp], hcontainer⟩

/-! ## Python modules -/

end PxAccounts
