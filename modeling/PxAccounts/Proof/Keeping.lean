import PxAccounts.Proof.Defaults
import PxAccounts.Proof.Shelf

/-!
# Accounts and what plugins keep of them

The account files name the records of the plugins with a storage of their own.  A save puts its records
on the shelf and takes none away, and a deletion takes the records of its account only.
-/

namespace PxAccounts

open Effect Run AccountManager
open AccountService (assigned)

variable {Text : Type} {env : Env Text} {custom : Set String} {kept : Set PluginRecord}
  {shelf shelf' : Shelf} {acc : AccountObject} {id : Uuid}

/-! ## The account files -/

/-- The account in the file that is found under an id. -/
def accountAt (env : Env Text) (w : World Text) (id : Uuid) : Option AccountObject :=
  (findParser env w id false).bind fun p => (p.read env w id {}).toOption

theorem accountAt_eq_some_iff {w : World Text} : accountAt env w id = some acc ↔
    ∃ p, findParser env w id false = some p ∧ p.read env w id {} = .ok acc := by
  rw [accountAt, Option.bind_eq_some_iff]
  refine exists_congr fun p => and_congr_right fun _ => ?_
  cases p.read env w id {} <;> simp [Except.toOption]

theorem accountAt_congr {w w' : World Text} (h : w'.files = w.files) :
    accountAt env w' = accountAt env w := by
  funext id
  rw [accountAt, accountAt, findParser_of_files h]
  refine congrArg _ (funext fun p => ?_)
  rw [AccountParser.read_congr (World.fileAt_congr h _)]

/-- Whatever account there is has a file. -/
theorem stored_of_accountAt {w : World Text} (h : (accountAt env w id).isSome) : Stored env w id := by
  obtain ⟨acc, hacc⟩ := Option.isSome_iff_exists.1 h
  obtain ⟨p, hfind, hread⟩ := accountAt_eq_some_iff.1 hacc
  exact ⟨p, (findParser_some hfind).1, isSome_of_read hread⟩

theorem SavedVia.accountAt_eq {p : AccountParser} {act' : AccountObject} {event : String}
    {w w₁ w₂ w' : World Text} {b : Bool} (h : SavedVia env p act' event w w₁ w₂ w' b)
    (hd : Dependable env) : accountAt env w' = Function.update (accountAt env w) act'.id
      (some (AccountParser.stored env act')) := by
  have hfile : (w₁.written env (p.accountPath env act'.id) (documentText env act')).fileAt
      (p.accountPath env act'.id) = some (documentText env act') := fileAt_written_complete hd _
  rw [accountAt_congr h.files_eq, ← accountAt_congr h.files₁]
  funext id
  by_cases hid : id = act'.id
  · subst hid
    rw [Function.update_self]
    apply accountAt_eq_some_iff.2
    exact ⟨p, findParser_written h.notNull h.routed (by rw [hfile]; rfl),
      AccountParser.read_ok_iff.2 ⟨_, hfile, readText_document h.registered⟩⟩
  · rw [Function.update_of_ne hid, accountAt, accountAt, findParser_congr fun q _ =>
      AccountParser.hasAccount_written_of_ne rfl hid]
    refine congrArg _ (funext fun q => ?_)
    rw [AccountParser.read_congr (World.fileAt_written_of_ne _ _ (accountPath_ne hid))]

theorem accountAt_erased {w : World Text} (htidy : Tidy env w) {p : AccountParser}
    (hp : p ∈ env.parsers) (hex : (w.fileAt (p.accountPath env id)).isSome) :
    accountAt env (w.erased (p.accountPath env id)) = Function.update (accountAt env w) id none := by
  funext id'
  by_cases hid : id' = id
  · subst hid
    rw [Function.update_self, ← Option.not_isSome_iff_eq_none]
    intro hsome
    exact ((stored_erased htidy hp hex id').1 (stored_of_accountAt hsome)).1 rfl
  · rw [Function.update_of_ne hid, accountAt, accountAt, findParser_congr fun q _ =>
      AccountParser.hasAccount_erased_of_ne rfl hid]
    refine congrArg _ (funext fun q => ?_)
    rw [AccountParser.read_congr (World.fileAt_erased_of_ne _ (accountPath_ne hid))]

/-! ## Accounts with their records -/

/-- What the accounts name is on the shelf, and no record is named by two accounts. -/
structure Shelved (custom : Set String) (accounts : Uuid → Option AccountObject) (shelf : Shelf) :
    Prop where
  held : ∀ id acc, accounts id = some acc → shelf.Holds custom acc
  once : ∀ id acc id' acc' r, accounts id = some acc → accounts id' = some acc' →
    NamesRecord acc r → NamesRecord acc' r → r.plugin ∈ custom → id = id'

variable {accounts : Uuid → Option AccountObject}

theorem Shelved.grow (h : Shelved custom accounts shelf)
    (hkept : ∀ r params, shelf r = some params → shelf' r = some params) :
    Shelved custom accounts shelf' where
  held id acc hacc r hnames hcustom := by
    obtain ⟨params, hparams⟩ := Option.isSome_iff_exists.1 (h.held id acc hacc r hnames hcustom)
    rw [hkept r params hparams]
    rfl
  once := h.once

/-- An account is saved with records that were not on the shelf. -/
theorem Shelved.save (h : Shelved custom accounts shelf)
    (hkept : ∀ r params, shelf r = some params → shelf' r = some params)
    (hheld : shelf'.Holds custom acc)
    (hfresh : ∀ r, NamesRecord acc r → r.plugin ∈ custom → shelf r = none) :
    Shelved custom (Function.update accounts id (some acc)) shelf' := by
  have hother : ∀ {id' acc'}, id' ≠ id → accounts id' = some acc' → ∀ r, NamesRecord acc r →
      NamesRecord acc' r → r.plugin ∉ custom := by
    intro id' acc' _ hacc' r hnames hnames' hcustom
    have hsome := h.held id' acc' hacc' r hnames' hcustom
    rw [hfresh r hnames hcustom] at hsome
    cases hsome
  constructor
  · intro id' acc' hacc'
    by_cases hid : id' = id
    · subst hid
      rw [Function.update_self] at hacc'
      cases hacc'
      exact hheld
    · rw [Function.update_of_ne hid] at hacc'
      exact (h.grow hkept).held id' acc' hacc'
  · intro id₁ acc₁ id₂ acc₂ r h₁ h₂ hnames₁ hnames₂ hcustom
    by_cases hid₁ : id₁ = id <;> by_cases hid₂ : id₂ = id
    · rw [hid₁, hid₂]
    · subst hid₁
      rw [Function.update_self] at h₁
      rw [Function.update_of_ne hid₂] at h₂
      cases h₁
      exact absurd hcustom (hother hid₂ h₂ r hnames₁ hnames₂)
    · subst hid₂
      rw [Function.update_of_ne hid₁] at h₁
      rw [Function.update_self] at h₂
      cases h₂
      exact absurd hcustom (hother hid₁ h₁ r hnames₂ hnames₁)
    · rw [Function.update_of_ne hid₁] at h₁
      rw [Function.update_of_ne hid₂] at h₂
      exact h.once id₁ acc₁ id₂ acc₂ r h₁ h₂ hnames₁ hnames₂ hcustom

/-- An account goes, and at most its own records with it. -/
theorem Shelved.erase (h : Shelved custom accounts shelf) (hacc : accounts id = some acc)
    (hkept : ∀ r, ¬NamesRecord acc r → ∀ params, shelf r = some params → shelf' r = some params) :
    Shelved custom (Function.update accounts id none) shelf' := by
  have hstays : ∀ {id' acc'}, Function.update accounts id none id' = some acc' →
      id' ≠ id ∧ accounts id' = some acc' := by
    intro id' acc' h'
    by_cases hid : id' = id
    · subst hid
      rw [Function.update_self] at h'
      cases h'
    · rw [Function.update_of_ne hid] at h'
      exact ⟨hid, h'⟩
  constructor
  · intro id' acc' h' r hnames hcustom
    obtain ⟨hid, hacc'⟩ := hstays h'
    obtain ⟨params, hparams⟩ := Option.isSome_iff_exists.1 (h.held id' acc' hacc' r hnames hcustom)
    rw [hkept r (fun hnames' => hid (h.once id' acc' id acc r hacc' hacc hnames hnames' hcustom))
      params hparams]
    rfl
  · intro id₁ acc₁ id₂ acc₂ r h₁ h₂
    exact h.once id₁ acc₁ id₂ acc₂ r (hstays h₁).2 (hstays h₂).2

/-- An account is shown as before when its records are kept. -/
theorem shown_congr (hown : shelf.Own custom) (hown' : shelf'.Own custom)
    (hheld : shelf.Holds custom acc) (hkept : ∀ r, NamesRecord acc r → r.plugin ∈ custom →
      ∀ params, shelf r = some params → shelf' r = some params) :
    AccountEntry.shown shelf' acc = AccountEntry.shown shelf acc := by
  have hparams : ∀ (name : String) (svc : AccountService), acc.services[name]? = some svc →
      shelf'.params name svc = shelf.params name svc := by
    intro name svc hsvc
    unfold Shelf.params
    cases hid : svc.params[pluginIdParam]? with
    | none => rfl
    | some id =>
      rw [Option.bind_some, Option.bind_some]
      by_cases hcustom : name ∈ custom
      · have hnames : NamesRecord acc { plugin := name, id } := ⟨svc, hsvc, hid⟩
        obtain ⟨params, hr⟩ := Option.isSome_iff_exists.1 (hheld _ hnames hcustom)
        rw [hr, hkept _ hnames hcustom params hr]
      · rw [Option.not_isSome_iff_eq_none.1 fun hr => hcustom (hown _ hr),
          Option.not_isSome_iff_eq_none.1 fun hr => hcustom (hown' _ hr)]
  unfold AccountEntry.shown
  refine congrArg (fun services => { AccountEntry.of acc with services }) (funext fun name => ?_)
  refine Option.map_congr fun svc hsvc => ?_
  rw [hparams name svc hsvc]

/-- What is shown of the accounts. -/
def Shelf.entries (shelf : Shelf) (accounts : Uuid → Option AccountObject) : AccountMap := fun id =>
  (accounts id).map (AccountEntry.shown shelf)

theorem entries_congr (hshown : ∀ id acc, accounts id = some acc →
    AccountEntry.shown shelf' acc = AccountEntry.shown shelf acc) :
    shelf'.entries accounts = shelf.entries accounts := by
  funext id
  exact Option.map_congr fun acc hacc => hshown id acc hacc

theorem entries_update (shelf : Shelf) {changed : Option AccountObject} (hshown : ∀ id' acc, id' ≠ id →
    accounts id' = some acc → AccountEntry.shown shelf' acc = AccountEntry.shown shelf acc) :
    shelf'.entries (Function.update accounts id changed) =
      Function.update (shelf.entries accounts) id (changed.map (AccountEntry.shown shelf')) := by
  funext id'
  unfold Shelf.entries
  by_cases hid : id' = id
  · subst hid
    rw [Function.update_self, Function.update_self]
  · rw [Function.update_of_ne hid, Function.update_of_ne hid]
    exact Option.map_congr fun acc hacc => hshown id' acc hid hacc

/-! ## Saves -/

/-- The plugin of a service is asked about the parameters of the account, and about the defaults of its
provider for those that it lacks. -/
def Asks (env : Env Text) (act : AccountObject) (name : String) (given : StrStrMap) : Prop :=
  ∀ key : String, given[key]? = (act.services[name]?.bind fun svc => svc.params[key]?).or
    (if act.provider = "" then none
    else env.providers[act.provider]?.bind fun provider =>
      provider.plugins[name]?.bind fun defaults => defaults[key]?)

/-- In these calls the plugin of a service accepted the given parameters, and these are the unprotected
ones of its answer. -/
def AcceptedAs (calls : List (Call Text)) (name : String) (given : StrStrMap)
    (params : String → Option String) : Prop :=
  ∃ result, Call.verify name given (.returned result) ∈ calls ∧ result.verified = true ∧
    params = unprotectedParams result.params

/-- In these calls the plugin of a service accepted the given parameters, and kept these under the id. -/
def Recorded (calls : List (Call Text)) (name id : String) (given : StrStrMap)
    (params : String → Option String) : Prop :=
  ∃ result loaded aResult, Call.verify name given (.returned result) ∈ calls ∧
    result.verified = true ∧ List.Forall₂ AccountService.Loaded result.params loaded ∧
    Call.write name { result with params := loaded } aResult (some (.returned id)) ∈ calls ∧
    params = fun key => (lastParam loaded key).map ServiceParam.val

/-- The parameters of a service whose plugin keeps them under the id. -/
def idOnly (id : String) : StrStrMap := (∅ : StrStrMap).insert pluginIdParam id

/-- The entry that a save of `act` makes, with plugins of `custom` that keep the parameters. -/
structure AccountEntry.SavedBy (env : Env Text) (custom : Set String) (act : AccountObject)
    (calls : List (Call Text)) (entry : AccountEntry) : Prop where
  title : entry.title = act.title
  provider : entry.provider = act.provider
  isActive : entry.isActive = act.isActive
  settings : entry.settings = act.settings
  names : ∀ name : String, (entry.services name).isSome ↔ name ∈ act.services
  verified : ∀ name params, entry.services name = some params → name ∉ custom →
    ∃ given, Asks env act name given ∧ AcceptedAs calls name given params
  recorded : ∀ name params, entry.services name = some params → name ∈ custom →
    ∃ given id, Asks env act name given ∧ Recorded calls name id given params

theorem AccountEntry.SavedBy.of_id {act : AccountObject} {calls : List (Call Text)}
    {entry : AccountEntry} (h : entry.SavedBy env custom { act with id } calls) :
    entry.SavedBy env custom act calls :=
  ⟨h.title, h.provider, h.isActive, h.settings, h.names, h.verified, h.recorded⟩

/-- An account in the reply to a save: at least the parameters of the entry, and of a service whose
plugin keeps them only the id. -/
structure AccountEntry.Shows (custom : Set String) (calls : List (Call Text))
    (shown entry : AccountEntry) : Prop where
  title : shown.title = entry.title
  provider : shown.provider = entry.provider
  isActive : shown.isActive = entry.isActive
  settings : shown.settings = entry.settings
  names : ∀ name, (shown.services name).isSome ↔ (entry.services name).isSome
  params : ∀ name params params', entry.services name = some params →
    shown.services name = some params' → name ∉ custom →
    ∀ key val, params key = some val → params' key = some val
  record : ∀ name params params', entry.services name = some params →
    shown.services name = some params' → name ∈ custom →
    ∃ given id, Recorded calls name id given params ∧ params' = fun key => (idOnly id)[key]?

theorem callsOf_between {P : Call Text → Prop} {w s s' w' : World Text} (h : (callsOf P).rel w w')
    (hs : w.calls <+: s.calls) (hss : s.calls <+: s'.calls) (hs' : s'.calls <+: w'.calls) :
    (callsOf P).rel s s' := by
  obtain ⟨cs, hcs, hP⟩ := h
  obtain ⟨before, hbefore⟩ := hs
  obtain ⟨between, hbetween⟩ := hss
  obtain ⟨after, hafter⟩ := hs'
  have hsplit : cs = before ++ between ++ after := by
    have hcalls : w.calls ++ cs = w.calls ++ (before ++ between ++ after) := by
      rw [← hcs, ← hafter, ← hbetween, ← hbefore]
      simp
    exact List.append_cancel_left hcalls
  refine ⟨between, hbetween.symm, fun c hc => hP c ?_⟩
  simp [hsplit, hc]

/-- The services that are verified have the parameters that their plugins are asked about. -/
theorem asks_prepared {act : AccountObject} {name : String} {svc : AccountService}
    (h : (AccountObject.prepared env act).services[name]? = some svc) :
    Asks env act name svc.params := by
  intro key
  set act₀ : AccountObject := { act with errors := [] } with hact₀
  have hservices : act.services = act₀.services := rfl
  have hprovider₀ : act.provider = act₀.provider := rfl
  unfold AccountObject.prepared at h
  rw [← hact₀] at h
  rw [hservices, hprovider₀]
  rw [hprovider₀] at h
  clear_value act₀
  by_cases hempty : act₀.provider = ""
  · rw [if_pos (by rw [hempty]; rfl)] at h
    rw [if_pos hempty, h, Option.or_none]
    rfl
  · rw [if_neg (by simpa using hempty)] at h
    rw [if_neg hempty]
    cases hprovider : env.providers[act₀.provider]? with
    | none =>
      rw [AccountObject.appendProviderParams, hprovider] at h
      have hsvc : act₀.services[name]? = some svc := h
      rw [hsvc, Option.bind_none, Option.or_none]
      rfl
    | some provider =>
      rw [AccountObject.getElem?_appendProviderParams hprovider] at h
      obtain ⟨svc₀, hsvc₀, rfl⟩ := Option.map_eq_some_iff.1 h
      rw [(AccountObject.withDefaults_union provider name svc₀).2, hsvc₀]
      rfl

/-- The custom write makes one call. -/
theorem calls_of_customWrite {vResult : VerifyResult} {aResult : AuthResult}
    {svc svc' : AccountService} {plugin : PluginContainer} {w w' : World Text}
    (hr : (svc.customWrite env vResult aResult).run w = .ok svc' w')
    (hplugin : svc.plugin = some plugin) : w'.calls = w.calls ++
      [.write plugin.title vResult aResult (env.write w.tick plugin vResult aResult w.records).1] := by
  simp only [AccountService.customWrite] at hr
  obtain ⟨plugin', w₁, hderef, hr⟩ := run_bind_ok.1 hr
  obtain ⟨hp, rfl⟩ := AccountService.derefPlugin_ok hderef
  cases hplugin.symm.trans hp
  obtain ⟨result, w₁, hwrite, hr⟩ := run_bind_ok.1 hr
  have hw₁ : w₁.calls = w.calls ++
      [.write plugin.title vResult aResult (env.write w.tick plugin vResult aResult w.records).1] := by
    simp only [PluginContainer.write, run_bind_ok, run_pure_ok, Env.callWrite,
      run_modifyGet_ok] at hwrite
    obtain ⟨answer, s, ⟨rfl, rfl⟩, -, rfl⟩ := hwrite
    rfl
  rw [← hw₁]
  cases result with
  | ok pluginId =>
    cases hr
    rfl
  | error errMsg =>
    dsimp only at hr
    split at hr <;> cases hr <;> rfl

/-- What a verification makes of a service whose plugin keeps the parameters. -/
theorem recorded_of_verify {act act' : AccountObject} {w w' : World Text}
    (hr : (act.verify env).run w = .ok (true, act') w') (hinit : AllInited env act.services)
    (hserved : Served custom w') {name : String} {svc' : AccountService}
    (hsvc' : act'.services[name]? = some svc') (hcustom : name ∈ custom) :
    ∃ given id params, Asks env act name given ∧ svc'.params = idOnly id ∧
      (AccountParser.storedService env name svc').params = idOnly id ∧
      Recorded (w.newCalls w') name id given (fun key => params[key]?) ∧
      shelfAt w { plugin := name, id } = none ∧
      shelfAt w' { plugin := name, id } = some params := by
  obtain ⟨svc, plugin, vResult, loaded, aResult, errs, s₁, s', hby⟩ :=
    writtenBy_of_verify hr hinit hsvc'
  have hplugin : (svc.verifiedAs loaded errs).plugin = some plugin :=
    (congrArg (·.2.2.1) (AccountService.link_verifiedAs svc loaded errs)).trans hby.plugin_eq
  have hcalls := calls_of_customWrite hby.run_eq hplugin
  have hleaving : (leaving Set.univ).rel w w' := (leaving_verify act).rel_of_ok hr
  have hgrow : s₁.calls <+: s'.calls := hcalls ▸ List.prefix_append _ _
  have hs' : Served custom s' := hserved.of_prefix hby.after
  have hanswers := hs'.of_record hcalls
  rw [hby.title_eq] at hanswers hcalls
  obtain ⟨id, hid, hfresh⟩ := hanswers.1 hcustom
  rw [hid] at hcalls
  obtain ⟨plugin', hp, -, ⟨pluginId, hanswer, rfl⟩ | ⟨hnone, -⟩⟩ :=
    AccountService.customWrite_ok hby.run_eq
  · cases hplugin.symm.trans hp
    cases hid.symm.trans hanswer
    have hkept : shelfAt s' { plugin := name, id } = some (assigned ServiceParam.val loaded) := by
      rw [shelfAt_append hcalls]
      exact Function.update_self _ _ _
    refine ⟨svc.params, id, assigned ServiceParam.val loaded, asks_prepared hby.svc_eq, rfl, ?_, ?_,
      ?_, ?_⟩
    · apply Std.ExtTreeMap.ext_getElem?
      intro key
      apply Option.ext
      intro val
      rw [AccountParser.storedService_params]
      simp [AccountService.withPluginId, AccountService.isProtected, AccountService.clearService,
        idOnly]
    · refine ⟨vResult, loaded, aResult, hby.called, hby.verified, hby.loaded, ?_,
        funext fun key => assigned_getElem? _ _ _⟩
      apply World.newCalls_mono_right hby.after
      apply World.newCalls_mono_left hby.before
      exact World.mem_newCalls_of_prefix (hcalls ▸ List.prefix_refl _)
    · rw [← Option.not_isSome_iff_eq_none]
      intro hsome
      obtain ⟨params, hparams⟩ := Option.isSome_iff_exists.1 hsome
      have hbefore : (leaving Set.univ).rel w s₁ :=
        callsOf_between hleaving (List.prefix_refl _) hby.before (hgrow.trans hby.after)
      rw [kept_of_leaving hbefore (hs'.of_prefix hgrow) trivial hparams] at hfresh
      cases hfresh
    · have hafter : (leaving Set.univ).rel s' w' :=
        callsOf_between hleaving (hby.before.trans hgrow) hby.after (List.prefix_refl _)
      exact kept_of_leaving hafter hserved trivial hkept
  · cases hplugin.symm.trans hp
    exact absurd hid (hnone id)

/-- What a verification makes of a service whose plugin keeps nothing. -/
theorem verified_of_verify {act act' : AccountObject} {w w' : World Text}
    (hr : (act.verify env).run w = .ok (true, act') w') (hinit : AllInited env act.services)
    (hserved : Served custom w') {name : String} {svc' : AccountService}
    (hsvc' : act'.services[name]? = some svc') (hcustom : name ∉ custom) :
    ∃ given, Asks env act name given ∧ AcceptedAs (w.newCalls w') name given
      fun key => (AccountParser.storedService env name svc').params[key]? := by
  obtain ⟨svc, plugin, vResult, loaded, aResult, errs, s₁, s', hby⟩ :=
    writtenBy_of_verify hr hinit hsvc'
  have hplugin : (svc.verifiedAs loaded errs).plugin = some plugin :=
    (congrArg (·.2.2.1) (AccountService.link_verifiedAs svc loaded errs)).trans hby.plugin_eq
  have hanswers := (hserved.of_prefix hby.after).of_record (calls_of_customWrite hby.run_eq hplugin)
  rw [hby.title_eq] at hanswers
  obtain ⟨plugin', hp, -, ⟨pluginId, hanswer, -⟩ | ⟨-, rfl⟩⟩ :=
    AccountService.customWrite_ok hby.run_eq
  · cases hplugin.symm.trans hp
    exact absurd hanswer (hanswers.2 hcustom pluginId)
  · refine ⟨svc.params, asks_prepared hby.svc_eq, vResult, hby.called, hby.verified,
      funext fun key => ?_⟩
    rw [storedService_verifiedAs, unprotectedParams_loaded hby.loaded]

/-- What the plugins made of the services of an account that was verified. -/
structure Settled (env : Env Text) (custom : Set String) (act act' : AccountObject)
    (w w' : World Text) : Prop where
  verified : ∀ (name : String) (svc' : AccountService), act'.services[name]? = some svc' →
    name ∉ custom → ∃ given, Asks env act name given ∧ AcceptedAs (w.newCalls w') name given
      fun key => (AccountParser.storedService env name svc').params[key]?
  recorded : ∀ (name : String) (svc' : AccountService), act'.services[name]? = some svc' →
    name ∈ custom → ∃ given id params, Asks env act name given ∧ svc'.params = idOnly id ∧
      (AccountParser.storedService env name svc').params = idOnly id ∧
      Recorded (w.newCalls w') name id given (fun key => params[key]?) ∧
      shelfAt w { plugin := name, id } = none ∧
      shelfAt w' { plugin := name, id } = some params

theorem settled_of_verify {act act' : AccountObject} {w w₁ w₂ w' : World Text}
    (hr : (act.verify env).run w₁ = .ok (true, act') w₂) (hinit : AllInited env act.services)
    (hleaving : (leaving Set.univ).rel w w') (hbefore : w.calls <+: w₁.calls)
    (hafter : w₂.calls <+: w'.calls) (hserved : Served custom w') :
    Settled env custom act act' w w' := by
  have hgrow : w₁.calls <+: w₂.calls := (AccountObject.calls_verify _).rel_of_ok hr
  have hserved₂ : Served custom w₂ := hserved.of_prefix hafter
  have hcalls : ∀ {c : Call Text}, c ∈ w₁.newCalls w₂ → c ∈ w.newCalls w' := fun h =>
    World.newCalls_mono_right hafter (World.newCalls_mono_left hbefore h)
  constructor
  · intro name svc' hsvc' hname
    obtain ⟨given, hasks, result, hverify, hrest⟩ := verified_of_verify hr hinit hserved₂ hsvc' hname
    exact ⟨given, hasks, result, hcalls hverify, hrest⟩
  · intro name svc' hsvc' hname
    obtain ⟨given, id, params, hasks, hparams, hstored, ⟨result, loaded, aResult, hverify, hok, hloaded,
      hwrite, hval⟩, hnone, hsome⟩ := recorded_of_verify hr hinit hserved₂ hsvc' hname
    refine ⟨given, id, params, hasks, hparams, hstored,
      ⟨result, loaded, aResult, hcalls hverify, hok, hloaded, hcalls hwrite, hval⟩, ?_, ?_⟩
    · rw [← Option.not_isSome_iff_eq_none]
      intro hold
      obtain ⟨params', hold⟩ := Option.isSome_iff_exists.1 hold
      have hleaving₁ : (leaving Set.univ).rel w w₁ :=
        callsOf_between hleaving (List.prefix_refl _) hbefore (hgrow.trans hafter)
      rw [kept_of_leaving hleaving₁ (hserved₂.of_prefix hgrow) trivial hold] at hnone
      cases hnone
    · have hleaving₂ : (leaving Set.univ).rel w₂ w' :=
        callsOf_between hleaving (hbefore.trans hgrow) hafter (List.prefix_refl _)
      exact kept_of_leaving hleaving₂ hserved trivial hsome

/-- What is shown of a service with the file of the account. -/
theorem shown_stored_services (act : AccountObject) (name : String) :
    (AccountEntry.shown shelf (AccountParser.stored env act)).services name =
      act.services[name]?.map fun svc key =>
        (shelf.params name (AccountParser.storedService env name svc))[key]? := by
  show ((AccountParser.stored env act).services[name]?).map _ = _
  rw [AccountParser.stored_services_getElem?, Option.map_map]
  rfl

theorem getElem?_idOnly_self (id : String) : (idOnly id)[pluginIdParam]? = some id :=
  Std.ExtTreeMap.getElem?_insert_self

theorem params_of_idOnly {name : String} {svc : AccountService} {id : String} {params : StrStrMap}
    (hsvc : svc.params = idOnly id) (hr : shelf { plugin := name, id } = some params) :
    shelf.params name svc = params := by
  rw [Shelf.params, hsvc, getElem?_idOnly_self, Option.bind_some, hr]
  rfl

theorem params_of_notCustom {name : String} (hown : shelf.Own custom) (hname : name ∉ custom)
    (svc : AccountService) : shelf.params name svc = svc.params := by
  have hnone : ∀ id, shelf { plugin := name, id } = none := fun id =>
    Option.not_isSome_iff_eq_none.1 fun hr => hname (hown _ hr)
  unfold Shelf.params
  cases svc.params[pluginIdParam]? with
  | none => rfl
  | some id => simp [hnone id]

section Settled

variable {act act' : AccountObject} {w w' : World Text}

theorem Settled.savedBy (h : Settled env custom act act' w w') (hown : (shelfAt w').Own custom)
    (hdetails : act' = { act with services := act'.services, errors := act'.errors })
    (hnames : ∀ name : String, name ∈ act'.services ↔ name ∈ act.services) :
    (AccountEntry.shown (shelfAt w') (AccountParser.stored env act')).SavedBy env custom act
      (w.newCalls w') where
  title := (congrArg AccountObject.title hdetails :)
  provider := (congrArg AccountObject.provider hdetails :)
  isActive := (congrArg AccountObject.isActive hdetails :)
  settings := (congrArg AccountObject.settings hdetails :)
  names name := by
    rw [shown_stored_services, Option.isSome_map, ← Std.ExtTreeMap.mem_iff_isSome_getElem?, hnames]
  verified name params hget hname := by
    rw [shown_stored_services] at hget
    obtain ⟨svc', hsvc', rfl⟩ := Option.map_eq_some_iff.1 hget
    rw [params_of_notCustom hown hname]
    exact h.verified name svc' hsvc' hname
  recorded name params hget hname := by
    rw [shown_stored_services] at hget
    obtain ⟨svc', hsvc', rfl⟩ := Option.map_eq_some_iff.1 hget
    obtain ⟨given, id, params, hasks, -, hstored, hrec, -, hsome⟩ := h.recorded name svc' hsvc' hname
    rw [params_of_idOnly hstored hsome]
    exact ⟨given, id, hasks, hrec⟩

theorem Settled.shows (h : Settled env custom act act' w w') (hown : (shelfAt w').Own custom) :
    (AccountEntry.of act').Shows custom (w.newCalls w')
      (AccountEntry.shown (shelfAt w') (AccountParser.stored env act')) where
  title := rfl
  provider := rfl
  isActive := rfl
  settings := rfl
  names name := by
    rw [shown_stored_services, AccountEntry.of, Option.isSome_map, Option.isSome_map]
  params name params params' hget hget' hname key val hval := by
    rw [shown_stored_services] at hget
    obtain ⟨svc', hsvc', rfl⟩ := Option.map_eq_some_iff.1 hget
    obtain ⟨svc, hsvc, rfl⟩ := Option.map_eq_some_iff.1 hget'
    cases hsvc'.symm.trans hsvc
    rw [params_of_notCustom hown hname] at hval
    exact ((AccountParser.storedService_params name svc' key val).1 hval).1
  record name params params' hget hget' hname := by
    rw [shown_stored_services] at hget
    obtain ⟨svc', hsvc', rfl⟩ := Option.map_eq_some_iff.1 hget
    obtain ⟨svc, hsvc, rfl⟩ := Option.map_eq_some_iff.1 hget'
    cases hsvc'.symm.trans hsvc
    obtain ⟨given, id, params, -, hparams, hstored, hrec, -, hsome⟩ := h.recorded name svc' hsvc' hname
    rw [params_of_idOnly hstored hsome, hparams]
    exact ⟨given, id, hrec, rfl⟩

/-- The records that the file names were made in the save. -/
theorem Settled.records (h : Settled env custom act act' w w') {r : PluginRecord}
    (hnames : NamesRecord (AccountParser.stored env act') r) (hcustom : r.plugin ∈ custom) :
    shelfAt w r = none ∧ (shelfAt w' r).isSome := by
  obtain ⟨svc, hsvc, hid⟩ := hnames
  rw [AccountParser.stored_services_getElem?] at hsvc
  obtain ⟨svc', hsvc', rfl⟩ := Option.map_eq_some_iff.1 hsvc
  obtain ⟨-, id, params, -, -, hstored, -, hnone, hsome⟩ := h.recorded r.plugin svc' hsvc' hcustom
  rw [hstored, getElem?_idOnly_self, Option.some.injEq] at hid
  rw [hid] at hnone hsome
  exact ⟨hnone, hsome ▸ rfl⟩

end Settled

/-! ## Deletions -/

/-- The removal of a service hands its id, if it has one, to the plugin. -/
theorem performServiceCustomRemoval_ok {svc : AccountService} {name : String} {b : Bool}
    {w w' : World Text} (hr : (svc.performServiceCustomRemoval env).run w = .ok b w')
    (hlinked : svc.LinkedAs env name) :
    (svc.params[pluginIdParam]? = none ∧ b = true ∧ w' = w) ∨
      ∃ id answer, svc.params[pluginIdParam]? = some id ∧
        w'.calls = w.calls ++ [.remove name id answer] ∧
        (b = false → answer = some (.returned false)) := by
  rw [AccountService.performServiceCustomRemoval] at hr
  cases hparam : svc.params[pluginIdParam]? with
  | none =>
    rw [hparam, run_pure_ok] at hr
    exact .inl ⟨rfl, hr.1.symm, hr.2.symm⟩
  | some id =>
    simp only [hparam] at hr
    obtain ⟨plugin, w₁, hderef, hr⟩ := run_bind_ok.1 hr
    obtain ⟨hplugin, rfl⟩ := AccountService.derefPlugin_ok hderef
    obtain rfl : plugin.title = name := hlinked.title_eq hplugin
    obtain ⟨result, w₂, hremove, hr⟩ := run_bind_ok.1 hr
    obtain ⟨hresult, hcalls⟩ : result = plugin.optionalResult "remove not found"
        (env.remove w.tick plugin id w.records).1 ∧ w₂.calls = w.calls ++
          [.remove plugin.title id (env.remove w.tick plugin id w.records).1] := by
      cases hremove
      exact ⟨rfl, rfl⟩
    refine .inr ⟨id, (env.remove w.tick plugin id w.records).1, rfl, ?_, fun hb => ?_⟩
    · cases result <;> cases hr <;> exact hcalls
    · cases result with
      | error what =>
        cases hr
        cases hb
      | ok removed =>
        cases hr
        cases hb
        exact (AccountService.optionalResult_ok_iff plugin _).1 hresult.symm

/-- A service whose record is on the shelf is removed, and the records of other plugins stay. -/
theorem removed_of_held {svc : AccountService} {name : String} (hlinked : svc.LinkedAs env name)
    {w w' : World Text} (hheld : name ∈ custom → ∀ id, svc.params[pluginIdParam]? = some id →
      (shelfAt w { plugin := name, id }).isSome)
    {removed : Bool} (hr : (svc.performServiceCustomRemoval env).run w = .ok removed w')
    (hserved : Served custom w') :
    removed = true ∧ (leaving {r | r.plugin ≠ name}).rel w w' := by
  rcases performServiceCustomRemoval_ok hr hlinked with ⟨-, rfl, rfl⟩ | ⟨id, answer, hid, hcalls, hb⟩
  · exact ⟨rfl, (leaving _).refl w'⟩
  · have hanswers := hserved.of_record hcalls
    constructor
    · cases removed with
      | true => rfl
      | false =>
        obtain rfl := hb rfl
        by_cases hcustom : name ∈ custom
        · cases hanswers.1 hcustom (hheld hcustom id hid)
        · exact absurd rfl (hanswers.2 hcustom false)
    · refine callsOf_record hcalls fun r htaken hmem => ?_
      unfold Call.taken at htaken
      split at htaken
      · next heq =>
        cases heq
        cases htaken
        exact hmem rfl
      · cases htaken

/-- The removal of services whose records are on the shelf ends with the last one. -/
theorem removeServices_of_held {l : List (String × AccountService)}
    (hlinked : ∀ kv ∈ l, kv.2.LinkedAs env kv.1) (hnodup : (l.map Prod.fst).Nodup)
    {w w' : World Text} (hheld : ∀ kv ∈ l, kv.1 ∈ custom → ∀ id,
      kv.2.params[pluginIdParam]? = some id → (shelfAt w { plugin := kv.1, id }).isSome)
    {r : Option AccountService}
    (hr : (AccountObject.removeServices env (l.map Prod.snd)).run w = .ok r w')
    (hserved : Served custom w') : r = none := by
  induction l generalizing w with
  | nil =>
    cases hr
    rfl
  | cons kv l ih =>
    obtain ⟨removed, w₁, hremove, hr⟩ := run_bind_ok.1 hr
    have hgrow : w₁.calls <+: w'.calls := by
      have hwithin : Within callsFrame (if removed then AccountObject.removeServices env
          (l.map Prod.snd) else pure (some kv.2) : M Text (Option AccountService)) :=
        within_ite (fun _ => AccountObject.within_removeServices
          (fun _ _ _ => List.prefix_append _ _) _) fun _ => within_pure _
      exact hwithin.rel_of_ok hr
    have hserved₁ : Served custom w₁ := hserved.of_prefix hgrow
    obtain ⟨hremoved, hleaving⟩ : removed = true ∧
        (leaving {r | r.plugin ≠ kv.1}).rel w w₁ :=
      removed_of_held (hlinked kv (by simp)) (hheld kv (by simp)) hremove hserved₁
    subst hremoved
    rw [List.map_cons, List.nodup_cons] at hnodup
    refine ih (fun kv' hkv' => hlinked kv' (by simp [hkv'])) hnodup.2
      (fun kv' hkv' hcustom id hid => ?_) hr
    obtain ⟨params, hparams⟩ :=
      Option.isSome_iff_exists.1 (hheld kv' (by simp [hkv']) hcustom id hid)
    have hne : kv'.1 ≠ kv.1 := fun he => hnodup.1 (he ▸ List.mem_map_of_mem hkv')
    rw [kept_of_leaving hleaving hserved₁ hne hparams]
    rfl

/-- The removal of an account whose records are on the shelf succeeds. -/
theorem performAccountRemoval_of_held {act act' : AccountObject} {b : Bool} {w w' : World Text}
    (hr : (act.performAccountRemoval env).run w = .ok (b, act') w')
    (hinit : AllInited env act.services) (hheld : (shelfAt w).Holds custom act)
    (hserved : Served custom w') : b = true := by
  simp only [AccountObject.performAccountRemoval] at hr
  obtain ⟨r, w₁, hservices, hr⟩ := run_bind_ok.1 hr
  have hsvc : ∀ kv ∈ act.services.toList, act.services[kv.1]? = some kv.2 := fun kv hkv =>
    Std.ExtTreeMap.mem_toList_iff_getElem?_eq_some.1 hkv
  have hgrow : w₁.calls <+: w'.calls := by
    cases r with
    | some svc =>
      cases hr
      exact List.prefix_refl _
    | none =>
      have hwithin : Within callsFrame (do
          if ← SecretManager.removeAccount env act.id then
            return (true, act)
          else
            return (true, act.addError "Could not remove account secrets.") :
              M Text (Bool × AccountObject)) :=
        Within.bind (Within.bind (fun _ => List.prefix_append _ _) fun _ => within_pure _)
          fun _ => within_ite (fun _ => within_pure _) fun _ => within_pure _
      exact hwithin.rel_of_ok hr
  obtain rfl : r = none := removeServices_of_held (fun kv hkv => hinit kv.1 kv.2 (hsvc kv hkv))
    (TreeMap.nodup_keys_toList _)
    (fun kv hkv hcustom id hid => hheld _ ⟨kv.2, hsvc kv hkv, hid⟩ hcustom) hservices
    (hserved.of_prefix hgrow)
  obtain ⟨removed, w₂, -, hr⟩ := run_bind_ok.1 hr
  split at hr <;> cases hr <;> rfl

theorem remove_of_isSome (hd : Dependable env) {p : AccountParser} {b : Bool} {w w' : World Text}
    (hro : p.readonly = false) (hex : (w.fileAt (p.accountPath env id)).isSome)
    (hr : (p.remove env id).run w = .ok b w') : b = true := by
  simp only [AccountParser.remove, hro, Bool.false_eq_true, if_false] at hr
  obtain ⟨w₀, w₁, hget, hr⟩ := run_bind_ok.1 hr
  cases hget
  rw [FILE.fileExists, hex, if_neg (by simp)] at hr
  rw [FILE.remove, Env.callRemoveFile, run_modifyGet_ok, hex, hd.unlinks] at hr
  exact hr.1.symm

/-- A deletion that fails has not begun to remove anything. -/
theorem deleteAccount_of_held (hd : Dependable env) {w w' : World Text}
    (hheld : ∀ p ∈ env.parsers, ∀ acc, p.read env w id {} = .ok acc → (shelfAt w).Holds custom acc)
    (hr : (deleteAccount env id).run w = .ok false w') (hserved : Served custom w') :
    ∃ errs, w' = w.addErrors errs := by
  rcases deleteAccount_ok hr with ⟨-, hw'⟩ | ⟨p, act, hfind, hread, hcase⟩
  · exact hw'
  exfalso
  obtain ⟨hp, hro, -⟩ := findParser_some hfind
  cases hcase with
  | kept hremoval =>
    cases performAccountRemoval_of_held hremoval (allInited_of_read hread) (hheld p hp act hread)
      (hserved.of_prefix (List.prefix_refl _))
  | unremoved hremoval hremove =>
    have hfiles := congrArg Prod.fst (rest_of_removal hremoval)
    cases remove_of_isSome hd (hro rfl)
      (by rw [World.fileAt_congr hfiles]; exact isSome_of_read hread) hremove

/-- Raises nothing. -/
def returning : Ending Exn (callsFrame : Frame (World Text)) where
  raised _ _ _ := False
  extend _ h := h

theorem raises_deleteAccount (hinit : env.eventManagerInited = true) (id : Uuid) :
    Raises (fun _ => False) (deleteAccount env id) := by
  intro w e w' hr
  have hends : Ends returning (deleteAccount env id) :=
    ends_deleteAccount ⟨records_callsFrame, fun h => by simp [hinit] at h⟩ id
  exact hends.raised w e w' hr

end PxAccounts
