import PxAccounts.Proof.Exceptions
import PxAccounts.Proof.Links

/-!
# How operations end

Which exceptions can leave the operations when the services of the accounts have been initialised:
those of a plugin that its container lets out, that of an event manager that is not set up, and a
failed look at a secret; never a plugin or an account that is missing.
-/

namespace PxAccounts

open Effect AccountManager

variable {Text : Type} {env : Env Text}

/-- A null pointer to the plugin or to the account of a service is followed. -/
def Exn.NullDereference (e : Exn) : Prop :=
  e = .undefined "plugin() is null" ∨ e = .undefined "_account is null"

instance (e : Exn) : Decidable e.NullDereference := inferInstanceAs (Decidable (_ ∨ _))

/-- The answer is an exception that the container of the plugin lets out of `verify` and
`authenticate`. -/
def Answer.Uncaught {α : Type} (plugin : PluginContainer) (what : String) : Answer α → Prop
  | .returned _ => False
  | .errorAlreadySet w => w = what ∧ plugin.type = .cppPlugin
  | .raised w => w = what

/-- In this call a plugin raised an exception that its container lets out. -/
def Call.LetsOut (env : Env Text) (what : String) : Call Text → Prop
  | .verify title _ answer => ∃ plugin, env.pluginNamed title = some plugin ∧
      answer.Uncaught plugin what
  | .authenticate title _ answer => ∃ plugin, env.pluginNamed title = some plugin ∧
      answer.Uncaught plugin what
  | _ => False

/-- The call asks a plugin to verify or to authenticate. -/
def Call.Asks : Call Text → Prop
  | .verify .. => True
  | .authenticate .. => True
  | _ => False

/-- The frame is about the calls made, and allows every call but those that ask a plugin. -/
structure Records (F : Frame (World Text)) : Prop where
  same : ∀ {w w' : World Text}, w'.calls = w.calls → F.rel w w'
  record : ∀ {w w' : World Text} (c : Call Text), ¬c.Asks → w'.calls = w.calls ++ [c] → F.rel w w'

variable {F : Frame (World Text)}

/-- What must be said of an event manager that is not set up. -/
structure AdmitsUninited (env : Env Text) (V : Ending Exn F) : Prop extends Records F where
  notInited : env.eventManagerInited = false →
    ∀ w, V.raised w (.std "EventManager is not inited yet!") w

/-- What must be said of the exceptions that no plugin raises. -/
structure AdmitsFaults (env : Env Text) (V : Ending Exn F) : Prop extends AdmitsUninited env V where
  undefined : ∀ w what, ¬(Exn.undefined what).NullDereference → V.raised w (.undefined what) w

/-- What must be said of the answers of plugins as well, and of the exceptions let out. -/
structure Admits (env : Env Text) (V : Ending Exn F) : Prop extends AdmitsFaults env V where
  answered : ∀ {w w' : World Text} (c : Call Text), (∀ what, ¬c.LetsOut env what) →
    w'.calls = w.calls ++ [c] → F.rel w w'
  letOut : ∀ (w : World Text) (c : Call Text) what, c.LetsOut env what →
    V.raised w (.std what) (w.record c)

theorem records_callsFrame : Records (callsFrame : Frame (World Text)) where
  same {w w'} h := by
    show w.calls <+: w'.calls
    rw [h]
  record {w w'} c _ h := by
    show w.calls <+: w'.calls
    rw [h]
    exact List.prefix_append _ _

variable {V : Ending Exn F}

/-! ## Small steps -/

theorem ends_call (hF : Records F) {α : Type} {f : World Text → α × World Text}
    (h : ∀ w, ∃ c : Call Text, ¬c.Asks ∧ (f w).2.calls = w.calls ++ [c]) :
    Ends V (modifyGet f : M Text α) := ends_modifyGet fun w => by
  obtain ⟨c, hc, hcalls⟩ := h w
  exact hF.record c hc hcalls

theorem ends_sameCalls (hF : Records F) {f : World Text → World Text}
    (h : ∀ w, (f w).calls = w.calls) : Ends V (modify f : M Text Unit) :=
  ends_modify fun w => hF.same (h w)

theorem ends_glog (hF : Records F) (level : LogLevel) (parts : List String) :
    Ends V (glog level parts : M Text Unit) := ends_sameCalls hF fun _ => rfl

theorem ends_addErrorList (hF : Records F) (errs : StringList) :
    Ends V (addErrorList errs : M Text Unit) :=
  ends_sameCalls hF fun _ => rfl

theorem ends_addErrorLists (hF : Records F) (errs errs' : StringList) {α : Type} {m : M Text α}
    (h : Ends V m) : Ends V (do addErrorList errs; addErrorList errs'; m) :=
  (ends_addErrorList hF errs).bind fun _ => (ends_addErrorList hF errs').bind fun _ => h

theorem ends_derefPlugin {svc : AccountService} (h : svc.plugin.isSome) :
    Ends V (svc.derefPlugin : M Text PluginContainer) := by
  obtain ⟨plugin, hplugin⟩ := Option.isSome_iff_exists.1 h
  rw [AccountService.derefPlugin, hplugin]
  exact ends_pure plugin

theorem ends_derefAccount {svc : AccountService} (h : svc.accountSet = true) (owner : Owner) :
    Ends V (svc.derefAccount owner : M Text Owner) := by
  rw [AccountService.derefAccount, if_pos h]
  exact ends_pure owner

theorem ends_logUnreachable (hF : Records F) {α : Type} (reply : RpcReply α) :
    Ends V (SecretManager.logUnreachable reply : M Text Unit) := by
  cases reply with
  | unreachable description => exact ends_glog hF _ _
  | exception description => exact ends_pure _
  | result a => exact ends_pure _

theorem ends_search (hF : Records F) (attributes : StrStrMap) :
    Ends V (SecretManager.search env attributes) := by
  refine (ends_glog hF _ _).bind fun _ => (ends_call hF fun _ => ⟨_, id, rfl⟩).bind
    fun reply => (ends_logUnreachable hF reply).bind fun _ => ?_
  cases reply with
  | unreachable description =>
    exact (ends_glog hF _ _).bind fun _ => (ends_glog hF _ _).bind fun _ => ends_pure _
  | exception description => exact (ends_glog hF _ _).bind fun _ => ends_pure _
  | result items =>
    refine (ends_forM fun item _ => ends_ite (fun _ => ends_glog hF _ _) fun _ => ends_pure _).bind
      fun _ => (ends_glog hF _ _).bind fun _ => ?_
    exact (ends_forM fun secret _ => ends_glog hF _ _).bind fun _ => ends_pure _

/-! ## Plugins -/

/-- The plugin is the one that its title stands for. -/
theorem pluginNamed_title {name : String} {plugin : PluginContainer}
    (h : env.pluginNamed name = some plugin) : env.pluginNamed plugin.title = some plugin := by
  rwa [title_of_pluginNamed h]

/-- What a container does with the answer to `verify` or `authenticate`. -/
def passOn {α : Type} (plugin : PluginContainer) (refused : String → α) : Answer α → M Text α
  | .returned result => pure result
  | .raised what => throw (.std what)
  | .errorAlreadySet what =>
    match plugin.type with
    | .pythonPlugin => pure (refused what)
    | .cppPlugin => throw (.std what)

theorem passOn_error {α : Type} {plugin : PluginContainer} {refused : String → α}
    {answer : Answer α} {w w' : World Text} {e : Exn}
    (hr : (passOn plugin refused answer).run w = .error e w') :
    w = w' ∧ ∃ what, e = .std what ∧ answer.Uncaught plugin what := by
  cases answer with
  | returned result => cases hr
  | raised what =>
    cases hr
    exact ⟨rfl, what, rfl, rfl⟩
  | errorAlreadySet what =>
    rw [passOn] at hr
    split at hr
    · cases hr
    · next htype =>
      cases hr
      exact ⟨rfl, what, rfl, rfl, htype⟩

theorem verify_eq (plugin : PluginContainer) (params : StrStrMap) :
    plugin.verify env params = env.callVerify plugin params >>=
      passOn plugin fun what => { verified := false, errors := [what] } := by
  refine bind_congr fun answer => ?_
  cases answer <;> rfl

theorem authenticate_eq (plugin : PluginContainer) (params : ServiceParamList) :
    plugin.authenticate env params = env.callAuthenticate plugin params >>=
      passOn plugin fun what => { authenticated := false, errors := [what] } := by
  refine bind_congr fun answer => ?_
  cases answer <;> rfl

theorem passOn_ok {α : Type} {plugin : PluginContainer} {refused : String → α}
    {answer : Answer α} {a : α} {w w' : World Text}
    (hr : (passOn plugin refused answer).run w = .ok a w') :
    w = w' ∧ (answer = .returned a ∨ plugin.type = .pythonPlugin ∧
      ∃ what, answer = .errorAlreadySet what ∧ a = refused what) := by
  cases answer with
  | returned result =>
    obtain ⟨rfl, rfl⟩ := run_pure_ok.1 hr
    exact ⟨rfl, .inl rfl⟩
  | raised what => cases hr
  | errorAlreadySet what =>
    rw [passOn] at hr
    split at hr
    · next htype =>
      obtain ⟨rfl, rfl⟩ := run_pure_ok.1 hr
      exact ⟨rfl, .inr ⟨htype, what, rfl, rfl⟩⟩
    · cases hr

theorem not_uncaught_of_passOn {α : Type} {plugin : PluginContainer} {refused : String → α}
    {answer : Answer α} {a : α} {w w' : World Text}
    (hr : (passOn plugin refused answer).run w = .ok a w') (what : String) :
    ¬answer.Uncaught plugin what := by
  rcases passOn_ok hr with ⟨-, rfl | ⟨htype, what', rfl, -⟩⟩
  · exact id
  · rintro ⟨-, hcpp⟩
    rw [htype] at hcpp
    cases hcpp

/-- A call that asks a plugin, whose answer the container passes on. -/
theorem ends_asks (hV : Admits env V) {α : Type} {f : World Text → Answer α × World Text}
    {plugin : PluginContainer} {refused : String → α} (h : ∀ w, ∃ c : Call Text,
      (f w).2 = w.record c ∧ ∀ what, c.LetsOut env what ↔ (f w).1.Uncaught plugin what) :
    Ends V ((modifyGet f : M Text (Answer α)) >>= passOn plugin refused) where
  returned w a w' hr := by
    obtain ⟨answer, w₁, hcall, hr⟩ := run_bind_ok.1 hr
    obtain ⟨rfl, rfl⟩ := run_modifyGet_ok.1 hcall
    obtain ⟨c, hrecord, hlets⟩ := h w
    obtain ⟨rfl, -⟩ := passOn_ok hr
    refine hV.answered c (fun what hout => not_uncaught_of_passOn hr what ((hlets what).1 hout)) ?_
    rw [hrecord]
    rfl
  raised w e w' hr := by
    rcases run_bind_error.1 hr with hr | ⟨answer, w₁, hcall, hr⟩
    · cases hr
    obtain ⟨rfl, rfl⟩ := run_modifyGet_ok.1 hcall
    obtain ⟨c, hrecord, hlets⟩ := h w
    obtain ⟨rfl, what, rfl, huncaught⟩ := passOn_error hr
    rw [hrecord]
    exact hV.letOut w c what ((hlets what).2 huncaught)

theorem letsOut_verify_iff {plugin : PluginContainer}
    (hplugin : env.pluginNamed plugin.title = some plugin) (params : StrStrMap)
    (answer : Answer VerifyResult) (what : String) :
    (Call.verify plugin.title params answer : Call Text).LetsOut env what ↔
      answer.Uncaught plugin what := by
  simp [Call.LetsOut, hplugin]

theorem letsOut_authenticate_iff {plugin : PluginContainer}
    (hplugin : env.pluginNamed plugin.title = some plugin) (params : ServiceParamList)
    (answer : Answer AuthResult) (what : String) :
    (Call.authenticate plugin.title params answer : Call Text).LetsOut env what ↔
      answer.Uncaught plugin what := by
  simp [Call.LetsOut, hplugin]

theorem ends_pluginVerify (hV : Admits env V) {plugin : PluginContainer}
    (hplugin : env.pluginNamed plugin.title = some plugin) (params : StrStrMap) :
    Ends V (plugin.verify env params) := by
  rw [verify_eq]
  exact ends_asks hV fun w => ⟨_, rfl, letsOut_verify_iff hplugin _ _⟩

theorem ends_pluginAuthenticate (hV : Admits env V) {plugin : PluginContainer}
    (hplugin : env.pluginNamed plugin.title = some plugin) (params : ServiceParamList) :
    Ends V (plugin.authenticate env params) := by
  rw [authenticate_eq]
  exact ends_asks hV fun w => ⟨_, rfl, letsOut_authenticate_iff hplugin _ _⟩

/-- `read`, `write` and `remove` let nothing out. -/
theorem ends_optional {α β : Type} {call : M Text α} {f : α → β} (hcall : Ends V call) :
    Ends V (do return f (← call) : M Text β) := hcall.bind fun _ => ends_pure _

/-! ## Verification of a service -/

theorem as_error {secret : SecretItemPtr} {type : SecretClass} {e : Exn}
    (h : secret.as type = .error e) : e = .undefined "dynamic_cast" := by
  rw [SecretItemPtr.as] at h
  split at h
  · cases h
  · cases h
    rfl

theorem getMatchingPassword_error {item : SecretItem} {key : String} {e : Exn}
    (h : item.getMatchingPassword key = .error e) :
    e = .undefined "attributes.find(user_pasword_key)->second" := by
  rcases except_bind_error.1 h with h | ⟨b, -, h⟩
  · rw [SecretItem.isUserPassword] at h
    split at h
    · split at h
      · cases h
      · cases h
        rfl
    · cases h
  · split at h
    · cases h
    · split at h <;> cases h

/-- What a look at a saved secret can raise is not a null pointer to a plugin or an account. -/
theorem matchSecret_error {svcName key val : String} {secret : SecretItemPtr} {e : Exn}
    (h : AccountService.matchSecret svcName key val secret = .error e) :
    ∃ what, e = .undefined what ∧ ¬e.NullDereference := by
  have hcast : ∀ type, secret.as type = .error e → ∃ what, e = .undefined what ∧
      ¬e.NullDereference := by
    intro type he
    obtain rfl := as_error he
    exact ⟨_, rfl, by decide⟩
  rw [AccountService.matchSecret] at h
  split at h
  · split at h
    · rcases except_bind_error.1 h with h | ⟨item, -, h⟩
      · exact hcast _ h
      · obtain rfl := getMatchingPassword_error h
        exact ⟨_, rfl, by decide⟩
    · split at h
      · rcases except_bind_error.1 h with h | ⟨item, -, h⟩
        · exact hcast _ h
        · cases h
      · cases h
  · cases h

theorem ends_loadSecret (hV : AdmitsFaults env V) (svcName : String) (savedSecrets : List SecretItemPtr)
    (param : ServiceParam) :
    Ends V (AccountService.loadSecret svcName savedSecrets param : M Text ServiceParam) := by
  have hF := hV.toRecords
  rw [AccountService.loadSecret]
  refine ends_ite (fun _ => ?_) fun _ => ends_pure _
  cases hfold : savedSecrets.foldlM (AccountService.matchSecret svcName param.key) param.val with
  | error e =>
    obtain ⟨what, rfl, hnot⟩ := except_foldlM_error _ (fun _ _ _ _ => matchSecret_error) hfold
    exact ends_throw fun w => hV.undefined w what hnot
  | ok val =>
    exact ends_ite (fun _ => (ends_glog hF _ _).bind fun _ => ends_pure _)
      fun _ => (ends_glog hF _ _).bind fun _ => ends_pure _

theorem ends_saveItems (hF : Records F) (items : List SecretItem) :
    Ends V (AccountService.saveItems env items) := by
  induction items with
  | nil => exact ends_pure _
  | cons item items ih =>
    refine (ends_glog hF _ _).bind fun _ => Ends.bind ?_ fun saved =>
      ends_ite (fun _ => ih) fun _ => (ends_glog hF _ _).bind fun _ => ends_pure _
    refine (ends_glog hF _ _).bind fun _ => (ends_call hF fun _ => ⟨_, id, rfl⟩).bind
      fun reply => (ends_logUnreachable hF reply).bind fun _ => ?_
    exact ends_ite (fun _ => (ends_glog hF _ _).bind fun _ => ends_pure _) fun _ => ends_pure _

section Linked

variable {name : String} {svc : AccountService}

theorem AccountService.LinkedAs.plugin_isSome (h : svc.LinkedAs env name) : svc.plugin.isSome := by
  rw [h.plugin_eq]
  exact h.registered

theorem ends_verifyParams (hV : Admits env V) (h : svc.LinkedAs env name) (owner : Owner) :
    Ends V (svc.verifyParams env owner) := by
  have hF := hV.toRecords
  rw [AccountService.verifyParams]
  obtain ⟨plugin, hplugin⟩ := Option.isSome_iff_exists.1 h.registered
  rw [h.plugin_eq, hplugin]
  refine (ends_pluginVerify hV (pluginNamed_title hplugin) _).bind fun vResult =>
    ends_ite (fun _ => ends_pure _) fun _ => ?_
  refine (ends_derefAccount h.accountSet owner).bind fun account =>
    (ends_search hF _).bind fun savedSecrets =>
      (ends_mapM fun param _ => ends_loadSecret hV.toAdmitsFaults _ _ param).bind fun params => ?_
  exact (ends_glog hF _ _).bind fun _ => (ends_forM fun param _ => ends_glog hF _ _).bind
    fun _ => ends_pure _

theorem ends_authenticate (hV : Admits env V) (h : svc.LinkedAs env name) (vResult : VerifyResult) :
    Ends V (svc.authenticate env vResult) := by
  have hF := hV.toRecords
  obtain ⟨plugin, hplugin⟩ := Option.isSome_iff_exists.1 h.registered
  refine (ends_derefPlugin h.plugin_isSome).bind_ok fun plugin' w w' hderef => ?_
  obtain ⟨hplugin', -⟩ := AccountService.derefPlugin_ok hderef
  rw [h.plugin_eq] at hplugin'
  refine (ends_pluginAuthenticate hV (pluginNamed_title hplugin') _).bind fun aResult =>
    ends_ite (fun _ => ends_pure _) fun _ => (ends_glog hF _ _).bind fun _ => ?_
  refine (ends_forM fun token _ => (ends_glog hF _ _).bind fun _ => ?_).bind fun _ => ends_pure _
  exact ends_forM fun attrib _ => ends_glog hF _ _

theorem ends_saveProtectedParams (hF : Records F) (h : svc.accountSet = true) (owner : Owner)
    (aResult : AuthResult) : Ends V (svc.saveProtectedParams env owner aResult) := by
  have hturn : ∀ state : StrMap SecretItem × AccountService, state.2.accountSet = true →
      ∀ token, Ends V (AccountService.collectStep env owner state token) := by
    rintro ⟨secretDict, svc'⟩ hset token
    rw [AccountService.collectStep]
    cases token.attributes["schema"]? with
    | none => exact (ends_glog hF _ _).bind fun _ => ends_pure _
    | some schema =>
      exact (ends_glog hF _ _).bind fun _ =>
        (ends_derefAccount hset owner).bind fun _ => ends_pure _
  refine (ends_glog hF _ _).bind fun _ => Ends.bind ?_ fun r =>
    (ends_saveItems hF _).bind fun saved => ends_ite (fun _ => ends_pure _) fun _ => ends_pure _
  refine ends_foldlM_of (fun state => state.2.accountSet = true)
    (fun state hset token _ => hturn state hset token) (fun state hset token _ s state' s' hr => ?_)
    h
  have hone : ([token].foldlM (AccountService.collectStep env owner) state).run s =
      .ok state' s' := by
    rw [List.foldlM_cons, run_bind_ok]
    exact ⟨_, _, hr, rfl⟩
  obtain ⟨errs, herrs⟩ := AccountService.foldlM_collectStep_ok hone
  rw [herrs]
  exact hset

theorem ends_customWrite (hF : Records F) (h : svc.plugin.isSome) (vResult : VerifyResult)
    (aResult : AuthResult) : Ends V (svc.customWrite env vResult aResult) := by
  refine (ends_derefPlugin h).bind fun plugin =>
    (ends_optional (ends_call hF fun _ => ⟨_, id, rfl⟩)).bind fun result => ?_
  cases result with
  | ok pluginId => exact (ends_glog hF _ _).bind fun _ => ends_pure _
  | error errMsg =>
    exact ends_ite (fun _ => (ends_glog hF _ _).bind fun _ => ends_pure _) fun _ => ends_pure _

theorem ends_verify (hV : Admits env V) (h : svc.LinkedAs env name) (owner : Owner) :
    Ends V (svc.verify env owner) := by
  have hF := hV.toRecords
  have hcleared : ({ svc with errors := [] } : AccountService).LinkedAs env name := h.congr rfl
  refine (ends_verifyParams hV hcleared owner).bind_ok ?_
  rintro ⟨r, svc₁⟩ w w₁ hparams
  rcases AccountService.verifyParams_ok hparams with ⟨rfl, -⟩ | ⟨_, vResult, params, -, rfl, rfl⟩
  · exact (ends_glog hF _ _).bind fun _ => ends_pure _
  have hlinked := hcleared.congr (AccountService.link_applyVerification _ params)
  refine (ends_authenticate hV hlinked _).bind_ok ?_
  rintro ⟨r, svc₂⟩ w₁ w₂ hauth
  obtain ⟨⟨errs, rfl⟩, -⟩ := AccountService.authenticate_ok hauth
  cases r with
  | none => exact ends_pure _
  | some aResult =>
    have hlinked := hlinked.congr (AccountService.link_addErrorList _ errs)
    refine (ends_saveProtectedParams hF hlinked.accountSet owner aResult).bind_ok ?_
    rintro ⟨saved, svc₃⟩ w₂ w₃ hsave
    obtain ⟨errs', rfl⟩ := AccountService.saveProtectedParams_ok hsave
    cases saved with
    | false => exact ends_pure _
    | true =>
      have hlinked' := hlinked.congr (AccountService.link_addErrorList _ errs')
      exact (ends_customWrite hF hlinked'.plugin_isSome _ _).bind fun _ => ends_pure _

theorem ends_removeSecrets (hF : Records F) (h : svc.LinkedAs env name) (owner : Owner) :
    Ends V (svc.removeSecrets env owner) := by
  refine (ends_derefAccount h.accountSet owner).bind fun account => ends_ite (fun _ => ends_pure _)
    fun _ => ?_
  exact ends_optional (ends_call hF fun _ => ⟨_, id, rfl⟩)

theorem ends_performCustomRead (hF : Records F) (h : svc.LinkedAs env name) :
    Ends V (svc.performCustomRead env) := by
  rw [AccountService.performCustomRead]
  cases svc.params[pluginIdParam]? with
  | none => exact ends_pure _
  | some pluginId =>
    refine (ends_derefPlugin h.plugin_isSome).bind fun plugin =>
      (ends_optional (ends_call hF fun _ => ⟨_, id, rfl⟩)).bind fun result => ?_
    cases result with
    | ok params => exact ends_pure _
    | error what => exact ends_pure _

theorem ends_performServiceCustomRemoval (hF : Records F) (h : svc.LinkedAs env name) :
    Ends V (svc.performServiceCustomRemoval env) := by
  rw [AccountService.performServiceCustomRemoval]
  cases svc.params[pluginIdParam]? with
  | none => exact ends_pure _
  | some pluginId =>
    refine (ends_derefPlugin h.plugin_isSome).bind fun plugin =>
      (ends_optional (ends_call hF fun _ => ⟨_, id, rfl⟩)).bind fun result => ?_
    cases result with
    | ok removed => exact ends_pure _
    | error what => exact ends_pure _

end Linked

/-! ## Accounts -/

section Accounts

variable {act : AccountObject}

theorem ends_accountVerify (hV : Admits env V) (hall : AllInited env act.services) :
    Ends V (act.verify env) := by
  have hF := hV.toRecords
  by_cases hreach : AccountObject.ReachesServices env act
  · rw [AccountObject.verify_of_reaches hreach]
    have hprepared := hall.congr (AccountObject.sameLinks_prepared env act)
    refine Ends.bind_ok ?_ ?_
    · refine ends_foldlM (fun state kv hkv => ?_) _
      exact (ends_verify hV (hprepared kv.1 kv.2
        (Std.ExtTreeMap.mem_toList_iff_getElem?_eq_some.1 hkv)) _).bind fun _ => ends_pure _
    · rintro ⟨verified, act'⟩ w w' hr
      obtain ⟨hall', -⟩ := services_of_verifyServices hr hall
      refine ends_ite (fun _ => Ends.bind ?_ fun _ => ends_pure _) fun _ => ends_pure _
      refine ends_forM fun kv hkv => Ends.bind ?_ fun _ => ends_pure _
      exact ends_removeSecrets hF (hall' kv.1 kv.2
        (Std.ExtTreeMap.mem_toList_iff_getElem?_eq_some.1 hkv)) _
  · refine ⟨fun w r w' hr => ?_, fun w e w' hr => ?_⟩
    all_goals
      obtain ⟨act', hok, -⟩ := AccountObject.run_verify_of_not_reaches hreach w
      rw [hok] at hr
      cases hr
    exact F.refl w

theorem ends_cleanup (hF : Records F) (hall : AllInited env act.services)
    (newAccount : AccountObject) : Ends V (act.cleanup env newAccount) := by
  refine (ends_forM fun kv hkv => ends_ite (fun _ => Ends.bind ?_ fun _ => ends_pure _)
    fun _ => ends_pure _).bind fun _ => ends_pure _
  exact ends_removeSecrets hF (hall kv.1 kv.2
    (Std.ExtTreeMap.mem_toList_iff_getElem?_eq_some.1 hkv)) _

theorem ends_removeServices (hF : Records F) {svcs : List AccountService}
    (h : ∀ svc ∈ svcs, ∃ name, svc.LinkedAs env name) :
    Ends V (AccountObject.removeServices env svcs) := by
  induction svcs with
  | nil => exact ends_pure _
  | cons svc svcs ih =>
    obtain ⟨name, hlinked⟩ := h svc (by simp)
    refine (ends_performServiceCustomRemoval hF hlinked).bind fun removed =>
      ends_ite (fun _ => ih fun svc' hsvc' => h svc' (by simp [hsvc'])) fun _ => ends_pure _

theorem ends_performAccountRemoval (hF : Records F) (hall : AllInited env act.services) :
    Ends V (act.performAccountRemoval env) := by
  refine (ends_removeServices hF fun svc hsvc => ?_).bind fun r => ?_
  · obtain ⟨kv, hkv, rfl⟩ := List.mem_map.1 hsvc
    exact ⟨kv.1, hall kv.1 kv.2 (Std.ExtTreeMap.mem_toList_iff_getElem?_eq_some.1 hkv)⟩
  · cases r with
    | some svc => exact ends_pure _
    | none =>
      refine (ends_optional (ends_call hF fun _ => ⟨_, id, rfl⟩)).bind fun removed =>
        ends_ite (fun _ => ends_pure _) fun _ => ends_pure _

end Accounts

/-! ## Operations -/

theorem ends_write (hF : Records F) (parser : AccountParser) (account : AccountObject) :
    Ends V (parser.write env account) :=
  ends_ite (fun _ => ends_pure _) fun _ => ends_ite (fun _ => ends_pure _)
    fun _ => (ends_call hF fun _ => ⟨_, id, rfl⟩).bind fun _ => ends_pure _

theorem ends_remove (hF : Records F) (parser : AccountParser) (id : Uuid) :
    Ends V (parser.remove env id) := by
  refine ends_ite (fun _ => ends_pure _) fun _ => ends_get.bind fun _ =>
    ends_ite (fun _ => ends_pure _) fun _ => ends_call hF fun _ => ?_
  dsimp only
  split
  · exact ⟨.removeFile _ _, fun h => h, rfl⟩
  · exact ⟨.removeFile _ _, fun h => h, rfl⟩

theorem ends_emit (hV : AdmitsUninited env V) (event : String) (params : StrStrMap) :
    Ends V (EventManager.emit env event params) := by
  have hF := hV.toRecords
  refine ends_ite (fun h => ends_throw fun w => hV.notInited ?_ w) fun _ => ends_get.bind fun _ =>
    (ends_call hF fun w => ?_).bind fun _ => ends_pure _
  · rwa [Bool.not_eq_true'] at h
  · dsimp only
    split
    · exact ⟨.emit _ _, id, rfl⟩
    · exact ⟨.emit _ _, id, rfl⟩

theorem ends_readAccount (hF : Records F) (id : Uuid) : Ends V (readAccount env id) := by
  refine ends_get.bind fun w => ?_
  cases findParser env w id false with
  | none => exact (ends_addErrorList hF _).bind fun _ => ends_pure _
  | some parser =>
    refine ends_get.bind fun w => ?_
    cases hread : parser.read env w id {} with
    | error errs =>
      exact ends_addErrorLists hF _ _ (ends_pure _)
    | ok account =>
      refine (ends_foldlM (fun account' kv hkv => Ends.bind ?_ fun _ => ends_pure _) _).bind
        fun _ => ends_pure _
      exact ends_performCustomRead hF (allInited_of_read hread kv.1 kv.2
        (Std.ExtTreeMap.mem_toList_iff_getElem?_eq_some.1 hkv))

/-- A program of which nothing need be said when it raises always returns. -/
theorem returns_of_ends {α : Type} {m : M Text α}
    (h : ∀ V : Ending Exn (callsFrame : Frame (World Text)), Ends V m) (w : World Text) :
    ∃ a w', m.run w = .ok a w' := by
  cases hr : m.run w with
  | ok a w' => exact ⟨a, w', rfl⟩
  | error e w' =>
    exact ((h { raised := fun _ _ _ => False, extend := fun _ h => h }).raised w e w' hr).elim

variable (env) in
/-- A read always returns. -/
theorem returns_readAccount (id : Uuid) (w : World Text) :
    ∃ r w', (readAccount env id).run w = .ok r w' :=
  returns_of_ends (fun _ => ends_readAccount records_callsFrame id) w

theorem ends_setStatus (hV : AdmitsUninited env V) (id : Uuid) (stat : AccountStatus) :
    Ends V (setStatus env id stat) := by
  have hF := hV.toRecords
  refine (ends_readAccount hF id).bind fun r => ?_
  cases r with
  | none => exact ends_pure _
  | some act =>
    refine ends_get.bind fun w => (ends_sameCalls hF fun _ => by rfl).bind fun _ =>
      ends_ite (fun _ => ?_) fun _ => ends_pure _
    exact (ends_emit hV _ _).bind fun _ => ends_pure _

theorem ends_checkLimits (hF : Records F) {registered : List AccountObject}
    {l : List (String × AccountService)} (h : ∀ kv ∈ l, kv.2.plugin.isSome) :
    Ends V (checkLimits registered l : M Text Bool) := by
  induction l with
  | nil => exact ends_pure _
  | cons kv l ih =>
    refine (ends_derefPlugin (h kv (by simp))).bind fun plugin => ends_ite
      (fun _ => (ends_addErrorList hF _).bind fun _ => ends_pure _) fun _ =>
        ih fun kv' hkv' => h kv' (by simp [hkv'])

theorem ends_createAccount (hV : Admits env V) {act : AccountObject}
    (hall : AllInited env act.services) : Ends V (createAccount env act) := by
  have hF := hV.toRecords
  have hD := hV.toAdmitsUninited
  refine ends_get.bind fun w => ?_
  cases findParser env w Uuid.null true with
  | none => exact (ends_addErrorList hF _).bind fun _ => ends_pure _
  | some parser =>
    refine (ends_call hF fun _ => ⟨_, id, rfl⟩).bind fun id => Ends.bind ?_ fun r =>
      ends_ite (fun _ => ?_) fun _ => ?_
    · refine (ends_get.bind fun w => ends_checkLimits hF fun kv hkv => ?_).bind fun allowed =>
        ends_ite (fun _ => ends_accountVerify hV hall) fun _ => ends_pure _
      exact (hall kv.1 kv.2 (Std.ExtTreeMap.mem_toList_iff_getElem?_eq_some.1 hkv)).plugin_isSome
    · exact ends_addErrorLists hF _ _ (ends_pure _)
    · refine (ends_write hF parser _).bind fun written => ends_ite (fun _ => ?_) fun _ => ?_
      · exact (ends_addErrorList hF _).bind fun _ => ends_pure _
      · exact (ends_setStatus hD _ _).bind fun _ => (ends_emit hD _ _).bind fun _ => ends_pure _

theorem ends_modifyAccount (hV : Admits env V) (id : Uuid) {act : AccountObject}
    (hall : AllInited env act.services) : Ends V (modifyAccount env id act) := by
  have hF := hV.toRecords
  have hD := hV.toAdmitsUninited
  refine (ends_readAccount hF id).bind_ok fun r w w₁ hread => ?_
  rcases readAccount_ok hread with ⟨rfl, -⟩ | ⟨q, acc, oldAct, rfl, hok⟩
  · exact (ends_addErrorList hF _).bind fun _ => ends_pure _
  · refine ends_get.bind fun w => ?_
    cases findParser env w oldAct.id true with
    | none => exact (ends_addErrorList hF _).bind fun _ => ends_pure _
    | some parser =>
      refine Ends.bind (ends_accountVerify hV hall) fun r => ends_ite (fun _ => ?_) fun _ => ?_
      · exact ends_addErrorLists hF _ _ (ends_pure _)
      · refine (ends_write hF parser _).bind fun written => ends_ite (fun _ => ?_) fun _ => ?_
        · exact (ends_addErrorList hF _).bind fun _ => ends_pure _
        · exact (ends_setStatus hD _ _).bind fun _ =>
            (ends_cleanup hF hok.allInited _).bind fun _ =>
              (ends_emit hD _ _).bind fun _ => ends_pure _

theorem ends_deleteAccount (hV : AdmitsUninited env V) (id : Uuid) :
    Ends V (deleteAccount env id) := by
  have hF := hV.toRecords
  refine ends_get.bind fun w => ?_
  cases findParser env w id true with
  | none => exact (ends_addErrorList hF _).bind fun _ => ends_pure _
  | some parser =>
    refine ends_get.bind fun w => ?_
    cases hread : parser.read env w id {} with
    | error errs => exact (ends_addErrorList hF _).bind fun _ => ends_pure _
    | ok act =>
      refine (ends_performAccountRemoval hF (allInited_of_read hread)).bind fun r =>
        ends_ite (fun _ => (ends_addErrorList hF _).bind fun _ => ends_pure _) fun _ => ?_
      refine (ends_remove hF parser id).bind fun removed => ends_ite (fun _ => ?_) fun _ => ?_
      · exact (ends_addErrorList hF _).bind fun _ => ends_pure _
      · exact (ends_sameCalls hF fun _ => by rfl).bind fun _ => (ends_emit hV _ _).bind fun _ =>
          ends_pure _

theorem ends_createAutoInitializingAccounts (hV : Admits env V) :
    Ends V (createAutoInitializingAccounts env) := by
  refine ends_get.bind fun w => ends_forM fun kv _ => ends_ite (fun _ => ?_) fun _ => ends_pure _
  refine ends_ite (fun hinited => Ends.bind ?_ fun _ => ends_pure _) fun _ => ends_pure _
  exact ends_createAccount hV (allInited_empty.insert (linkedAs_init hinited))

end PxAccounts
