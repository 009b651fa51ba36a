import PxAccounts.Proof.Endings
import PxAccounts.Proof.Limits
import PxAccounts.Proof.Reload
import PxAccounts.Proof.Tokens

/-!
# The account of a plugin

The account the service creates for a plugin by itself has one service without parameters.  While no
secret is saved for it and no account has the service, the answers of the plugin and its limit alone
decide what becomes of it, whatever else happened before.
-/

namespace PxAccounts

open Effect AccountManager

variable {Text : Type} {env : Env Text}

/-- The account created for a plugin. -/
def defaultAccount (env : Env Text) (pluginName : String) : AccountObject where
  title := "Default - " ++ pluginName
  isActive := true
  services := (∅ : StrMap AccountService).insert pluginName
    (({} : AccountService).init env pluginName)

/-- What a plugin answers, or raises, depends on its input only. -/
structure AnswersByInput (env : Env Text) : Prop where
  verify : ∀ n m plugin params, env.verify n plugin params = env.verify m plugin params
  authenticate : ∀ n m plugin params,
    env.authenticate n plugin params = env.authenticate m plugin params

/-- A search finds only stored items, and only those that carry the attributes. -/
def FindsStored (env : Env Text) : Prop :=
  ∀ n attributes store, ∀ item ∈ (env.search n attributes store).items,
    item ∈ store ∧ item.Carries attributes

/-- No account file and no stored secret has the id. -/
structure Unused (env : Env Text) (w : World Text) (id : Uuid) : Prop where
  notNull : id ≠ Uuid.null
  files : ¬Stored env w id
  secrets : ∀ item ∈ w.secrets, item.attr "account_id" ≠ some (env.uuidAsString id)

/-! ## The decision of a plugin -/

/-- What a container passes on, if it is no exception. -/
def received {α : Type} (plugin : PluginContainer) (refused : String → α) : Answer α → Option α
  | .returned result => some result
  | .raised _ => none
  | .errorAlreadySet what =>
    match plugin.type with
    | .pythonPlugin => some (refused what)
    | .cppPlugin => none

/-- The first part of a result is the one decided on; no decision stands for an exception of a
plugin. -/
def EndsAs {γ α : Type} (decision : Option γ) (r : EStateM.Result Exn (World Text) (γ × α)) :
    Prop :=
  match decision with
  | some c => ∃ a s, r = .ok (c, a) s
  | none => ∃ what s, r = .error (.std what) s

/-- What the plugin makes of the parameters. -/
def paramsDecision (env : Env Text) (plugin : PluginContainer) (params : StrStrMap) :
    Option (Option VerifyResult) :=
  (received plugin (fun what => { verified := false, errors := [what] })
    (env.verify 0 plugin params)).map fun vResult => if vResult.verified then some vResult else none

/-- What the plugin makes of the verified parameters. -/
def authDecision (env : Env Text) (plugin : PluginContainer) (params : ServiceParamList) :
    Option (Option AuthResult) :=
  (received plugin (fun what => { authenticated := false, errors := [what] })
    (env.authenticate 0 plugin params)).map fun aResult =>
      if aResult.authenticated then some aResult else none

/-- What is decided about a service without saved secrets. -/
def serviceDecision (env : Env Text) (plugin : PluginContainer) (params : StrStrMap) :
    Option Bool :=
  (paramsDecision env plugin params).bind fun
    | none => some false
    | some vResult =>
      (authDecision env plugin vResult.params).bind fun aResult => some aResult.isSome

theorem EndsAs.unique {γ α : Type} {decision : Option γ}
    {r : EStateM.Result Exn (World Text) (γ × α)} (h : EndsAs decision r) {c : γ} {a : α}
    {s : World Text} (hr : r = .ok (c, a) s) : decision = some c := by
  subst hr
  cases decision with
  | none => obtain ⟨what, s', he⟩ := h; cases he
  | some c' => obtain ⟨a', s', he⟩ := h; cases he; rfl

theorem EndsAs.after {γ α β : Type} {decision : Option γ} {x : M Text α} {f : α → M Text (γ × β)}
    {a : α} {w s : World Text} (hx : x.run w = .ok a s) (hf : EndsAs decision ((f a).run s)) :
    EndsAs decision ((x >>= f).run w) := by
  rw [EStateM.run_bind, hx]
  exact hf

theorem EndsAs.bind {γ δ α β : Type} {decision : Option γ} {decide : γ → Option δ}
    {x : M Text (γ × α)} {f : γ × α → M Text (δ × β)} {w : World Text}
    (hx : EndsAs decision (x.run w))
    (hf : ∀ c a s, x.run w = .ok (c, a) s → EndsAs (decide c) ((f (c, a)).run s)) :
    EndsAs (decision.bind decide) ((x >>= f).run w) := by
  cases decision with
  | none =>
    obtain ⟨what, s, hr⟩ := hx
    exact ⟨what, s, run_bind_error.2 (.inl hr)⟩
  | some c =>
    obtain ⟨a, s, hr⟩ := hx
    have hrest := hf c a s hr
    show EndsAs (decide c) _
    cases hdecide : decide c with
    | none =>
      rw [hdecide] at hrest
      obtain ⟨what, s', hr'⟩ := hrest
      exact ⟨what, s', run_bind_error.2 (.inr ⟨(c, a), s, hr, hr'⟩)⟩
    | some d =>
      rw [hdecide] at hrest
      obtain ⟨b, s', hr'⟩ := hrest
      exact ⟨b, s', run_bind_ok.2 ⟨(c, a), s, hr, hr'⟩⟩

theorem EndsAs.keep {γ α β : Type} {decision : Option γ} {x : M Text (γ × α)}
    {f : γ × α → M Text (γ × β)} {w : World Text} (hx : EndsAs decision (x.run w))
    (hf : ∀ c a s, x.run w = .ok (c, a) s → ∃ b s', (f (c, a)).run s = .ok (c, b) s') :
    EndsAs decision ((x >>= f).run w) := by
  have hbind : EndsAs (decision.bind some) ((x >>= f).run w) := hx.bind hf
  rwa [Option.bind_fun_some] at hbind

theorem run_passOn_of_received {α : Type} {plugin : PluginContainer} {refused : String → α}
    {answer : Answer α} {a : α} (h : received plugin refused answer = some a) (w : World Text) :
    (passOn plugin refused answer).run w = .ok a w := by
  cases answer with
  | returned result =>
    cases h
    rfl
  | raised what => cases h
  | errorAlreadySet what =>
    unfold received passOn at *
    cases htype : plugin.type with
    | pythonPlugin =>
      rw [htype] at h
      cases h
      rfl
    | cppPlugin =>
      rw [htype] at h
      cases h

theorem run_passOn_of_not_received {α : Type} {plugin : PluginContainer} {refused : String → α}
    {answer : Answer α} (h : received plugin refused answer = none) (w : World Text) :
    ∃ what, (passOn plugin refused answer : M Text α).run w = .error (.std what) w := by
  cases answer with
  | returned result => cases h
  | raised what => exact ⟨what, rfl⟩
  | errorAlreadySet what =>
    unfold received at h
    unfold passOn
    cases htype : plugin.type with
    | pythonPlugin =>
      rw [htype] at h
      cases h
    | cppPlugin => exact ⟨what, rfl⟩

theorem returned_of_received {α : Type} {plugin : PluginContainer} {refused : String → α}
    {answer : Answer α} {a : α} (h : received plugin refused answer = some a)
    (hne : ∀ what, refused what ≠ a) : answer = .returned a := by
  cases answer with
  | returned result =>
    cases h
    rfl
  | raised what => cases h
  | errorAlreadySet what =>
    unfold received at h
    cases htype : plugin.type with
    | pythonPlugin =>
      rw [htype] at h
      cases h
      exact absurd rfl (hne what)
    | cppPlugin =>
      rw [htype] at h
      cases h

/-! ## Verification of the service -/

section Verification

variable (hanswers : AnswersByInput env)
include hanswers

theorem run_pluginVerify (plugin : PluginContainer) (params : StrStrMap) (w : World Text) :
    ∃ w', (plugin.verify env params).run w =
      (passOn plugin (fun what => { verified := false, errors := [what] })
        (env.verify 0 plugin params)).run w' := by
  rw [verify_eq, hanswers.verify 0 w.tick]
  exact ⟨_, rfl⟩

theorem run_pluginAuthenticate (plugin : PluginContainer) (params : ServiceParamList)
    (w : World Text) : ∃ w', (plugin.authenticate env params).run w =
      (passOn plugin (fun what => { authenticated := false, errors := [what] })
        (env.authenticate 0 plugin params)).run w' := by
  rw [authenticate_eq, hanswers.authenticate 0 w.tick]
  exact ⟨_, rfl⟩

variable {owner : Owner} {svc : AccountService} {plugin : PluginContainer} {w : World Text}

/-- With no secret saved, the parameters are those of the plugin. -/
theorem endsAs_verifyParams (hfinds : FindsStored env) (hplugin : svc.plugin = some plugin)
    (haccount : svc.accountSet = true)
    (hnone : ∀ item ∈ w.secrets, item.attr "account_id" ≠ some (env.uuidAsString owner.id)) :
    EndsAs (paramsDecision env plugin svc.params) ((svc.verifyParams env owner).run w) := by
  obtain ⟨w₁, hrun⟩ := run_pluginVerify hanswers plugin svc.params w
  unfold paramsDecision
  cases hreceived : received plugin (fun what => { verified := false, errors := [what] })
      (env.verify 0 plugin svc.params) with
  | none =>
    obtain ⟨what, hraise⟩ := run_passOn_of_not_received hreceived w₁
    refine ⟨what, w₁, ?_⟩
    simp only [AccountService.verifyParams, hplugin]
    exact run_bind_error.2 (.inl (hrun.trans hraise))
  | some vResult =>
    have hverify := hrun.trans (run_passOn_of_received hreceived w₁)
    cases hverified : vResult.verified with
    | false =>
      refine ⟨svc.addErrorList vResult.errors, w₁, ?_⟩
      simp only [AccountService.verifyParams, hplugin]
      refine run_bind_ok.2 ⟨vResult, w₁, hverify, ?_⟩
      rw [if_pos (by rw [hverified]; rfl), if_neg (by rw [hverified]; decide)]
      rfl
    | true =>
      have hreturned : env.verify w.tick plugin svc.params = .returned vResult := by
        rw [hanswers.verify w.tick 0]
        refine returned_of_received hreceived fun what he => ?_
        rw [← he] at hverified
        cases hverified
      have hempty : (env.search (w.tick + 1) ((∅ : StrStrMap).insert "account_id"
          (env.uuidAsString owner.id)).toList w.secrets).items = [] := by
        refine List.eq_nil_iff_forall_not_mem.2 fun item hitem => ?_
        obtain ⟨hmem, hcarries⟩ := hfinds _ _ _ item hitem
        exact hnone item hmem ((carries_account item _).1 hcarries)
      have hreload : vResult.params.mapM (reloaded svc.name []) = .ok vResult.params := by
        refine except_mapM_ok_iff.2 (List.forall₂_same.2 fun param _ => ?_)
        unfold reloaded
        split <;> rfl
      obtain ⟨svc', w', hr⟩ := (verifyParams_iff hplugin haccount hreturned hverified).2
        (by rw [hempty]; exact hreload)
      refine ⟨svc', w', hr.trans ?_⟩
      dsimp only
      rw [if_pos hverified]

/-- What the plugin then makes of the parameters. -/
theorem endsAs_authenticate (hplugin : svc.plugin = some plugin) (vResult : VerifyResult) :
    EndsAs (authDecision env plugin vResult.params) ((svc.authenticate env vResult).run w) := by
  obtain ⟨w₁, hrun⟩ := run_pluginAuthenticate hanswers plugin vResult.params w
  have hderef : svc.derefPlugin = (pure plugin : M Text PluginContainer) := by
    rw [AccountService.derefPlugin, hplugin]
  rw [AccountService.authenticate, hderef, pure_bind]
  unfold authDecision
  cases hreceived : received plugin (fun what => { authenticated := false, errors := [what] })
      (env.authenticate 0 plugin vResult.params) with
  | none =>
    obtain ⟨what, hraise⟩ := run_passOn_of_not_received hreceived w₁
    exact ⟨what, w₁, run_bind_error.2 (.inl (hrun.trans hraise))⟩
  | some aResult =>
    have hauth := hrun.trans (run_passOn_of_received hreceived w₁)
    cases hauthenticated : aResult.authenticated with
    | false =>
      refine ⟨svc.addErrorList aResult.errors, w₁, run_bind_ok.2 ⟨aResult, w₁, hauth, ?_⟩⟩
      dsimp only
      rw [if_pos (by rw [hauthenticated]; rfl), if_neg (by rw [hauthenticated]; decide)]
      rfl
    | true =>
      obtain ⟨_, w₂, hlogs⟩ := (raises_forM (l := aResult.tokens) fun token _ =>
        (raises_modify _).bind fun _ => raises_forM (l := token.attributes.toList)
          fun attrib _ => raises_modify _).returns _
      refine ⟨svc.addErrorList aResult.errors, w₂, run_bind_ok.2 ⟨aResult, w₁, hauth, ?_⟩⟩
      dsimp only
      rw [if_neg (by rw [hauthenticated]; decide), if_pos hauthenticated]
      exact run_bind_ok.2 ⟨(), _, rfl, run_bind_ok.2 ⟨_, w₂, hlogs, rfl⟩⟩

/-- The answers of the plugin decide about a service for which no secret is saved. -/
theorem endsAs_verify (hfinds : FindsStored env) (haccepts : AcceptsAll env) {name : String}
    (hlinked : svc.LinkedAs env name) (hplugin : svc.plugin = some plugin)
    (hnone : ∀ item ∈ w.secrets, item.attr "account_id" ≠ some (env.uuidAsString owner.id)) :
    EndsAs (serviceDecision env plugin svc.params) ((svc.verify env owner).run w) := by
  have hcleared : ({ svc with errors := [] } : AccountService).LinkedAs env name :=
    hlinked.congr rfl
  have hplugin' : ({ svc with errors := [] } : AccountService).plugin = some plugin := hplugin
  refine (endsAs_verifyParams hanswers hfinds hplugin' hcleared.accountSet hnone).bind ?_
  rintro (_ | vResult) svc₁ w₁ hparams
  · exact ⟨_, _, rfl⟩
  have hlink₁ : svc₁.LinkedAs env name := by
    rcases AccountService.verifyParams_ok hparams with ⟨he, -⟩ | ⟨_, _, _, -, -, rfl⟩
    · cases he
    · exact hcleared.congr (AccountService.link_applyVerification _ _)
  have hplugin₁ : svc₁.plugin = some plugin :=
    hlink₁.plugin_eq.trans (hlinked.plugin_eq.symm.trans hplugin)
  refine (endsAs_authenticate hanswers hplugin₁ vResult).bind ?_
  rintro (_ | aResult) svc₂ w₂ hauth
  · exact ⟨_, _, rfl⟩
  obtain ⟨⟨errs, rfl⟩, -⟩ := AccountService.authenticate_ok hauth
  have hlink₂ := hlink₁.congr (AccountService.link_addErrorList svc₁ errs)
  obtain ⟨svc₃, w₃, hsave⟩ :=
    run_saveProtectedParams_of_accepts owner haccepts hlink₂.accountSet aResult w₂
  obtain ⟨errs', rfl⟩ := AccountService.saveProtectedParams_ok hsave
  have hlink₃ := hlink₂.congr (AccountService.link_addErrorList _ errs')
  obtain ⟨svc₄, w₄, hwrite⟩ := returns_of_ends
    (fun _ => ends_customWrite records_callsFrame hlink₃.plugin_isSome vResult aResult) w₃
  exact ⟨svc₄, w₄, run_bind_ok.2 ⟨(true, _), w₃, hsave, run_bind_ok.2 ⟨svc₄, w₄, hwrite, rfl⟩⟩⟩

end Verification

/-! ## Verification of the account -/

theorem reaches_defaultAccount (env : Env Text) (name : String) (id : Uuid) :
    AccountObject.ReachesServices env { defaultAccount env name with id } := by
  refine ⟨?_, .inl rfl⟩
  show ("Default - " ++ name).isEmpty = false
  simp

theorem allInited_defaultAccount {name : String} {plugin : PluginContainer}
    (hnamed : env.pluginNamed name = some plugin) :
    AllInited env (defaultAccount env name).services :=
  allInited_empty.insert (linkedAs_init (Option.isSome_iff_exists.2 ⟨plugin, hnamed⟩))

section Account

variable (hanswers : AnswersByInput env) (hfinds : FindsStored env) (haccepts : AcceptsAll env)
  {name : String} {plugin : PluginContainer} (hnamed : env.pluginNamed name = some plugin)
  {id : Uuid} {w : World Text}
include hanswers hfinds haccepts hnamed

theorem endsAs_verifyServices
    (hnone : ∀ item ∈ w.secrets, item.attr "account_id" ≠ some (env.uuidAsString id)) :
    EndsAs (serviceDecision env plugin ∅)
      ((AccountObject.verifyServices env { defaultAccount env name with id }).run w) := by
  have hlinked : (({} : AccountService).init env name).LinkedAs env name :=
    linkedAs_init (Option.isSome_iff_exists.2 ⟨plugin, hnamed⟩)
  unfold AccountObject.verifyServices
  rw [show (defaultAccount env name).services.toList = [(name, ({} : AccountService).init env name)]
    from TreeMap.toList_insert_empty _ _, List.foldlM_cons]
  refine EndsAs.keep ?_ fun verified act s _ => ⟨act, s, rfl⟩
  unfold AccountObject.verifyService
  rw [hnamed]
  exact (endsAs_verify hanswers hfinds haccepts hlinked hnamed hnone).keep
    fun verified svc s _ => ⟨_, s, rfl⟩

/-- The answers of the plugin decide about its account. -/
theorem endsAs_accountVerify
    (hnone : ∀ item ∈ w.secrets, item.attr "account_id" ≠ some (env.uuidAsString id)) :
    EndsAs (serviceDecision env plugin ∅)
      ((AccountObject.verify env { defaultAccount env name with id }).run w) := by
  rw [AccountObject.verify_of_reaches (reaches_defaultAccount env name id)]
  refine (endsAs_verifyServices hanswers hfinds haccepts hnamed hnone).keep ?_
  rintro verified act s hr
  have hinit : AllInited env ({ defaultAccount env name with id } : AccountObject).services :=
    allInited_defaultAccount hnamed
  have hall := (services_of_verifyServices hr hinit).1
  cases verified with
  | true => exact ⟨act, s, rfl⟩
  | false =>
    obtain ⟨_, s', hremove⟩ := returns_of_ends (m := act.removeAllSecrets env) (fun V =>
      ends_forM fun kv hkv => (ends_removeSecrets records_callsFrame (hall kv.1 kv.2
        (Std.ExtTreeMap.mem_toList_iff_getElem?_eq_some.1 hkv)) _).bind fun _ => ends_pure _) s
    exact ⟨act, s', run_bind_ok.2 ⟨(), s', hremove, rfl⟩⟩

end Account

/-! ## Creation -/

/-- What is decided about the account of a plugin that has none. -/
def creationDecision (env : Env Text) (plugin : PluginContainer) : Option Bool :=
  match env.parsers.find? fun parser => !parser.readonly with
  | none => some false
  | some _ => if plugin.maxInstanceCount = 0 then some false else serviceDecision env plugin ∅

theorem findParser_null (w : World Text) :
    findParser env w Uuid.null true = env.parsers.find? fun parser => !parser.readonly := by
  simp [findParser, uuidIsNull]

section Limits

variable {name : String} {plugin : PluginContainer} {w : World Text}
  (hnamed : env.pluginNamed name = some plugin)
  (hfree : ∀ acc ∈ listAccounts env w [] [], acc.hasService name = false) (id : Uuid)
include hnamed hfree

/-- The limit that counts for an account of the plugin, when there is none yet. -/
theorem run_limits_eq :
    (verifyAccountCreationLimits env { defaultAccount env name with id }).run w =
    (if 0 ≤ plugin.maxInstanceCount ∧ plugin.maxInstanceCount ≤ (0 : ℕ) then do
        addError ("maximum number of allowed accounts (" ++ toString plugin.maxInstanceCount ++
          ") already created.")
        return false
      else return true : M Text Bool).run w := by
  have hcount : ((listAccounts env w [] []).filter (·.hasService name)).length = 0 := by
    rw [List.length_eq_zero_iff, List.filter_eq_nil_iff]
    exact fun acc hacc => by rw [hfree acc hacc]; decide
  have hderef : (({} : AccountService).init env name).derefPlugin =
      (pure plugin : M Text PluginContainer) := by
    rw [AccountService.derefPlugin, show (({} : AccountService).init env name).plugin = some plugin
      from hnamed]
  have hlist : (defaultAccount env name).services.toList =
      [(name, ({} : AccountService).init env name)] := TreeMap.toList_insert_empty _ _
  show (checkLimits (listAccounts env w [] []) (defaultAccount env name).services.toList).run w = _
  rw [hlist, checkLimits, hderef, pure_bind, hcount]
  rfl

theorem run_limits_of_zero (hzero : plugin.maxInstanceCount = 0) :
    ∃ errs, (verifyAccountCreationLimits env { defaultAccount env name with id }).run w =
      .ok false (w.addErrors errs) := by
  rw [run_limits_eq hnamed hfree, if_pos ⟨by omega, by omega⟩]
  exact ⟨_, rfl⟩

theorem run_limits_of_ne_zero (hne : plugin.maxInstanceCount ≠ 0) :
    (verifyAccountCreationLimits env { defaultAccount env name with id }).run w = .ok true w := by
  rw [run_limits_eq hnamed hfree, if_neg (by omega)]
  rfl

end Limits

section Creation

variable (hanswers : AnswersByInput env) (hfinds : FindsStored env) (haccepts : AcceptsAll env)
  {name : String} {plugin : PluginContainer} (hnamed : env.pluginNamed name = some plugin)
  {w : World Text} (hfree : ∀ acc ∈ listAccounts env w [] [], acc.hasService name = false)
include hanswers hfinds haccepts hnamed hfree

theorem endsAs_verifyNewAccount {id : Uuid}
    (hnone : ∀ item ∈ w.secrets, item.attr "account_id" ≠ some (env.uuidAsString id)) :
    EndsAs (if plugin.maxInstanceCount = 0 then some false else serviceDecision env plugin ∅)
      ((verifyNewAccount env { defaultAccount env name with id }).run w) := by
  unfold verifyNewAccount
  by_cases hzero : plugin.maxInstanceCount = 0
  · obtain ⟨errs, hlimits⟩ := run_limits_of_zero hnamed hfree id hzero
    rw [if_pos hzero]
    exact EndsAs.after hlimits ⟨_, _, rfl⟩
  · rw [if_neg hzero]
    exact EndsAs.after (run_limits_of_ne_zero hnamed hfree id hzero)
      (endsAs_accountVerify hanswers hfinds haccepts hnamed hnone)

/-- The answers of the plugin and its limit decide about the creation of its account. -/
theorem endsAs_createAccount (hinit : env.eventManagerInited = true)
    (hunused : Unused env w (env.uuidGenerate w.tick)) :
    EndsAs (creationDecision env plugin)
      ((createAccount env (defaultAccount env name)).run w) := by
  unfold createAccount creationDecision
  refine EndsAs.after (x := get) rfl ?_
  rw [findParser_null]
  cases hfind : env.parsers.find? fun parser => !parser.readonly with
  | none => exact ⟨_, _, rfl⟩
  | some parser =>
    refine EndsAs.after (x := env.callUuidGenerate) rfl ?_
    have hverify := endsAs_verifyNewAccount hanswers hfinds haccepts hnamed
      (w := w.record (.uuidGenerate (env.uuidGenerate w.tick))) hfree hunused.secrets
    refine hverify.keep ?_
    rintro (_ | _) act s hr
    · exact ⟨_, _, rfl⟩
    have hid : act.id = env.uuidGenerate w.tick := id_of_verify (verifyNewAccount_true hr)
    have hwritable : parser.readonly = false := by simpa using List.find?_some hfind
    have hwrite : (parser.write env act).run s = .ok true (s.written env
        (parser.accountPath env act.id) (env.yaml.emit (AccountParser.document env act))) :=
      AccountParser.run_write s (by rw [hid]; exact hunused.notNull) hwritable
    obtain ⟨b, s₁, hstatus⟩ := (raises_setStatus hinit (env.uuidGenerate w.tick)
      .none).returns (s.written env (parser.accountPath env act.id)
        (env.yaml.emit (AccountParser.document env act)))
    obtain ⟨sent, s₂, hemit⟩ := (raises_emit hinit "account_create"
      (EventManager.accountParams env act)).returns s₁
    exact ⟨act, s₂, run_bind_ok.2 ⟨true, _, hwrite, run_bind_ok.2 ⟨b, s₁, hstatus,
      run_bind_ok.2 ⟨sent, s₂, hemit, rfl⟩⟩⟩⟩

end Creation

end PxAccounts
