import PxAccounts.Model.Reference
import PxAccounts.Proof.Endings
import PxAccounts.Proof.Orphans

/-!
# Exceptions of plugins

An exception of `read`, `write` or `remove` is always caught.  One of `verify` or `authenticate` is a
refusal when the container of a Python plugin turns it into one; otherwise it ends the operation, and
what was saved for the other services stays.
-/

namespace PxAccounts

open Effect AccountManager

variable {Text : Type} {env : Env Text}

/-- The operations on accounts, as far as they return a Boolean. -/
inductive AccountCall
  | create (act : AccountObject)
  | modify (id : Uuid) (act : AccountObject)
  | delete (id : Uuid)
  | read (id : Uuid)

def AccountCall.run (env : Env Text) : AccountCall → M Text Bool
  | .create act => do return (← createAccount env act).1
  | .modify id act => do return (← modifyAccount env id act).1
  | .delete id => deleteAccount env id
  | .read id => do return (← readAccount env id).isSome

/-- The services of the account that is passed were initialised. -/
def AccountCall.Inited (env : Env Text) : AccountCall → Prop
  | .create act => AllInited env act.services
  | .modify _ act => AllInited env act.services
  | _ => True

/-- The state after the operation, also when it raised. -/
def AccountCall.after (env : Env Text) (w : World Text) (call : AccountCall) : World Text :=
  final ((call.run env).run w)

/-- This is the message of an event manager that is not set up. -/
def Env.NotInitedYet (env : Env Text) (what : String) : Prop :=
  env.eventManagerInited = false ∧ what = "EventManager is not inited yet!"

/-- The exception is not one of a plugin. -/
def Exn.IsFault (env : Env Text) : Exn → Prop
  | .undefined _ => True
  | .std what => env.NotInitedYet what
  | .kj _ => False

/-- The program returns a Boolean, unless it fails for a reason that no plugin gave. -/
def Contains (env : Env Text) (m : M Text Bool) (w : World Text) : Prop :=
  (∃ b w', m.run w = .ok b w') ∨ ∃ e w', m.run w = .error e w' ∧ e.IsFault env

/-- A plugin raised an exception in this `verify` or `authenticate`, whatever its container makes of
it. -/
def Call.Fails : Call Text → Prop
  | .verify _ _ (.returned _) => False
  | .authenticate _ _ (.returned _) => False
  | .verify .. => True
  | .authenticate .. => True
  | _ => False

/-- The secrets of the services are removed again, and nothing saved since `w` is left unless the
attributes of a token name another account or service. -/
structure Withdrawn (env : Env Text) (act : AccountObject) (id : Uuid) (w w' : World Text) : Prop where
  none_of : ∀ svcName ∈ act.services, ∀ s ∈ w'.secrets, ¬s.Of env id svcName
  none_new : TokensLack env {"account_id", "service"} → ∀ s ∈ w'.secrets, s ∈ w.secrets

/-- An exception in `verify` or `authenticate` is as good as a refusal. -/
def FailsAsRefused (env : Env Text) (w : World Text) : AccountCall → Prop
  | .create act => ∀ b act' w', (createAccount env act).run w = .ok (b, act') w' →
      (∃ c ∈ w.newCalls w', c.Fails) →
      b = false ∧ (uuidIsNull act'.id = false → Withdrawn env act act'.id w w')
  | .modify id act => ∀ b act' w', (modifyAccount env id act).run w = .ok (b, act') w' →
      (∃ c ∈ w.newCalls w', c.Fails) → b = false
  | _ => True

/-- The failures of plugins are contained in the operation. -/
def FailuresContained (env : Env Text) (w : World Text) (call : AccountCall) : Prop :=
  Contains env (call.run env) w ∧ FailsAsRefused env w call

/-! ## What is let out -/

theorem World.newCalls_trans {w w₁ w₂ : World Text} (h : w.calls <+: w₁.calls)
    (h' : w₁.calls <+: w₂.calls) : w.newCalls w₂ = w.newCalls w₁ ++ w₁.newCalls w₂ := by
  obtain ⟨cs, hcs⟩ := h
  obtain ⟨cs', hcs'⟩ := h'
  simp [newCalls, tick, ← hcs', ← hcs]

theorem World.newCalls_of_calls_eq {w w' : World Text} (h : w'.calls = w.calls) :
    w.newCalls w' = [] := by
  rw [newCalls, h, tick, List.drop_length]

/-- The calls made since all satisfy `P`. -/
def callsAll (P : Call Text → Prop) : Frame (World Text) where
  rel w w' := w.calls <+: w'.calls ∧ ∀ c ∈ w.newCalls w', P c
  refl w := ⟨List.prefix_refl _, fun c hc => by
    rw [World.newCalls_of_calls_eq rfl] at hc
    cases hc⟩
  trans h₁ h₂ := ⟨h₁.1.trans h₂.1, fun c hc => by
    rw [World.newCalls_trans h₁.1 h₂.1] at hc
    exact (List.mem_append.1 hc).elim (h₁.2 c) (h₂.2 c)⟩

theorem callsAll_of_one {P : Call Text → Prop} {w w' : World Text} {c : Call Text} (hc : P c)
    (h : w'.calls = w.calls ++ [c]) : (callsAll P).rel w w' := by
  refine ⟨h ▸ List.prefix_append _ _, fun c' hc' => ?_⟩
  rw [newCalls_eq h, List.mem_singleton] at hc'
  rwa [hc']

theorem records_callsAll {P : Call Text → Prop} (h : ∀ c : Call Text, ¬c.Asks → P c) :
    Records (callsAll P) where
  same hcalls := ⟨hcalls ▸ List.prefix_refl _, fun c hc => by
    rw [World.newCalls_of_calls_eq hcalls] at hc
    cases hc⟩
  record c hc hcalls := callsAll_of_one (h c hc) hcalls

theorem Call.LetsOut.asks {c : Call Text} {what : String} (h : c.LetsOut env what) : c.Asks := by
  cases c <;> first | exact h | trivial

/-- No call lets an exception out, unless the run ends with it. -/
def letOut (env : Env Text) :
    Ending Exn (callsAll fun c : Call Text => ∀ what, ¬c.LetsOut env what) where
  raised w e w' := w.calls <+: w'.calls ∧
    (e.IsFault env ∧ (∀ c ∈ w.newCalls w', ∀ what, ¬c.LetsOut env what) ∨
      ∃ what, e = .std what ∧ (∃ c ∈ w.newCalls w', c.LetsOut env what) ∧
        ∀ c ∈ w.newCalls w', ∀ what', c.LetsOut env what' → what' = what)
  extend := by
    rintro w w₁ e w' hrel ⟨hgrow, hraised⟩
    have hold : ∀ c ∈ w.newCalls w', (∃ what, c.LetsOut env what) → c ∈ w₁.newCalls w' := by
      rintro c hc ⟨what, hout⟩
      rw [World.newCalls_trans hrel.1 hgrow] at hc
      exact (List.mem_append.1 hc).resolve_left fun h => hrel.2 c h what hout
    refine ⟨hrel.1.trans hgrow, ?_⟩
    rcases hraised with ⟨hfault, hnone⟩ | ⟨what, rfl, ⟨c, hc, hout⟩, hsame⟩
    · exact .inl ⟨hfault, fun c hc what hout => hnone c (hold c hc ⟨what, hout⟩) what hout⟩
    · refine .inr ⟨what, rfl, ⟨c, World.newCalls_mono_left hrel.1 hc, hout⟩, ?_⟩
      exact fun c' hc' what' hout' => hsame c' (hold c' hc' ⟨what', hout'⟩) what' hout'

/-- The exception that the container of the plugin lets out, if any. -/
def Answer.uncaught? {α : Type} (plugin : PluginContainer) : Answer α → Option String
  | .returned _ => none
  | .errorAlreadySet what => if plugin.type = .cppPlugin then some what else none
  | .raised what => some what

theorem Answer.uncaught_iff {α : Type} {plugin : PluginContainer} {what : String}
    {answer : Answer α} : answer.Uncaught plugin what ↔ answer.uncaught? plugin = some what := by
  cases answer with
  | returned a => simp [Answer.Uncaught, Answer.uncaught?]
  | errorAlreadySet w => simp [Answer.Uncaught, Answer.uncaught?, and_comm]
  | raised w => simp [Answer.Uncaught, Answer.uncaught?]

/-- The exception that is let out in this call, if any. -/
def Call.letOut? (env : Env Text) : Call Text → Option String
  | .verify title _ answer => (env.pluginNamed title).bind answer.uncaught?
  | .authenticate title _ answer => (env.pluginNamed title).bind answer.uncaught?
  | _ => none

theorem Call.letsOut_iff {c : Call Text} {what : String} :
    c.LetsOut env what ↔ c.letOut? env = some what := by
  cases c with
  | verify title params answer =>
    simp only [Call.LetsOut, Call.letOut?, Option.bind_eq_some_iff, Answer.uncaught_iff]
  | authenticate title params answer =>
    simp only [Call.LetsOut, Call.letOut?, Option.bind_eq_some_iff, Answer.uncaught_iff]
  | _ => exact iff_of_false id (Option.some_ne_none what).symm

theorem Call.LetsOut.unique {c : Call Text} {what what' : String} (h : c.LetsOut env what)
    (h' : c.LetsOut env what') : what' = what :=
  Option.some.inj ((letsOut_iff.1 h').symm.trans (letsOut_iff.1 h))

theorem admits_letOut : Admits env (letOut env) where
  toRecords := records_callsAll fun c hc what hout => hc hout.asks
  undefined w what _ := by
    refine ⟨List.prefix_refl _, .inl ⟨trivial, ?_⟩⟩
    simp [World.newCalls_of_calls_eq]
  notInited h w := by
    refine ⟨List.prefix_refl _, .inl ⟨⟨h, rfl⟩, ?_⟩⟩
    simp [World.newCalls_of_calls_eq]
  answered c hc hcalls := callsAll_of_one hc hcalls
  letOut w c what hout := by
    have hone : w.newCalls (w.record c) = [c] := newCalls_eq rfl
    refine ⟨List.prefix_append _ _, .inr ⟨what, rfl, ?_, ?_⟩⟩
    · rw [hone]
      exact ⟨c, List.mem_singleton_self c, hout⟩
    · rw [hone]
      intro c' hc' what' hout'
      rw [List.mem_singleton.1 hc'] at hout'
      exact hout.unique hout'

variable {F : Frame (World Text)} {V : Ending Exn F}

theorem ends_call_run (hV : Admits env V) {call : AccountCall} (hinit : call.Inited env) :
    Ends V (call.run env) := by
  cases call with
  | create act => exact (ends_createAccount hV hinit).bind fun _ => ends_pure _
  | modify id act => exact (ends_modifyAccount hV id hinit).bind fun _ => ends_pure _
  | delete id => exact ends_deleteAccount hV.toAdmitsUninited id
  | read id => exact (ends_readAccount hV.toRecords id).bind fun _ => ends_pure _

/-- An operation contains the exceptions of plugins unless one of them is let out. -/
theorem contains_iff {call : AccountCall} (hinit : call.Inited env) (w : World Text) :
    Contains env (call.run env) w ↔
      ∀ c ∈ w.newCalls (call.after env w), ∀ what, c.LetsOut env what → env.NotInitedYet what := by
  have hends := ends_call_run admits_letOut hinit
  rw [Contains, AccountCall.after]
  cases hr : (call.run env).run w with
  | ok b w' =>
    refine iff_of_true (.inl ⟨b, w', rfl⟩) fun c hc what hout => ?_
    exact absurd hout ((hends.returned w b w' hr).2 c hc what)
  | error e w' =>
    obtain ⟨-, ⟨hfault, hnone⟩ | ⟨what, rfl, ⟨c, hc, hout⟩, hsame⟩⟩ := hends.raised w e w' hr
    · exact iff_of_true (.inr ⟨e, w', rfl, hfault⟩) fun c hc what hout =>
        absurd hout (hnone c hc what)
    · constructor
      · rintro (⟨b, w₁, h⟩ | ⟨e, w₁, h, hfault⟩) c' hc' what' hout'
        · cases h
        · cases h
          rwa [hsame c' hc' what' hout']
      · exact fun h => .inr ⟨_, w', rfl, h c hc what hout⟩

/-! ## Verifications that go well -/

/-- No plugin raised an exception in `verify` or `authenticate`. -/
abbrev calm : Frame (World Text) := callsAll fun c => ¬c.Fails

theorem Call.Fails.asks {c : Call Text} (h : c.Fails) : c.Asks := by
  cases c <;> trivial

theorem records_calm : Records (calm : Frame (World Text)) := records_callsAll fun _ hc h => hc h.asks

/-- A run that raises respects the frame too. -/
def anyhow (F : Frame (World Text)) : Ending Exn F where
  raised w _ w' := F.rel w w'
  extend := F.trans

theorem admitsFaults_anyhow (hF : Records F) : AdmitsFaults env (anyhow F) where
  toRecords := hF
  undefined w _ _ := F.refl w
  notInited _ w := F.refl w

theorem calm_asks {α : Type} {f : World Text → Answer α × World Text} {plugin : PluginContainer}
    {refused : String → α} (h : ∀ w, ∃ c : Call Text, (f w).2 = w.record c ∧
      ∀ a, (f w).1 = .returned a → ¬c.Fails) {a : α} {w w' : World Text}
    (hr : ((modifyGet f : M Text (Answer α)) >>= passOn plugin refused).run w = .ok a w')
    (ha : ∀ what, a ≠ refused what) : calm.rel w w' := by
  obtain ⟨answer, w₁, hcall, hr⟩ := run_bind_ok.1 hr
  obtain ⟨rfl, rfl⟩ := run_modifyGet_ok.1 hcall
  obtain ⟨c, hrecord, hfails⟩ := h w
  obtain ⟨rfl, hreturned | ⟨-, what, -, he⟩⟩ := passOn_ok hr
  · exact callsAll_of_one (hfails a hreturned) (congrArg World.calls hrecord)
  · exact absurd he (ha what)

theorem calm_pluginVerify {plugin : PluginContainer} {params : StrStrMap} {result : VerifyResult}
    {w w' : World Text} (hr : (plugin.verify env params).run w = .ok result w')
    (hverified : result.verified = true) : calm.rel w w' := by
  rw [verify_eq] at hr
  refine calm_asks (fun w => ⟨_, rfl, fun a ha => ?_⟩) hr fun what he => ?_
  · have hanswer : env.verify w.tick plugin params = .returned a := ha
    rw [hanswer]
    exact id
  · rw [he] at hverified
    cases hverified

theorem calm_pluginAuthenticate {plugin : PluginContainer} {params : ServiceParamList}
    {result : AuthResult} {w w' : World Text}
    (hr : (plugin.authenticate env params).run w = .ok result w')
    (hauthenticated : result.authenticated = true) : calm.rel w w' := by
  rw [authenticate_eq] at hr
  refine calm_asks (fun w => ⟨_, rfl, fun a ha => ?_⟩) hr fun what he => ?_
  · have hanswer : env.authenticate w.tick plugin params = .returned a := ha
    rw [hanswer]
    exact id
  · rw [he] at hauthenticated
    cases hauthenticated

section Verified

variable {name : String} {svc svc' : AccountService} {w w' : World Text}

theorem calm_verifyParams (hlinked : svc.LinkedAs env name) {owner : Owner} {vResult : VerifyResult}
    (hr : (svc.verifyParams env owner).run w = .ok (some vResult, svc') w') : calm.rel w w' := by
  have hF : Records (calm : Frame (World Text)) := records_calm
  have hD : AdmitsFaults env (anyhow calm) := admitsFaults_anyhow hF
  obtain ⟨plugin, hplugin⟩ := Option.isSome_iff_exists.1 hlinked.plugin_isSome
  rw [AccountService.verifyParams, hplugin] at hr
  obtain ⟨result, w₁, hverify, hr⟩ := run_bind_ok.1 hr
  split at hr
  · obtain ⟨he, -⟩ := run_pure_ok.1 hr
    cases he
  · next hverified =>
    rw [Bool.not_eq_true', Bool.not_eq_false] at hverified
    refine calm.trans (calm_pluginVerify hverify hverified) (Ends.returned (V := anyhow calm) ?_ _ _ _ hr)
    refine (ends_derefAccount hlinked.accountSet owner).bind fun account =>
      (ends_search hF _).bind fun savedSecrets =>
        (ends_mapM fun param _ => ends_loadSecret hD _ _ param).bind fun params => ?_
    exact (ends_glog hF _ _).bind fun _ => (ends_forM fun param _ => ends_glog hF _ _).bind
      fun _ => ends_pure _

theorem calm_authenticate {vResult : VerifyResult} {aResult : AuthResult}
    (hr : (svc.authenticate env vResult).run w = .ok (some aResult, svc') w') : calm.rel w w' := by
  have hF : Records (calm : Frame (World Text)) := records_calm
  obtain ⟨plugin, w₁, hderef, hr⟩ := run_bind_ok.1 hr
  obtain ⟨-, rfl⟩ := AccountService.derefPlugin_ok hderef
  obtain ⟨result, w₂, hauth, hr⟩ := run_bind_ok.1 hr
  dsimp only at hr
  split at hr
  · obtain ⟨he, -⟩ := run_pure_ok.1 hr
    cases he
  · next hauthenticated =>
    rw [Bool.not_eq_true', Bool.not_eq_false] at hauthenticated
    refine calm.trans (calm_pluginAuthenticate hauth hauthenticated)
      (Ends.returned (V := anyhow calm) ?_ _ _ _ hr)
    refine (ends_glog hF _ _).bind fun _ => (ends_forM fun token _ =>
      (ends_glog hF _ _).bind fun _ => ?_).bind fun _ => ends_pure _
    exact ends_forM fun attrib _ => ends_glog hF _ _

/-- A service that is accepted met no exception. -/
theorem calm_verify (hlinked : svc.LinkedAs env name) {owner : Owner}
    (hr : (svc.verify env owner).run w = .ok (true, svc') w') : calm.rel w w' := by
  have hF : Records (calm : Frame (World Text)) := records_calm
  have hcleared : ({ svc with errors := [] } : AccountService).LinkedAs env name := hlinked.congr rfl
  obtain ⟨⟨r, svc₁⟩, w₁, hparams, hr⟩ := run_bind_ok.1 hr
  rcases AccountService.verifyParams_ok hparams with ⟨rfl, -⟩ | ⟨_, vResult, params, -, rfl, rfl⟩
  · obtain ⟨_, _, -, hr⟩ := run_bind_ok.1 hr
    obtain ⟨he, -⟩ := run_pure_ok.1 hr
    cases he
  have hlinked₁ := hcleared.congr (AccountService.link_applyVerification _ params)
  obtain ⟨⟨r, svc₂⟩, w₂, hauth, hr⟩ := run_bind_ok.1 hr
  obtain ⟨⟨errs, rfl⟩, -⟩ := AccountService.authenticate_ok hauth
  cases r with
  | none =>
    obtain ⟨he, -⟩ := run_pure_ok.1 hr
    cases he
  | some aResult =>
    have hlinked₂ := hlinked₁.congr (AccountService.link_addErrorList _ errs)
    obtain ⟨⟨saved, svc₃⟩, w₃, hsave, hr⟩ := run_bind_ok.1 hr
    obtain ⟨errs', rfl⟩ := AccountService.saveProtectedParams_ok hsave
    have hsaved : calm.rel w₂ w₃ :=
      (ends_saveProtectedParams (V := anyhow calm) hF hlinked₂.accountSet owner aResult).returned _ _ _ hsave
    have hrest : calm.rel w₃ w' := by
      cases saved with
      | false =>
        obtain ⟨he, -⟩ := run_pure_ok.1 hr
        cases he
      | true =>
        have hlinked₃ := hlinked₂.congr (AccountService.link_addErrorList _ errs')
        have hends : Ends (anyhow calm) (do return (true, ← AccountService.customWrite env
            { vResult with params } aResult _) : M Text (Bool × AccountService)) :=
          (ends_customWrite hF hlinked₃.plugin_isSome _ _).bind fun _ => ends_pure _
        exact hends.returned _ _ _ hr
    exact calm.trans (calm_verifyParams hcleared hparams) <|
      calm.trans (calm_authenticate hauth) <| calm.trans hsaved hrest

end Verified

section Accounts

variable {act act' : AccountObject} {w w' : World Text}

theorem calm_verifyServices (hinit : AllInited env act.services)
    (hr : (act.verifyServices env).run w = .ok (true, act') w') : calm.rel w w' := by
  have hend := foldlM_ok_induction (fun (rest : List (String × AccountService))
      (state : Bool × AccountObject) s => (∀ kv ∈ rest, kv.2.LinkedAs env kv.1) ∧
        (state.1 = true → calm.rel w s)) ?_ _ ⟨fun kv hkv => ?_, fun _ => calm.refl w⟩ hr
  · exact hend.2 rfl
  · rintro kv rest state s state' s' ⟨hlinked, hcalm⟩ hturn
    obtain ⟨svcVerified, svc', hverify, hb, -, -⟩ := AccountObject.verifyService_ok hturn
    refine ⟨fun kv' hkv' => hlinked kv' (by simp [hkv']), fun hv => ?_⟩
    rw [hb, Bool.and_eq_true, Bool.and_eq_true] at hv
    obtain ⟨⟨hbefore, -⟩, rfl⟩ := hv
    exact calm.trans (hcalm hbefore) (calm_verify (hlinked kv (by simp)) hverify)
  · exact hinit kv.1 kv.2 (Std.ExtTreeMap.mem_toList_iff_getElem?_eq_some.1 hkv)

/-- An account that is accepted met no exception in `verify` and `authenticate`. -/
theorem calm_accountVerify (hinit : AllInited env act.services)
    (hr : (act.verify env).run w = .ok (true, act') w') : calm.rel w w' := by
  rcases AccountObject.verify_ok hr with ⟨hb, -⟩ | ⟨-, w₁, hservices, hend⟩
  · cases hb
  obtain ⟨-, rfl⟩ | ⟨hb, -⟩ := hend
  · exact calm_verifyServices (hinit.congr (AccountObject.sameLinks_prepared env act)) hservices
  · cases hb

theorem not_fails_of_calm {P : Prop} (h : calm.rel w w') (hfails : ∃ c ∈ w.newCalls w', c.Fails) :
    P := by
  obtain ⟨c, hc, hfails⟩ := hfails
  exact absurd hfails (h.2 c hc)

theorem calm_written (path : AccountPath) (data : Text) : calm.rel w (w.written env path data) :=
  records_calm.record _ id (w.calls_written path data)

theorem calm_published (event : String) (params : StrStrMap) :
    calm.rel w (w.published env event params) :=
  records_calm.record _ id (w.calls_published event params)

theorem calm_setStatus {id : Uuid} {stat : AccountStatus} {b : Bool}
    (hr : (setStatus env id stat).run w = .ok b w') : calm.rel w w' :=
  (ends_setStatus (admitsFaults_anyhow records_calm).toAdmitsUninited id stat).returned _ _ _ hr

/-- The secrets after a refusal. -/
theorem withdrawn_of_refused (hset : StoresOrRefuses env) (hdel : DeletesExactly env)
    (hinit : AllInited env act.services) (hr : (act.verify env).run w = .ok (false, act') w')
    (hfails : ∃ c ∈ w.newCalls w', c.Fails) (hid : uuidIsNull act.id = false) :
    Withdrawn env act act.id w w' where
  none_of svcName hmem s hs hof := by
    rcases AccountObject.verify_ok hr with ⟨-, rfl, -⟩ | ⟨hreach, w₁, -, hend⟩
    · exact not_fails_of_calm (calm.refl _) hfails
    obtain ⟨hinit', hnames⟩ := services_of_verify hreach hr hinit
    obtain ⟨hb, -⟩ | ⟨-, hremove⟩ := hend
    · cases hb
    have hid' : act'.id = act.id := id_of_verify hr
    obtain ⟨svc, hsvc⟩ := Option.isSome_iff_exists.1
      (Std.ExtTreeMap.mem_iff_isSome_getElem?.1 ((hnames svcName).2 hmem))
    have hkv := Std.ExtTreeMap.mem_toList_iff_getElem?_eq_some.2 hsvc
    have hgone := ((removeAllSecrets_ok hdel (hid' ▸ hid) hremove s).1 hs).2 (svcName, svc) hkv
    rw [hid', (hinit' svcName svc hsvc).name_eq] at hgone
    exact hgone hof
  none_new hlack := secrets_of_refused hset hdel hlack hr hid hinit

/-- An exception in `verify` or `authenticate` refuses the new account. -/
theorem create_failsAsRefused (hset : StoresOrRefuses env) (hdel : DeletesExactly env)
    (hinit : AllInited env act.services) (w : World Text) :
    FailsAsRefused env w (.create act) := by
  intro b act' w' hr hfails
  rcases createAccount_ok hr with ⟨rfl, errs, rfl⟩ | ⟨parser, -, hcase⟩
  · exact not_fails_of_calm (records_calm.same rfl) hfails
  have hrecord : calm.rel w (w.record (.uuidGenerate (env.uuidGenerate w.tick))) :=
    records_calm.record _ id rfl
  have hinit' : AllInited env ({ act with id := env.uuidGenerate w.tick } : AccountObject).services :=
    hinit
  cases hcase with
  | limit => exact not_fails_of_calm (calm.trans hrecord (records_calm.same rfl)) hfails
  | @refused _ w₁ errs hlimit hverify =>
    refine ⟨rfl, fun hid => ?_⟩
    rw [id_of_verify hverify] at hid ⊢
    have hgrow := (AccountObject.calls_verify _).rel_of_ok hverify
    have hfails' : ∃ c ∈ (w.record (.uuidGenerate (env.uuidGenerate w.tick))).newCalls w₁, c.Fails := by
      obtain ⟨c, hc, hfails⟩ := hfails
      have hc' : c ∈ w.newCalls w₁ := hc
      rw [World.newCalls_trans hrecord.1 hgrow] at hc'
      exact ⟨c, (List.mem_append.1 hc').resolve_left fun h => hrecord.2 c h hfails, hfails⟩
    have hwithdrawn := withdrawn_of_refused hset hdel hinit' hverify hfails' hid
    exact ⟨hwithdrawn.none_of, hwithdrawn.none_new⟩
  | unwritten hlimit hverify hwhy =>
    exact not_fails_of_calm (calm.trans hrecord <| calm.trans (calm_accountVerify hinit' hverify) <|
      records_calm.same rfl) hfails
  | created hlimit hverify hid hro hstatus =>
    refine not_fails_of_calm (calm.trans hrecord <| calm.trans (calm_accountVerify hinit' hverify) <|
      calm.trans (calm_written _ _) <| calm.trans (calm_setStatus hstatus) ?_) hfails
    exact calm_published _ _

/-- The same for an account that is modified. -/
theorem modify_failsAsRefused (id : Uuid) (hinit : AllInited env act.services) (w : World Text) :
    FailsAsRefused env w (.modify id act) := by
  intro b act' w' hr hfails
  rcases modifyAccount_ok hr with ⟨rfl, -⟩ | ⟨parser, acc, oldAct, w₁, parser', hread, -, hcase⟩
  · rfl
  have hreading : calm.rel w w₁ := (ends_readAccount (V := anyhow calm) records_calm id).returned
    _ _ _ hread.run_readAccount
  have hinit' : AllInited env ({ act with id := id } : AccountObject).services := hinit
  cases hcase with
  | refused => rfl
  | unwritten => rfl
  | modified hverify hid hro hstatus hcleanup =>
    refine not_fails_of_calm (calm.trans hreading <| calm.trans (calm_accountVerify hinit' hverify) <|
      calm.trans (calm_written _ _) <| calm.trans (calm_setStatus hstatus) <|
      calm.trans ?_ (calm_published _ _)) hfails
    exact (ends_cleanup (V := anyhow calm) records_calm hread.allInited _).returned _ _ _ hcleanup

end Accounts

/-- No plugin is asked to verify or to authenticate in a deletion or a read. -/
theorem not_asks {call : AccountCall} (hcall : ∃ id, call = .delete id ∨ call = .read id)
    (w : World Text) : ∀ c ∈ w.newCalls (call.after env w), ¬c.Asks := by
  have hF : Records (callsAll fun c : Call Text => ¬c.Asks) := records_callsAll fun _ hc => hc
  have hends : Ends (anyhow (callsAll fun c : Call Text => ¬c.Asks)) (call.run env) := by
    obtain ⟨id, rfl | rfl⟩ := hcall
    · exact ends_deleteAccount (admitsFaults_anyhow hF).toAdmitsUninited id
    · exact (ends_readAccount hF id).bind fun _ => ends_pure _
  rw [AccountCall.after]
  cases hr : (call.run env).run w with
  | ok b w' => exact (hends.returned w b w' hr).2
  | error e w' => exact (hends.raised w e w' hr).2

/-- The failures of plugins are contained exactly when no exception of `verify` or `authenticate` is
let out in the operation, and always in a deletion or a read. -/
theorem failures_contained_iff (env : Env Text) (hset : StoresOrRefuses env)
    (hdel : DeletesExactly env) (call : AccountCall) (hinit : call.Inited env) (w : World Text) :
    (FailuresContained env w call ↔
      ∀ c ∈ w.newCalls (call.after env w), ∀ what, c.LetsOut env what → env.NotInitedYet what) ∧
    ((∃ id, call = .delete id ∨ call = .read id) → FailuresContained env w call) := by
  have hiff : FailuresContained env w call ↔
      ∀ c ∈ w.newCalls (call.after env w), ∀ what, c.LetsOut env what → env.NotInitedYet what := by
    refine (and_iff_left ?_).trans (contains_iff hinit w)
    cases call with
    | create act => exact create_failsAsRefused hset hdel hinit w
    | modify id act => exact modify_failsAsRefused id hinit w
    | delete id => trivial
    | read id => trivial
  exact ⟨hiff, fun hcall => hiff.2 fun c hc what hout => absurd hout.asks (not_asks hcall w c hc)⟩

instance : DecidablePred (Call.Fails : Call Text → Prop) := fun c => by
  unfold Call.Fails
  split <;> infer_instance

/-- The reference service, with a plugin whose `verify` raises an exception of Python. -/
def raisingEnv : Env YamlText :=
  { referenceEnv with verify := fun _ _ _ => .errorAlreadySet "ConnectionError: no route to host" }

/-- The exception is contained: its container makes a refusal of it. -/
theorem failures_contained_mail :
    (∃ c ∈ ({ files := fun _ => ∅ } : World YamlText).newCalls ((AccountCall.create
      (requestedMail raisingEnv)).after raisingEnv { files := fun _ => ∅ }), c.Fails) ∧
    FailuresContained raisingEnv { files := fun _ => ∅ } (.create (requestedMail raisingEnv)) := by
  have hkept : ∀ c ∈ ({ files := fun _ => ∅ } : World YamlText).newCalls ((AccountCall.create
      (requestedMail raisingEnv)).after raisingEnv { files := fun _ => ∅ }),
      c.letOut? raisingEnv = none := by decide +kernel
  refine ⟨by decide +kernel, (failures_contained_iff raisingEnv
    ⟨reference_storesOrRefuses.stores, reference_storesOrRefuses.refuses⟩ reference_deletesExactly
    (.create (requestedMail raisingEnv)) (decoded_requestedMail raisingEnv.toAnswers).allInited
    _).1.2 ?_⟩
  intro c hc what hout
  rw [Call.letsOut_iff, hkept c hc] at hout
  cases hout

/-- The reference service, with a plugin whose `verify` returns a value of the wrong type. -/
def wrongTypeEnv : Env YamlText :=
  { referenceEnv with verify := fun _ _ _ => .raised "Unable to cast Python instance" }

/-- The exception leaves the creation of an account. -/
theorem wrong_type_leaves_creation : ¬∀ (env : Env YamlText) (w : World YamlText)
    (call : AccountCall), StoresOrRefuses env → DeletesExactly env → call.Inited env →
      FailuresContained env w call := by
  intro h
  have hraised : ((AccountCall.create (requestedMail wrongTypeEnv)).run wrongTypeEnv).run
      { files := fun _ => ∅ } = .error (.std "Unable to cast Python instance") _ :=
    eq_error_of_exception? (by decide +kernel)
  have hcontained := h wrongTypeEnv { files := fun _ => ∅ } (.create (requestedMail wrongTypeEnv))
    ⟨reference_storesOrRefuses.stores, reference_storesOrRefuses.refuses⟩ reference_deletesExactly
    (decoded_requestedMail wrongTypeEnv.toAnswers).allInited
  rcases hcontained.1 with ⟨b, w', hok⟩ | ⟨e, w', herr, hfault⟩
  · rw [hraised] at hok
    cases hok
  · rw [hraised] at herr
    cases herr
    cases hfault.1

end PxAccounts
