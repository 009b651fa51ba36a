import PxAccounts.Proof.ServiceFrame

/-!
# Runs of the verification of a service

What is known of a service after a verification that returned: it is still linked to the same
plugin, and if it was accepted, its parameters and flags come from the answer of the plugin's
`verify`, unless a custom write has replaced them.
-/

namespace PxAccounts

open Effect

variable {Text : Type} {env : Env Text}

/-! ## The record of calls -/

/-- The growth of the record of calls. -/
def callsFrame : Frame (World Text) where
  rel w w' := w.calls <+: w'.calls
  refl _ := List.prefix_refl _
  trans h₁ h₂ := h₁.trans h₂

theorem quiet_callsFrame : Quiet (callsFrame : Frame (World Text)) where
  record _ _ _ := List.prefix_append _ _
  log _ _ := List.prefix_refl _

namespace World

/-- The calls made between two states of a run. -/
def newCalls (w w' : World Text) : List (Call Text) := w'.calls.drop w.tick

theorem mem_newCalls_of_prefix {w w' : World Text} {c : Call Text}
    (h : (w.record c).calls <+: w'.calls) : c ∈ w.newCalls w' := by
  obtain ⟨cs, hcs⟩ := h
  rw [newCalls, ← hcs, record, tick, List.append_assoc, List.drop_left]
  simp

theorem newCalls_mono_right {w w₁ w₂ : World Text} {c : Call Text} (h : w₁.calls <+: w₂.calls)
    (hc : c ∈ w.newCalls w₁) : c ∈ w.newCalls w₂ := by
  obtain ⟨cs, hcs⟩ := h
  rw [newCalls, ← hcs, List.drop_append]
  exact List.mem_append_left _ hc

theorem newCalls_mono_left {w₀ w w' : World Text} {c : Call Text} (h : w₀.calls <+: w.calls)
    (hc : c ∈ w.newCalls w') : c ∈ w₀.newCalls w' := by
  obtain ⟨cs, hcs⟩ := h
  rw [newCalls, tick, ← hcs, List.length_append, ← List.drop_drop] at hc
  exact List.mem_of_mem_drop hc

end World

/-! ## What verification keeps -/

/-- What only `init` sets. -/
def AccountService.link (svc : AccountService) :
    String × Bool × Option PluginContainer × Bool :=
  (svc.name, svc.accountSet, svc.plugin, svc.inited)

namespace AccountService

@[simp] theorem link_addError (svc : AccountService) (err : String) :
    (svc.addError err).link = svc.link := rfl

@[simp] theorem link_addErrorList (svc : AccountService) (errs : StringList) :
    (svc.addErrorList errs).link = svc.link := rfl

/-- The entries that a list of parameters assigns, by `f`. -/
def assigned {β : Type} (f : ServiceParam → β) (params : ServiceParamList) : StrMap β :=
  TreeMap.insertAll ∅ (params.map fun p => (p.key, f p))

theorem applyVerification_eq (svc : AccountService) (params : ServiceParamList) :
    svc.applyVerification params =
      { svc with
        params := assigned ServiceParam.val params
        requiredDict := assigned ServiceParam.isRequired params
        protectedDict := assigned ServiceParam.isProtected params
        verified := true } := by
  have hfold : ∀ (l : ServiceParamList) (svc : AccountService),
      l.foldl (fun svc param =>
        { svc with
          params := svc.params.insert param.key param.val
          requiredDict := svc.requiredDict.insert param.key param.isRequired
          protectedDict := svc.protectedDict.insert param.key param.isProtected }) svc =
      { svc with
        params := TreeMap.insertAll svc.params (l.map fun p => (p.key, p.val))
        requiredDict := TreeMap.insertAll svc.requiredDict (l.map fun p => (p.key, p.isRequired))
        protectedDict :=
          TreeMap.insertAll svc.protectedDict (l.map fun p => (p.key, p.isProtected)) } := by
    intro l
    induction l with
    | nil => exact fun svc => rfl
    | cons p l ih => exact fun svc => ih _
  rw [applyVerification, hfold]
  rfl

@[simp] theorem link_applyVerification (svc : AccountService) (params : ServiceParamList) :
    (svc.applyVerification params).link = svc.link := by
  rw [applyVerification_eq]
  rfl

/-! ## Verification of the parameters -/

/-- The parameter `q` is the parameter `p` of a verify result after saved secrets are loaded. -/
structure Loaded (p q : ServiceParam) : Prop where
  key : q.key = p.key
  isRequired : q.isRequired = p.isRequired
  isProtected : q.isProtected = p.isProtected
  val : p.isProtected = false → q.val = p.val

theorem loadSecret_ok {svcName : String} {savedSecrets : List SecretItemPtr}
    {p q : ServiceParam} {w w' : World Text}
    (hr : (loadSecret svcName savedSecrets p).run w = .ok q w') : Loaded p q := by
  rw [loadSecret] at hr
  split at hr
  next hp =>
    rw [Bool.and_eq_true] at hp
    cases hm : savedSecrets.foldlM (matchSecret svcName p.key) p.val with
    | error e =>
      rw [hm] at hr
      exact absurd hr run_throw_ne_ok
    | ok val =>
      simp only [hm] at hr
      have hq : q = { p with val := val } := by
        split at hr <;> simp only [run_bind_ok, run_pure_ok] at hr <;>
          obtain ⟨_, _, -, rfl, -⟩ := hr <;> rfl
      subst hq
      exact ⟨rfl, rfl, rfl, fun h => by rw [hp.1] at h; cases h⟩
  next hp =>
    rw [run_pure_ok] at hr
    obtain ⟨rfl, -⟩ := hr
    exact ⟨rfl, rfl, rfl, fun _ => rfl⟩

theorem mapM_loadSecret_ok {svcName : String} {savedSecrets : List SecretItemPtr}
    {ps qs : ServiceParamList} {w w' : World Text}
    (hr : (ps.mapM (loadSecret svcName savedSecrets)).run w = .ok qs w') :
    List.Forall₂ Loaded ps qs := by
  induction ps generalizing w w' qs with
  | nil =>
    rw [List.mapM_nil, run_pure_ok] at hr
    obtain ⟨rfl, -⟩ := hr
    exact .nil
  | cons p ps ih =>
    simp only [List.mapM_cons, run_bind_ok, run_pure_ok] at hr
    obtain ⟨q, s₁, hq, qs', s₂, hqs, rfl, -⟩ := hr
    exact .cons (loadSecret_ok hq) (ih hqs)

theorem pluginVerify_ok {plugin : PluginContainer} {params : StrStrMap} {result : VerifyResult}
    {w w' : World Text} (hr : (plugin.verify env params).run w = .ok result w')
    (hv : result.verified = true) :
    w' = w.record (.verify plugin.title params (.returned result)) := by
  simp only [PluginContainer.verify, run_bind_ok, Env.callVerify, run_modifyGet_ok] at hr
  obtain ⟨answer, s₁, ⟨rfl, rfl⟩, hr⟩ := hr
  cases ha : env.verify w.tick plugin params with
  | returned result' =>
    simp only [ha, run_pure_ok] at hr
    obtain ⟨rfl, rfl⟩ := hr
    rfl
  | raised what =>
    simp only [ha] at hr
    exact absurd hr run_throw_ne_ok
  | errorAlreadySet what =>
    simp only [ha] at hr
    split at hr
    · rw [run_pure_ok] at hr
      obtain ⟨rfl, -⟩ := hr
      cases hv
    · exact absurd hr run_throw_ne_ok

/-- The service was accepted by the plugin's `verify`: the answer, and the parameters it became when
the saved secrets were loaded. -/
structure Accepted (svc : AccountService) (w w' : World Text) (plugin : PluginContainer)
    (vResult : VerifyResult) (params : ServiceParamList) : Prop where
  plugin_eq : svc.plugin = some plugin
  accountSet : svc.accountSet = true
  verified : vResult.verified = true
  called : .verify plugin.title svc.params (.returned vResult) ∈ w.newCalls w'
  loaded : List.Forall₂ Loaded vResult.params params

theorem derefAccount_ok {svc : AccountService} {owner account : Owner} {w w' : World Text}
    (hr : (svc.derefAccount owner).run w = .ok account w') :
    svc.accountSet = true ∧ owner = account ∧ w = w' := by
  rw [derefAccount] at hr
  split at hr
  next h =>
    rw [run_pure_ok] at hr
    exact ⟨h, hr⟩
  next h => exact absurd hr run_throw_ne_ok

theorem derefPlugin_ok {svc : AccountService} {plugin : PluginContainer} {w w' : World Text}
    (hr : svc.derefPlugin.run w = .ok plugin w') : svc.plugin = some plugin ∧ w = w' := by
  rw [derefPlugin] at hr
  cases hp : svc.plugin with
  | some plugin' =>
    rw [hp, run_pure_ok] at hr
    exact ⟨by rw [hr.1], hr.2⟩
  | none =>
    rw [hp] at hr
    exact absurd hr run_throw_ne_ok

theorem verifyParams_ok {owner : Owner} {svc svc' : AccountService} {r : Option VerifyResult}
    {w w' : World Text} (hr : (svc.verifyParams env owner).run w = .ok (r, svc') w') :
    (r = none ∧ svc'.link = svc.link) ∨
      ∃ plugin vResult params, Accepted svc w w' plugin vResult params ∧
        r = some { vResult with params } ∧ svc' = svc.applyVerification params := by
  rw [verifyParams] at hr
  cases hp : svc.plugin with
  | none =>
    simp only [hp, run_bind_ok, run_pure_ok] at hr
    obtain ⟨_, _, -, he, -⟩ := hr
    cases he
    exact .inl ⟨rfl, rfl⟩
  | some plugin =>
    simp only [hp] at hr
    obtain ⟨vResult, s₁, hv, hr⟩ := run_bind_ok.1 hr
    split at hr
    next hf =>
      rw [run_pure_ok] at hr
      obtain ⟨he, -⟩ := hr
      cases he
      exact .inl ⟨rfl, rfl⟩
    next hf =>
      rw [Bool.not_eq_true', Bool.not_eq_false] at hf
      have hs₁ := pluginVerify_ok hv hf
      simp only [run_bind_ok, run_pure_ok] at hr
      obtain ⟨account, s₂, ha, savedSecrets, s₃, hsearch, params, s₄, hload, _, s₅, hlog, _, s₆,
        hlogs, he, rfl⟩ := hr
      obtain ⟨hset, rfl, rfl⟩ := derefAccount_ok ha
      cases he
      have hgrow : s₁.calls <+: s₆.calls :=
        have hq : Searching (callsFrame : Frame (World Text)) := quiet_callsFrame.asking.searching
        ((within_search hq _).rel_of_ok hsearch).trans <|
          ((within_mapM fun param _ => within_loadSecret hq _ _ param).rel_of_ok hload).trans <|
            ((within_glog hq _ _).rel_of_ok hlog).trans <|
              (within_forM fun param _ => within_glog hq _ _).rel_of_ok hlogs
      refine .inr ⟨plugin, vResult, params, ⟨hp, hset, hf, ?_, mapM_loadSecret_ok hload⟩, rfl, rfl⟩
      exact World.mem_newCalls_of_prefix (hs₁ ▸ hgrow)

/-! ## Authentication and the saved tokens -/

@[simp] theorem addErrorList_addErrorList (svc : AccountService) (errs errs' : StringList) :
    (svc.addErrorList errs).addErrorList errs' = svc.addErrorList (errs ++ errs') := by
  simp [addErrorList]

theorem addErrorList_nil (svc : AccountService) : svc.addErrorList [] = svc := by
  simp [addErrorList]

theorem addError_eq (svc : AccountService) (err : String) :
    svc.addError err = svc.addErrorList [err] := rfl

/-- An authentication that succeeded goes back to an answer of a plugin. -/
theorem pluginAuthenticate_ok {plugin : PluginContainer} {params : ServiceParamList}
    {result : AuthResult} {w w' : World Text}
    (hr : (plugin.authenticate env params).run w = .ok result w')
    (ha : result.authenticated = true) : env.authenticate w.tick plugin params = .returned result := by
  simp only [PluginContainer.authenticate, run_bind_ok, Env.callAuthenticate,
    run_modifyGet_ok] at hr
  obtain ⟨answer, s₁, ⟨rfl, rfl⟩, hr⟩ := hr
  cases hans : env.authenticate w.tick plugin params with
  | returned result' =>
    simp only [hans, run_pure_ok] at hr
    obtain ⟨rfl, rfl⟩ := hr
    rfl
  | raised what =>
    simp only [hans] at hr
    exact absurd hr run_throw_ne_ok
  | errorAlreadySet what =>
    simp only [hans] at hr
    split at hr
    · rw [run_pure_ok] at hr
      obtain ⟨rfl, -⟩ := hr
      cases ha
    · exact absurd hr run_throw_ne_ok

theorem authenticate_ok {vResult : VerifyResult} {svc svc' : AccountService}
    {r : Option AuthResult} {w w' : World Text}
    (hr : (svc.authenticate env vResult).run w = .ok (r, svc') w') :
    (∃ errs, svc' = svc.addErrorList errs) ∧ ∀ aResult, r = some aResult →
      ∃ n plugin, svc.plugin = some plugin ∧
        env.authenticate n plugin vResult.params = .returned aResult := by
  simp only [authenticate] at hr
  obtain ⟨plugin, s₁, hp, hr⟩ := run_bind_ok.1 hr
  obtain ⟨authResult, s₂, ha, hr⟩ := run_bind_ok.1 hr
  split at hr
  next hf =>
    rw [run_pure_ok] at hr
    obtain ⟨he, -⟩ := hr
    cases he
    exact ⟨⟨_, rfl⟩, fun _ h => by cases h⟩
  next hf =>
    rw [Bool.not_eq_true', Bool.not_eq_false] at hf
    simp only [run_bind_ok, run_pure_ok] at hr
    obtain ⟨_, s₃, -, _, s₄, -, he, -⟩ := hr
    cases he
    refine ⟨⟨_, rfl⟩, fun aResult h => ?_⟩
    cases h
    exact ⟨s₁.tick, plugin, (derefPlugin_ok hp).1, pluginAuthenticate_ok ha hf⟩

theorem foldlM_collectStep_ok {owner : Owner} {l : List SecretToken}
    {state state' : StrMap SecretItem × AccountService} {w w' : World Text}
    (hr : (l.foldlM (collectStep env owner) state).run w = .ok state' w') :
    ∃ errs, state'.2 = state.2.addErrorList errs := by
  refine foldlM_ok_induction (fun _ st _ => ∃ errs, st.2 = state.2.addErrorList errs) ?_ l
    ⟨[], (addErrorList_nil _).symm⟩ hr
  rintro t l ⟨secretDict, svc⟩ s ⟨secretDict', svc'⟩ s' ⟨errs, herrs⟩ hs
  simp only [collectStep] at hs
  cases hschema : t.attributes["schema"]? with
  | none =>
    simp only [hschema, run_bind_ok, run_pure_ok] at hs
    obtain ⟨-, -, -, he, -⟩ := hs
    cases he
    dsimp only at herrs ⊢
    rw [herrs, addError_eq, addErrorList_addErrorList]
    exact ⟨_, rfl⟩
  | some schema =>
    simp only [hschema, run_bind_ok, run_pure_ok] at hs
    obtain ⟨_, _, -, account, s₂, -, he, -⟩ := hs
    cases he
    exact ⟨errs, herrs⟩

theorem saveProtectedParams_ok {owner : Owner} {aResult : AuthResult}
    {svc svc' : AccountService} {saved : Bool} {w w' : World Text}
    (hr : (svc.saveProtectedParams env owner aResult).run w = .ok (saved, svc') w') :
    ∃ errs, svc' = svc.addErrorList errs := by
  simp only [saveProtectedParams] at hr
  obtain ⟨_, s₁, -, hr⟩ := run_bind_ok.1 hr
  obtain ⟨⟨secretDict, svc₁⟩, s₂, hfold, hr⟩ := run_bind_ok.1 hr
  obtain ⟨errs, herrs⟩ := foldlM_collectStep_ok hfold
  dsimp only at herrs hr
  subst herrs
  obtain ⟨saved', s₃, -, hr⟩ := run_bind_ok.1 hr
  split at hr <;> rw [run_pure_ok] at hr <;> obtain ⟨he, -⟩ := hr <;> cases he
  · exact ⟨errs, rfl⟩
  · rw [addError_eq, addErrorList_addErrorList]
    exact ⟨_, rfl⟩

/-! ## The custom write -/

/-- A service whose parameters a custom write has replaced. -/
def withPluginId (svc : AccountService) (pluginId : String) : AccountService :=
  { svc.clearService with params := (∅ : StrStrMap).insert pluginIdParam pluginId }

theorem optionalResult_ok_iff {α : Type} (plugin : PluginContainer) (notFound : String)
    {answer : Option (Answer α)} {a : α} :
    plugin.optionalResult notFound answer = .ok a ↔ answer = some (.returned a) := by
  rcases answer with _ | (b | what | what)
  · cases h : plugin.type <;> simp [PluginContainer.optionalResult, h]
  · simp [PluginContainer.optionalResult]
  · simp [PluginContainer.optionalResult]
  · simp [PluginContainer.optionalResult]

theorem pluginWrite_ok {plugin : PluginContainer} {vResult : VerifyResult} {aResult : AuthResult}
    {result : Except String String} {w w' : World Text}
    (hr : (plugin.write env vResult aResult).run w = .ok result w') :
    result = plugin.optionalResult "write not found"
        (env.write w.tick plugin vResult aResult w.records).1 ∧
      w'.records = (env.write w.tick plugin vResult aResult w.records).2 := by
  simp only [PluginContainer.write, run_bind_ok, run_pure_ok, Env.callWrite,
    run_modifyGet_ok] at hr
  obtain ⟨answer, s, ⟨rfl, rfl⟩, rfl, rfl⟩ := hr
  exact ⟨rfl, rfl⟩

theorem customWrite_ok {vResult : VerifyResult} {aResult : AuthResult}
    {svc svc' : AccountService} {w w' : World Text}
    (hr : (svc.customWrite env vResult aResult).run w = .ok svc' w') :
    ∃ plugin, svc.plugin = some plugin ∧
      w'.records = (env.write w.tick plugin vResult aResult w.records).2 ∧
      ((∃ pluginId, (env.write w.tick plugin vResult aResult w.records).1 =
          some (.returned pluginId) ∧ svc' = svc.withPluginId pluginId) ∨
        ((∀ pluginId, (env.write w.tick plugin vResult aResult w.records).1 ≠
          some (.returned pluginId)) ∧ svc' = svc)) := by
  simp only [customWrite] at hr
  obtain ⟨plugin, s₁, hderef, hr⟩ := run_bind_ok.1 hr
  obtain ⟨hp, rfl⟩ := derefPlugin_ok hderef
  refine ⟨plugin, hp, ?_⟩
  obtain ⟨result, s₂, hwrite, hr⟩ := run_bind_ok.1 hr
  obtain ⟨hresult, hs₂⟩ := pluginWrite_ok hwrite
  cases result with
  | ok pluginId =>
    simp only [run_bind_ok, run_pure_ok, glog] at hr
    obtain ⟨_, s₃, hlog, rfl, rfl⟩ := hr
    cases hlog
    exact ⟨hs₂, .inl ⟨pluginId, (optionalResult_ok_iff _ _).1 hresult.symm, rfl⟩⟩
  | error errMsg =>
    have hnone : ∀ pluginId, (env.write w.tick plugin vResult aResult w.records).1 ≠
        some (.returned pluginId) := fun pluginId h => by
      rw [(optionalResult_ok_iff _ _).2 h] at hresult
      cases hresult
    dsimp only at hr
    split at hr
    · simp only [run_bind_ok, run_pure_ok, glog] at hr
      obtain ⟨_, s₃, hlog, rfl, rfl⟩ := hr
      cases hlog
      exact ⟨hs₂, .inr ⟨hnone, rfl⟩⟩
    · rw [run_pure_ok] at hr
      obtain ⟨rfl, rfl⟩ := hr
      exact ⟨hs₂, .inr ⟨hnone, rfl⟩⟩

/-! ## The whole verification -/

/-- What an accepted verification makes of a service before the custom write. -/
def verifiedAs (svc : AccountService) (params : ServiceParamList) (errs : StringList) :
    AccountService :=
  ({ svc with errors := [] }.applyVerification params).addErrorList errs

theorem link_verifiedAs (svc : AccountService) (params : ServiceParamList) (errs : StringList) :
    (svc.verifiedAs params errs).link = svc.link := link_applyVerification _ _

theorem link_of_customWrite {vResult : VerifyResult} {aResult : AuthResult}
    {svc svc' : AccountService} {w w' : World Text}
    (hr : (svc.customWrite env vResult aResult).run w = .ok svc' w') : svc'.link = svc.link := by
  obtain ⟨plugin, -, -, ⟨pluginId, -, rfl⟩ | ⟨-, rfl⟩⟩ := customWrite_ok hr <;> rfl

/-- The two states are related by every frame that lets secrets be set. -/
def BeforeWrite (env : Env Text) (w w₁ : World Text) : Prop :=
  ∀ F, Quiet F → (∀ item : SecretItem, Within F (env.callSetSecret item.toRpc)) → F.rel w w₁

/-- The spec of `verify`: a refused service keeps its link; an accepted one has the parameters of an
answer of its plugin, and ended in a custom write. -/
theorem verify_ok {owner : Owner} {svc svc' : AccountService} {b : Bool} {w w' : World Text}
    (hr : (svc.verify env owner).run w = .ok (b, svc') w') :
    (b = false ∧ svc'.link = svc.link ∧ BeforeWrite env w w') ∨
      ∃ plugin vResult params aResult errs w₁, b = true ∧
        Accepted svc w w₁ plugin vResult params ∧ BeforeWrite env w w₁ ∧
        ((svc.verifiedAs params errs).customWrite env { vResult with params } aResult).run w₁ =
          .ok svc' w' := by
  simp only [verify] at hr
  obtain ⟨⟨r, svc₁⟩, s₁, hverify, hr⟩ := run_bind_ok.1 hr
  have hw₁ : ∀ F, Quiet F → F.rel w s₁ := fun F hF => (within_verifyParams hF _ _).rel_of_ok hverify
  rcases verifyParams_ok hverify with ⟨rfl, hlink⟩ | ⟨plugin, vResult, params, hacc, rfl, rfl⟩
  · simp only [run_bind_ok, run_pure_ok] at hr
    obtain ⟨_, s₂, hlog, he, rfl⟩ := hr
    cases he
    exact .inl ⟨rfl, hlink, fun F hF _ => F.trans (hw₁ F hF) ((within_glog hF _ _).rel_of_ok hlog)⟩
  obtain ⟨⟨r, svc₂⟩, s₂, hauth, hr⟩ := run_bind_ok.1 hr
  have hw₂ : ∀ F, Quiet F → F.rel w s₂ := fun F hF =>
    F.trans (hw₁ F hF) ((within_authenticate hF _ _).rel_of_ok hauth)
  obtain ⟨⟨errs₁, rfl⟩, -⟩ := authenticate_ok hauth
  cases r with
  | none =>
    rw [run_pure_ok] at hr
    obtain ⟨he, rfl⟩ := hr
    cases he
    exact .inl ⟨rfl, link_verifiedAs svc params errs₁, fun F hF _ => hw₂ F hF⟩
  | some aResult =>
    obtain ⟨⟨saved, svc₃⟩, s₃, hsave, hr⟩ := run_bind_ok.1 hr
    have hw₃ : BeforeWrite env w s₃ := fun F hF hset => F.trans (hw₂ F hF) <|
      (within_saveProtectedParams (K := ∅) hF (by simp) fun item _ => hset item).rel_of_ok hsave
    obtain ⟨errs₂, rfl⟩ := saveProtectedParams_ok hsave
    rw [addErrorList_addErrorList] at hr
    cases saved with
    | false =>
      rw [run_pure_ok] at hr
      obtain ⟨he, rfl⟩ := hr
      cases he
      exact .inl ⟨rfl, link_verifiedAs svc params _, hw₃⟩
    | true =>
      simp only [run_bind_ok, run_pure_ok] at hr
      obtain ⟨svc₄, s₄, hwrite, he, rfl⟩ := hr
      cases he
      refine .inr ⟨plugin, vResult, params, aResult, errs₁ ++ errs₂, s₃, rfl, ?_, hw₃, hwrite⟩
      refine { hacc with called := World.newCalls_mono_right ?_ hacc.called }
      exact (((within_authenticate quiet_callsFrame.asking _ _).rel_of_ok hauth).trans
        ((within_saveProtectedParams (K := ∅) quiet_callsFrame.asking.searching (by simp)
          fun item _ s => List.prefix_append _ _).rel_of_ok hsave))

/-! ## The frame of the whole verification -/

variable {F : Frame (World Text)} {K : Set String}

theorem within_customWrite (hF : Searching F)
    (hwrite : ∀ plugin vResult aResult, Within F (env.callWrite plugin vResult aResult))
    (vResult : VerifyResult) (aResult : AuthResult) (svc : AccountService) :
    Within F (svc.customWrite env vResult aResult) := by
  refine (within_derefPlugin svc).bind fun plugin =>
    ((hwrite _ _ _).bind fun _ => within_pure _).bind fun result => ?_
  cases result with
  | ok pluginId => exact (within_glog hF _ _).bind fun _ => within_pure _
  | error errMsg =>
    exact within_ite (fun _ => (within_glog hF _ _).bind fun _ => within_pure _)
      fun _ => within_pure _

theorem within_verify (hF : Asking F) (hlack : TokensLack env K)
    (hwrite : ∀ plugin vResult aResult, Within F (env.callWrite plugin vResult aResult))
    {owner : Owner} {svc : AccountService} (hset : AllowsLinked env F K owner.id svc.name) :
    Within F (svc.verify env owner) := by
  refine Within.bind_ok (within_verifyParams hF _ _) ?_
  rintro ⟨r, svc₁⟩ s s' hverify
  rcases verifyParams_ok hverify with ⟨rfl, -⟩ | ⟨plugin, vResult, params, -, rfl, rfl⟩
  · exact (within_glog hF _ _).bind fun _ => within_pure _
  refine Within.bind_ok (within_authenticate hF _ _) ?_
  rintro ⟨r, svc₂⟩ s s' hauth
  obtain ⟨⟨errs, rfl⟩, htokens⟩ := authenticate_ok hauth
  cases r with
  | none => exact within_pure _
  | some aResult =>
    obtain ⟨n, plugin, -, hans⟩ := htokens aResult rfl
    have hname : (svc.verifiedAs params errs).name = svc.name :=
      congrArg Prod.fst (link_verifiedAs svc params errs)
    refine Within.bind (within_saveProtectedParams hF (hlack _ _ _ _ hans) ?_) ?_
    · exact (congrArg (AllowsLinked env F K owner.id) hname).mpr hset
    · rintro ⟨saved, svc₃⟩
      cases saved with
      | false => exact within_pure _
      | true => exact (within_customWrite hF hwrite _ _ _).bind fun _ => within_pure _

theorem calls_verify (owner : Owner) (svc : AccountService) :
    Within callsFrame (svc.verify env owner) :=
  within_verify (K := ∅) quiet_callsFrame.asking (fun _ _ _ _ _ _ _ _ h => absurd h (by simp))
    (fun _ _ _ _ => List.prefix_append _ _) fun _ _ _ => List.prefix_append _ _

end AccountService

end PxAccounts
