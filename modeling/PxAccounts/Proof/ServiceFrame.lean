import PxAccounts.Lib.TreeMap
import PxAccounts.Model.AccountObject

/-!
# Frames of the verification

What the verification of services can change, for any frame: it makes calls that leave no trace but
in the record of calls, calls of `write` of a plugin, and requests to set secrets, all of which carry
the attributes of the account and of the service being verified.
-/

namespace PxAccounts

open Effect

variable {Text : Type} {env : Env Text} {F : Frame (World Text)}

/-- The calls that only ask. -/
def Call.IsQuery : Call Text → Prop
  | .uuidGenerate .. | .verify .. | .authenticate .. | .read .. | .search .. => True
  | _ => False

/-- The frame lets a question be recorded and a line be logged. -/
structure Quiet (F : Frame (World Text)) : Prop where
  record : ∀ w c, c.IsQuery → F.rel w (w.record c)
  log : ∀ (w : World Text) lines, F.rel w { w with log := lines }

/-- The calls that a verification asks with. -/
def Call.IsQuestion : Call Text → Prop
  | .verify .. | .authenticate .. | .search .. => True
  | _ => False

/-- The frame lets the questions of a verification be recorded and a line be logged. -/
structure Asking (F : Frame (World Text)) : Prop where
  record : ∀ w c, c.IsQuestion → F.rel w (w.record c)
  log : ∀ (w : World Text) lines, F.rel w { w with log := lines }

theorem Call.IsQuestion.isQuery {c : Call Text} (h : c.IsQuestion) : c.IsQuery := by
  cases c <;> first | exact trivial | cases h

theorem Quiet.asking (hF : Quiet F) : Asking F := ⟨fun w c hc => hF.record w c hc.isQuery, hF.log⟩

instance : Coe (Quiet F) (Asking F) := ⟨Quiet.asking⟩

/-- The frame lets a search be recorded and a line be logged. -/
structure Searching (F : Frame (World Text)) : Prop where
  record : ∀ w attributes reply, F.rel w (w.record (.search attributes reply))
  log : ∀ (w : World Text) lines, F.rel w { w with log := lines }

theorem Asking.searching (hF : Asking F) : Searching F :=
  ⟨fun w _ _ => hF.record w _ trivial, hF.log⟩

instance : Coe (Asking F) (Searching F) := ⟨Asking.searching⟩

/-- No token brings an attribute of its own under the keys `K`. -/
def TokensLack (env : Env Text) (K : Set String) : Prop :=
  ∀ n plugin params r, env.authenticate n plugin params = .returned r →
    ∀ t ∈ r.tokens, ∀ key ∈ K, key ∉ t.attributes

/-- The attributes that link an item to an account and a service. -/
def linkAttributes (env : Env Text) (id : Uuid) (svcName : String) : List (String × String) :=
  [("account_id", env.uuidAsString id), ("service", svcName)]

/-- The item carries the link to the account and the service, as far as the keys `K` go. -/
def SecretItem.Linked (env : Env Text) (K : Set String) (id : Uuid) (svcName : String)
    (item : SecretItem) : Prop :=
  ∀ a ∈ linkAttributes env id svcName, a.1 ∈ K → item.attributes[a.1]? = some a.2

/-- Every collected item carries the link. -/
def AllLinked (env : Env Text) (K : Set String) (id : Uuid) (svcName : String)
    (secretDict : StrMap SecretItem) : Prop :=
  ∀ (key : String) (item : SecretItem), secretDict[key]? = some item →
    item.Linked env K id svcName

/-! ## Calls that change nothing else -/

theorem within_callRead (hF : Quiet F) (plugin : PluginContainer) (id : String) :
    Within F (env.callRead plugin id) := fun w => hF.record w _ trivial

theorem within_callUuidGenerate (hF : Quiet F) : Within F env.callUuidGenerate :=
  fun w => hF.record w _ trivial

theorem within_derefAccount (svc : AccountService) (owner : Owner) :
    Within F (svc.derefAccount owner : M Text Owner) :=
  within_ite (fun _ => within_pure _) fun _ => within_throw _

theorem within_derefPlugin (svc : AccountService) :
    Within F (svc.derefPlugin : M Text PluginContainer) := by
  rw [AccountService.derefPlugin]
  cases svc.plugin with
  | some plugin => exact within_pure _
  | none => exact within_throw _

section

variable (hF : Searching F)
include hF

theorem within_glog (level : LogLevel) (parts : List String) :
    Within F (glog level parts : M Text Unit) := fun w => hF.log w _

theorem within_callSearch (attributes : List (String × String)) :
    Within F (env.callSearch attributes) := fun w => hF.record w _ _

theorem within_logUnreachable {α : Type} (reply : RpcReply α) :
    Within F (SecretManager.logUnreachable reply : M Text Unit) := by
  cases reply with
  | unreachable description => exact within_glog hF _ _
  | exception description => exact within_pure _
  | result a => exact within_pure _

theorem within_search (attributes : StrStrMap) : Within F (SecretManager.search env attributes) := by
  refine (within_glog hF _ _).bind fun _ => (within_callSearch hF _).bind fun reply =>
    (within_logUnreachable hF reply).bind fun _ => ?_
  cases reply with
  | unreachable description =>
    exact (within_glog hF _ _).bind fun _ => (within_glog hF _ _).bind fun _ => within_pure _
  | exception description => exact (within_glog hF _ _).bind fun _ => within_pure _
  | result items =>
    refine (within_forM fun item _ => ?_).bind fun _ => (within_glog hF _ _).bind fun _ =>
      (within_forM fun secret _ => within_glog hF _ _).bind fun _ => within_pure _
    exact within_ite (fun _ => within_glog hF _ _) fun _ => within_pure _

theorem within_loadSecret (svcName : String) (savedSecrets : List SecretItemPtr)
    (param : ServiceParam) :
    Within F (AccountService.loadSecret svcName savedSecrets param : M Text ServiceParam) := by
  refine within_ite (fun _ => ?_) fun _ => within_pure _
  cases savedSecrets.foldlM (AccountService.matchSecret svcName param.key) param.val with
  | error e => exact within_throw _
  | ok val =>
    exact within_ite (fun _ => (within_glog hF _ _).bind fun _ => within_pure _)
      fun _ => (within_glog hF _ _).bind fun _ => within_pure _

end

section

variable (hF : Asking F)
include hF

theorem within_callVerify (plugin : PluginContainer) (params : StrStrMap) :
    Within F (env.callVerify plugin params) := fun w => hF.record w _ trivial

theorem within_callAuthenticate (plugin : PluginContainer) (params : ServiceParamList) :
    Within F (env.callAuthenticate plugin params) := fun w => hF.record w _ trivial

theorem within_pluginVerify (plugin : PluginContainer) (params : StrStrMap) :
    Within F (plugin.verify env params) := by
  refine (within_callVerify hF _ _).bind fun answer => ?_
  cases answer with
  | returned result => exact within_pure _
  | raised what => exact within_throw _
  | errorAlreadySet what =>
    cases plugin.type with
    | pythonPlugin => exact within_pure _
    | cppPlugin => exact within_throw _

theorem within_pluginAuthenticate (plugin : PluginContainer) (params : ServiceParamList) :
    Within F (plugin.authenticate env params) := by
  refine (within_callAuthenticate hF _ _).bind fun answer => ?_
  cases answer with
  | returned result => exact within_pure _
  | raised what => exact within_throw _
  | errorAlreadySet what =>
    cases plugin.type with
    | pythonPlugin => exact within_pure _
    | cppPlugin => exact within_throw _

theorem within_verifyParams (owner : Owner) (svc : AccountService) :
    Within F (svc.verifyParams env owner) := by
  rw [AccountService.verifyParams]
  cases svc.plugin with
  | none => exact (within_glog hF _ _).bind fun _ => within_pure _
  | some plugin =>
    refine (within_pluginVerify hF _ _).bind fun verifyResult =>
      within_ite (fun _ => within_pure _) fun _ => ?_
    refine (within_derefAccount svc owner).bind fun account => (within_search hF _).bind fun _ =>
      (within_mapM fun param _ => within_loadSecret hF _ _ param).bind fun params => ?_
    exact (within_glog hF _ _).bind fun _ =>
      (within_forM fun param _ => within_glog hF _ _).bind fun _ => within_pure _

theorem within_authenticate (vResult : VerifyResult) (svc : AccountService) :
    Within F (svc.authenticate env vResult) := by
  refine (within_derefPlugin svc).bind fun plugin => (within_pluginAuthenticate hF _ _).bind
    fun authResult => within_ite (fun _ => within_pure _) fun _ => ?_
  refine (within_glog hF _ _).bind fun _ => (within_forM fun token _ => ?_).bind
    fun _ => within_pure _
  exact (within_glog hF _ _).bind fun _ => within_forM fun attrib _ => within_glog hF _ _

end

/-! ## The items saved -/

variable {K : Set String}

theorem linked_updateAttributes {item : SecretItem} {id : Uuid} {svcName : String}
    {others : StrStrMap} (h : ∀ key ∈ K, key ∉ others) :
    (item.updateAttributes (env.uuidAsString id) svcName others).Linked env K id svcName := by
  intro a ha hK
  have hnot : a.1 ∉ others.toList.map Prod.fst := by
    rw [Std.ExtTreeMap.map_fst_toList_eq_keys, Std.ExtTreeMap.mem_keys]
    exact h _ hK
  have hsplit := TreeMap.insertAll_getElem?_of_not_mem (m := ((item.attributes.insert "service"
    svcName).insert "account_id" (env.uuidAsString id)).insert "schema" item.schema) hnot
  refine hsplit.trans ?_
  simp only [linkAttributes, List.mem_cons, List.not_mem_nil, or_false] at ha
  rcases ha with rfl | rfl <;> dsimp only
  · rw [TreeMap.getElem?_insert_of_ne (by decide), Std.ExtTreeMap.getElem?_insert_self]
  · rw [TreeMap.getElem?_insert_of_ne (by decide), TreeMap.getElem?_insert_of_ne (by decide),
      Std.ExtTreeMap.getElem?_insert_self]

theorem linked_collectToken {account : Owner} {svcName schema : String}
    {secretDict : StrMap SecretItem} {token : SecretToken} (htok : ∀ key ∈ K, key ∉ token.attributes)
    (h : AllLinked env K account.id svcName secretDict) : AllLinked env K account.id svcName
      (AccountService.collectToken env account svcName schema secretDict token) := by
  intro key item hi
  rw [AccountService.collectToken] at hi
  by_cases hk : (AccountService.tokenKeys schema token.label).1 = key
  · subst hk
    rw [Std.ExtTreeMap.getElem?_insert_self] at hi
    cases hi
    exact linked_updateAttributes htok
  · rw [TreeMap.getElem?_insert_of_ne hk] at hi
    exact h key item hi

theorem linked_collectStep {owner : Owner} {svcName : String} {l : List SecretToken}
    {state state' : StrMap SecretItem × AccountService} {w w' : World Text}
    (htok : ∀ t ∈ l, ∀ key ∈ K, key ∉ t.attributes) (hname : state.2.name = svcName)
    (h : AllLinked env K owner.id svcName state.1)
    (hr : (l.foldlM (AccountService.collectStep env owner) state).run w = .ok state' w') :
    AllLinked env K owner.id svcName state'.1 := by
  refine (foldlM_ok_induction (fun l state _ =>
    (∀ t ∈ l, ∀ key ∈ K, key ∉ t.attributes) ∧ state.2.name = svcName ∧
      AllLinked env K owner.id svcName state.1)
    ?_ l ⟨htok, hname, h⟩ hr).2.2
  rintro t l ⟨secretDict, svc⟩ s ⟨secretDict', svc'⟩ s' ⟨ht, hn, hd⟩ hs
  refine ⟨fun t' h' => ht t' (by simp [h']), ?_⟩
  simp only [AccountService.collectStep] at hs
  cases hschema : t.attributes["schema"]? with
  | none =>
    simp only [hschema, run_bind_ok, run_pure_ok] at hs
    obtain ⟨-, -, -, he, -⟩ := hs
    cases he
    exact ⟨hn, hd⟩
  | some schema =>
    simp only [hschema, run_bind_ok, run_pure_ok, AccountService.derefAccount] at hs
    obtain ⟨_, _, -, account, s₂, ha, he, -⟩ := hs
    cases he
    split at ha
    · rw [run_pure_ok] at ha
      obtain ⟨rfl, -⟩ := ha
      dsimp only at hn
      subst hn
      exact ⟨rfl, linked_collectToken (ht t (by simp)) hd⟩
    · exact absurd ha run_throw_ne_ok

section

variable (hF : Searching F)
include hF

theorem within_collectStep (owner : Owner) (state : StrMap SecretItem × AccountService)
    (token : SecretToken) : Within F (AccountService.collectStep env owner state token) := by
  simp only [AccountService.collectStep]
  cases token.attributes["schema"]? with
  | some schema =>
    exact (within_glog hF _ _).bind fun _ => (within_derefAccount _ owner).bind
      fun _ => within_pure _
  | none => exact (within_glog hF _ _).bind fun _ => within_pure _

theorem within_setSecret {item : SecretItem} (h : Within F (env.callSetSecret item.toRpc)) :
    Within F (SecretManager.setSecret env item) := by
  refine (within_glog hF _ _).bind fun _ => h.bind fun reply =>
    (within_logUnreachable hF reply).bind fun _ => ?_
  exact within_ite (fun _ => (within_glog hF _ _).bind fun _ => within_pure _)
    fun _ => within_pure _

theorem within_saveItems {items : List SecretItem}
    (h : ∀ item ∈ items, Within F (env.callSetSecret item.toRpc)) :
    Within F (AccountService.saveItems env items) := by
  induction items with
  | nil => exact within_pure _
  | cons item items ih =>
    refine (within_glog hF _ _).bind fun _ =>
      (within_setSecret hF (h item (by simp))).bind fun saved => ?_
    exact within_ite (fun _ => ih fun item' h' => h item' (by simp [h']))
      fun _ => (within_glog hF _ _).bind fun _ => within_pure _

/-- The requests to set secrets that carry the link to the account and the service are allowed. -/
def AllowsLinked (env : Env Text) (F : Frame (World Text)) (K : Set String) (id : Uuid)
    (svcName : String) : Prop :=
  ∀ item : SecretItem, item.Linked env K id svcName → Within F (env.callSetSecret item.toRpc)

theorem within_saveProtectedParams {owner : Owner} {aResult : AuthResult} {svc : AccountService}
    (htok : ∀ t ∈ aResult.tokens, ∀ key ∈ K, key ∉ t.attributes)
    (hset : AllowsLinked env F K owner.id svc.name) :
    Within F (svc.saveProtectedParams env owner aResult) := by
  refine (within_glog hF _ _).bind fun _ => Within.bind_ok
    (within_foldlM (fun state token _ => within_collectStep hF owner state token) _) ?_
  rintro ⟨secretDict, svc'⟩ s s' hr
  have hlinked : AllLinked env K owner.id svc.name secretDict :=
    linked_collectStep htok rfl (fun key item h => by simp at h) hr
  refine Within.bind (within_saveItems hF fun item hi => hset item ?_) fun saved =>
    within_ite (fun _ => within_pure _) fun _ => within_pure _
  obtain ⟨⟨key, item⟩, he, rfl⟩ := List.mem_map.1 hi
  exact hlinked key item (Std.ExtTreeMap.mem_toList_iff_getElem?_eq_some.1 he)

end

end PxAccounts
