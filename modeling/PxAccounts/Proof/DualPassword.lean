import PxAccounts.Proof.Messages
import PxAccounts.Proof.SecretStore

/-!
# Dual passwords

The tokens of the schema `dual_password` are saved as one item, whose attributes say under which
parameter each of the two passwords is asked for.  The item that comes back is looked at under a
misspelt attribute.
-/

namespace PxAccounts

open Effect
open RPCHandler (NulFreeMap received received_toList nulFreeMap_received nulFreeMap_empty)

variable {Text : Type} {env : Env Text}

/-! ## The items of the tokens -/

/-- The last entry that the tokens bring. -/
def lastOf {α : Type} (f : SecretToken → Option α) (tokens : List SecretToken) : Option α :=
  (tokens.filterMap f).getLast?

theorem lastOf_append_singleton {α : Type} (f : SecretToken → Option α) (tokens : List SecretToken)
    (token : SecretToken) : lastOf f (tokens ++ [token]) = (f token).or (lastOf f tokens) := by
  rw [lastOf, List.filterMap_append]
  cases h : f token <;> simp [h, lastOf]

/-- The key under which the secret of a token is collected, unless it has no schema. -/
def SecretToken.itemKey (token : SecretToken) : Option String :=
  token.attributes["schema"]?.map fun schema => (AccountService.tokenKeys schema token.label).1

/-- The name that the secret of a token gets in its item. -/
def SecretToken.secretKey (token : SecretToken) : String :=
  (AccountService.tokenKeys (token.attributes.getD "schema" "") token.label).2

/-- The tokens that are collected in one item. -/
def itemTokens (key : String) (tokens : List SecretToken) : List SecretToken :=
  tokens.filter fun token => token.itemKey == some key

/-- What the first loop of `_saveProtectedParams` makes of one token. -/
def collectOne (env : Env Text) (owner : Owner) (svcName : String)
    (secretDict : StrMap SecretItem) (token : SecretToken) : StrMap SecretItem :=
  match token.attributes["schema"]? with
  | some schema => AccountService.collectToken env owner svcName schema secretDict token
  | none => secretDict

/-- The items collected from the tokens. -/
def collected (env : Env Text) (owner : Owner) (svcName : String) (tokens : List SecretToken) :
    StrMap SecretItem :=
  tokens.foldl (collectOne env owner svcName) ∅

theorem collected_append_singleton (owner : Owner) (svcName : String) (tokens : List SecretToken)
    (token : SecretToken) : collected env owner svcName (tokens ++ [token]) =
      collectOne env owner svcName (collected env owner svcName tokens) token := by
  rw [collected, List.foldl_append]
  rfl

theorem updateAttributes_attributes (item : SecretItem) (accountId svcName : String)
    (others : StrStrMap) {key : String} (hservice : key ≠ "service") (haccount : key ≠ "account_id")
    (hschema : key ≠ "schema") : (item.updateAttributes accountId svcName others).attributes[key]? =
      others[key]?.or item.attributes[key]? := by
  rw [SecretItem.updateAttributes]
  refine (TreeMap.insertAll_toList_getElem? _ others key).trans ?_
  rw [TreeMap.getElem?_insert_of_ne hschema.symm, TreeMap.getElem?_insert_of_ne haccount.symm,
    TreeMap.getElem?_insert_of_ne hservice.symm]

/-- What an item holds after the tokens. -/
structure CollectedFrom (tokens : List SecretToken) (item : SecretItem) : Prop where
  attributes : ∀ key, key ≠ "service" → key ≠ "account_id" → key ≠ "schema" →
    item.attributes[key]? = lastOf (fun token => token.attributes[key]?) tokens
  schema : item.attributes["schema"]? = lastOf (fun token => token.attributes["schema"]?) tokens
  secrets : ∀ key, item.secrets[key]? =
    lastOf (fun token => if token.secretKey = key then some token.secret else none) tokens

theorem CollectedFrom.add {tokens : List SecretToken} {item : SecretItem} {token : SecretToken}
    (h : CollectedFrom tokens item) {schema : String}
    (hschema : token.attributes["schema"]? = some schema) (label accountId svcName : String) :
    CollectedFrom (tokens ++ [token])
      (({ item with
        label := label
        secrets := item.secrets.insert (AccountService.tokenKeys schema token.label).2 token.secret }
        : SecretItem).updateAttributes accountId svcName token.attributes) where
  attributes key hservice haccount hkey := by
    rw [lastOf_append_singleton, updateAttributes_attributes _ _ _ _ hservice haccount hkey,
      h.attributes key hservice haccount hkey]
  schema := by
    rw [lastOf_append_singleton, hschema, Option.some_or]
    refine (TreeMap.insertAll_toList_getElem? _ token.attributes "schema").trans ?_
    rw [hschema, Option.some_or]
  secrets key := by
    have hkey : token.secretKey = (AccountService.tokenKeys schema token.label).2 := by
      rw [SecretToken.secretKey, Std.ExtTreeMap.getD_eq_getD_getElem?, hschema, Option.getD_some]
    rw [lastOf_append_singleton, hkey, ← h.secrets key]
    show (item.secrets.insert _ token.secret)[key]? = _
    by_cases he : (AccountService.tokenKeys schema token.label).2 = key
    · rw [if_pos he, he, Std.ExtTreeMap.getElem?_insert_self, Option.some_or]
    · rw [if_neg he, TreeMap.getElem?_insert_of_ne he, Option.none_or]

/-- Every item is collected from its tokens. -/
theorem collectedFrom (owner : Owner) (svcName key : String) (tokens : List SecretToken) :
    CollectedFrom (itemTokens key tokens) ((collected env owner svcName tokens).getD key {}) := by
  induction tokens using List.reverseRecOn with
  | nil => exact ⟨fun _ _ _ _ => by simp [collected, itemTokens, lastOf], by
      simp [collected, itemTokens, lastOf], fun _ => by simp [collected, itemTokens, lastOf]⟩
  | append_singleton tokens token ih =>
    rw [collected_append_singleton, collectOne, itemTokens, List.filter_append, ← itemTokens]
    cases hschema : token.attributes["schema"]? with
    | none =>
      have hkey : token.itemKey = none := by rw [SecretToken.itemKey, hschema]; rfl
      simpa [hkey] using ih
    | some schema =>
      have hkey : token.itemKey = some (AccountService.tokenKeys schema token.label).1 := by
        rw [SecretToken.itemKey, hschema]
        rfl
      dsimp only
      rw [AccountService.collectToken]
      by_cases he : (AccountService.tokenKeys schema token.label).1 = key
      · subst he
        simp only [hkey, List.filter_cons, BEq.rfl, if_true, List.filter_nil,
          Std.ExtTreeMap.getD_insert_self]
        exact ih.add hschema _ _ _
      · have hne : ¬(some (AccountService.tokenKeys schema token.label).1 == some key) = true := by
          simpa using he
        simp only [hkey, List.filter_cons, hne, List.filter_nil]
        rw [Std.ExtTreeMap.getD_eq_getD_getElem?, TreeMap.getElem?_insert_of_ne he,
          ← Std.ExtTreeMap.getD_eq_getD_getElem?]
        simpa using ih

/-! ## The items saved -/

theorem collectStep_ok {owner : Owner} {state state' : StrMap SecretItem × AccountService}
    {token : SecretToken} {w w' : World Text}
    (hr : (AccountService.collectStep env owner state token).run w = .ok state' w') :
    state'.1 = collectOne env owner state.2.name state.1 token ∧ state'.2.name = state.2.name := by
  obtain ⟨secretDict, svc⟩ := state
  rw [AccountService.collectStep] at hr
  rw [collectOne]
  cases hschema : token.attributes["schema"]? with
  | none =>
    simp only [hschema] at hr
    obtain ⟨_, w₁, -, hr⟩ := run_bind_ok.1 hr
    obtain ⟨rfl, -⟩ := run_pure_ok.1 hr
    exact ⟨rfl, rfl⟩
  | some schema =>
    simp only [hschema] at hr
    obtain ⟨_, w₁, -, hr⟩ := run_bind_ok.1 hr
    obtain ⟨account, w₂, hderef, hr⟩ := run_bind_ok.1 hr
    obtain ⟨-, rfl, -⟩ := AccountService.derefAccount_ok hderef
    obtain ⟨rfl, -⟩ := run_pure_ok.1 hr
    exact ⟨rfl, rfl⟩

theorem foldlM_collectStep_dict {owner : Owner} {svcName : String} {tokens : List SecretToken}
    {state state' : StrMap SecretItem × AccountService} {w w' : World Text}
    (hname : state.2.name = svcName)
    (hr : (tokens.foldlM (AccountService.collectStep env owner) state).run w = .ok state' w') :
    state'.1 = tokens.foldl (collectOne env owner svcName) state.1 := by
  have hend := foldlM_ok_induction
    (fun rest st _ => st.2.name = svcName ∧ rest.foldl (collectOne env owner svcName) st.1 =
      tokens.foldl (collectOne env owner svcName) state.1) ?_ tokens ⟨hname, rfl⟩ hr
  · exact hend.2
  · rintro token rest st s st' s' ⟨hst, hfold⟩ hturn
    obtain ⟨hdict, hname'⟩ := collectStep_ok hturn
    refine ⟨hname'.trans hst, ?_⟩
    rw [hdict, hst]
    exact hfold

/-- The item was sent to the secret service, which accepted it. -/
def Accepts (w w' : World Text) (item : RPCSecretItem) : Prop :=
  ∃ reply, (SecretManager.succeeded reply).1 = true ∧ .setSecret item reply ∈ w.newCalls w'

theorem setSecret_accepts {item : SecretItem} {w w' : World Text}
    (hr : (SecretManager.setSecret env item).run w = .ok true w') : Accepts w w' item.toRpc := by
  have hq : Searching (callsFrame : Frame (World Text)) := quiet_callsFrame.asking.searching
  obtain ⟨_, w₁, hlog, hr⟩ := run_bind_ok.1 hr
  cases hlog
  obtain ⟨reply, w₂, hcall, hr⟩ := run_bind_ok.1 hr
  obtain ⟨_, w₃, hunreachable, hr⟩ := run_bind_ok.1 hr
  have hcalls : w₂.calls = (w.record (.setSecret item.toRpc reply)).calls := by
    cases hcall
    rfl
  have hgrow : w₂.calls <+: w'.calls :=
    ((within_logUnreachable hq reply).rel_of_ok hunreachable).trans <|
      (within_ite (fun _ => (within_glog hq _ _).bind fun _ => within_pure _)
        fun _ => within_pure _).rel_of_ok hr
  refine ⟨reply, ?_, World.mem_newCalls_of_prefix (hcalls ▸ hgrow)⟩
  dsimp only at hr
  split at hr
  · obtain ⟨_, _, _, hr⟩ := run_bind_ok.1 hr
    exact (run_pure_ok.1 hr).1
  · exact (run_pure_ok.1 hr).1

theorem Accepts.mono {w₀ w w' w₁ : World Text} {item : RPCSecretItem} (h : Accepts w w' item)
    (hbefore : w₀.calls <+: w.calls) (hafter : w'.calls <+: w₁.calls) : Accepts w₀ w₁ item := by
  obtain ⟨reply, hsucc, hcall⟩ := h
  exact ⟨reply, hsucc, World.newCalls_mono_left hbefore (World.newCalls_mono_right hafter hcall)⟩

theorem saveItems_accepts {items : List SecretItem} {w w' : World Text}
    (hr : (AccountService.saveItems env items).run w = .ok true w') :
    ∀ item ∈ items, Accepts w w' item.toRpc := by
  have hq : Searching (callsFrame : Frame (World Text)) := quiet_callsFrame.asking.searching
  have hset : ∀ item : SecretItem, Within callsFrame (env.callSetSecret item.toRpc) :=
    fun _ w => List.prefix_append _ _
  induction items generalizing w with
  | nil => simp
  | cons item items ih =>
    obtain ⟨_, w₁, hlog, hr⟩ := run_bind_ok.1 hr
    obtain ⟨saved, w₂, hsave, hr⟩ := run_bind_ok.1 hr
    have hbefore : w.calls <+: w₁.calls := (within_glog hq _ _).rel_of_ok hlog
    split at hr
    · next hsaved =>
      obtain rfl : saved = true := hsaved
      have hafter : w₂.calls <+: w'.calls :=
        (within_saveItems hq fun item _ => hset item).rel_of_ok hr
      intro item' hitem'
      rcases List.mem_cons.1 hitem' with rfl | hitem'
      · exact (setSecret_accepts hsave).mono hbefore hafter
      · refine (ih hr item' hitem').mono (hbefore.trans ?_) (List.prefix_refl _)
        exact (within_setSecret hq (hset item)).rel_of_ok hsave
    · obtain ⟨_, _, _, hr⟩ := run_bind_ok.1 hr
      obtain ⟨hb, -⟩ := run_pure_ok.1 hr
      cases hb

/-- Every item collected from the tokens is accepted by the secret service. -/
theorem saveProtectedParams_accepts {owner : Owner} {aResult : AuthResult}
    {svc svc' : AccountService} {w w' : World Text}
    (hr : (svc.saveProtectedParams env owner aResult).run w = .ok (true, svc') w') {key : String}
    {item : SecretItem}
    (hitem : (collected env owner svc.name aResult.tokens)[key]? = some item) :
    Accepts w w' item.toRpc := by
  have hq : Searching (callsFrame : Frame (World Text)) := quiet_callsFrame.asking.searching
  obtain ⟨_, w₁, hlog, hr⟩ := run_bind_ok.1 hr
  obtain ⟨⟨secretDict, svc₁⟩, w₂, hfold, hr⟩ := run_bind_ok.1 hr
  obtain ⟨saved, w₃, hsave, hr⟩ := run_bind_ok.1 hr
  have hdict : secretDict = collected env owner svc.name aResult.tokens :=
    foldlM_collectStep_dict rfl hfold
  split at hr
  · next hsaved =>
    obtain rfl : saved = true := hsaved
    obtain ⟨-, rfl⟩ := run_pure_ok.1 hr
    have hmem : item ∈ secretDict.toList.map Prod.snd := by
      rw [hdict]
      exact List.mem_map.2 ⟨(key, item), Std.ExtTreeMap.mem_toList_iff_getElem?_eq_some.2 hitem, rfl⟩
    refine (saveItems_accepts hsave item hmem).mono ?_ (List.prefix_refl _)
    exact ((within_glog hq _ _).rel_of_ok hlog).trans <|
      (within_foldlM (fun state token _ => within_collectStep hq owner state token) _).rel_of_ok hfold
  · obtain ⟨hb, -⟩ := run_pure_ok.1 hr
    cases hb

/-! ## The item that comes back -/

/-- The texts of the item have no NUL, so that the item that comes back is the one that was saved.
-/
def ReturnedAsSaved (item : SecretItem) : Prop :=
  NulFreeMap item.attributes ∧ NulFreeMap item.secrets

theorem receivedSchema_eq (attributes : List (String × String)) (m : StrStrMap) (schema : String)
    (hm : m.getD "schema" "" = schema) :
    attributes.foldl (fun schema a => if cStr a.1 == "schema" then cStr a.2 else schema) schema =
      (received m attributes).getD "schema" "" := by
  induction attributes generalizing m schema with
  | nil => exact hm.symm
  | cons a attributes ih =>
    refine ih (m.insert (cStr a.1) (cStr a.2)) _ ?_
    show _ = if (cStr a.1 == "schema") = true then cStr a.2 else schema
    by_cases ha : cStr a.1 = "schema"
    · rw [if_pos (by simpa using ha), ha, Std.ExtTreeMap.getD_insert_self]
    · rw [if_neg (by simpa using ha), Std.ExtTreeMap.getD_eq_getD_getElem?,
        TreeMap.getElem?_insert_of_ne ha, ← Std.ExtTreeMap.getD_eq_getD_getElem?, hm]

/-- An item that comes back as it was saved is decoded by its schema. -/
theorem decodeItem_toRpc {item : SecretItem} (h : ReturnedAsSaved item) :
    SecretManager.decodeItem item.toRpc = (SecretManager.classOfSchema item.schema).map fun type =>
      { type
        item := { label := cStr item.label, secrets := item.secrets
                  attributes := item.attributes } } := by
  have hschema : SecretManager.receivedSchema item.attributes.toList = item.schema := by
    rw [SecretManager.receivedSchema, receivedSchema_eq _ ∅ "" rfl, received_toList h.1]
    rfl
  have hattributes : SecretManager.receivedMap item.attributes.toList = item.attributes :=
    received_toList h.1
  have hsecrets : SecretManager.receivedMap item.secrets.toList = item.secrets :=
    received_toList h.2
  simp only [SecretManager.decodeItem, SecretItem.toRpc, hschema, hattributes, hsecrets]

/-- The received item is of the class for two passwords, and each of them is found under its
parameter and nothing under any other. -/
def FindsPasswords (reply : RPCSecretItem) (userPassword servicePassword userKey serviceKey : String) :
    Prop :=
  ∃ secret dual, SecretManager.decodeItem reply = some secret ∧
    secret.as .dualPassword = .ok dual ∧
    dual.getMatchingPassword userKey = .ok userPassword ∧
    dual.getMatchingPassword serviceKey = .ok servicePassword ∧
    ∀ key, key ≠ userKey → key ≠ serviceKey → dual.getMatchingPassword key = .ok ""

/-- The last tokens of the schema `dual_password` carry these secrets under their labels and these
parameter keys. -/
structure DualTokens (tokens : List SecretToken)
    (userPassword servicePassword userKey serviceKey : String) : Prop where
  user : lastOf (fun token => if token.secretKey = "user_password" then some token.secret else none)
    (itemTokens "dual_password" tokens) = some userPassword
  service : lastOf (fun token => if token.secretKey = "service_password" then some token.secret
    else none) (itemTokens "dual_password" tokens) = some servicePassword
  userKey : lastOf (fun token => token.attributes["user_password_key"]?)
    (itemTokens "dual_password" tokens) = some userKey
  serviceKey : lastOf (fun token => token.attributes["service_password_key"]?)
    (itemTokens "dual_password" tokens) = some serviceKey

/-- The item of the tokens is of the schema, and the misspelt attribute says the right parameter, or
does no harm because the password is empty. -/
def MisspeltToo (tokens : List SecretToken) (userPassword servicePassword userKey serviceKey : String) :
    Prop :=
  lastOf (fun token => token.attributes["schema"]?) (itemTokens "dual_password" tokens) =
    some "dual_password" ∧
  ∃ key, lastOf (fun token => token.attributes["user_pasword_key"]?)
      (itemTokens "dual_password" tokens) = some key ∧
    (key = userKey ∨ userPassword = "" ∧ (key ≠ serviceKey ∨ servicePassword = ""))

theorem classOfSchema_eq_dual {schema : String} :
    SecretManager.classOfSchema schema = some .dualPassword ↔ schema = "dual_password" := by
  rw [SecretManager.classOfSchema]
  split
  · next h =>
    rw [beq_iff_eq] at h
    subst h
    decide
  · split
    · next h => simpa using h
    · next h =>
      rw [beq_iff_eq] at h
      split <;> simp [h]

/-- What the item answers for a key. -/
theorem getMatchingPassword_eq {item : SecretItem} {userKey serviceKey misspelt : String}
    (huser : item.attributes["user_password_key"]? = some userKey)
    (hservice : item.attributes["service_password_key"]? = some serviceKey)
    (hmisspelt : item.attributes["user_pasword_key"]? = some misspelt) (key : String) :
    item.getMatchingPassword key = .ok (if misspelt = key then item.getSecret "user_password"
      else if serviceKey = key then item.getSecret "service_password" else "") := by
  have hmem : "user_password_key" ∈ item.attributes :=
    Std.ExtTreeMap.mem_iff_isSome_getElem?.2 (by rw [huser]; rfl)
  rw [SecretItem.getMatchingPassword, SecretItem.isUserPassword, if_pos hmem, hmisspelt]
  by_cases hkey : misspelt = key
  · rw [if_pos hkey, hkey]
    simp only [BEq.rfl]
    rfl
  · have hbeq : (misspelt == key) = false := beq_eq_false_iff_ne.2 hkey
    simp only [hbeq, SecretItem.isServicePassword, hservice]
    by_cases hkey' : serviceKey = key
    · rw [if_neg hkey, if_pos hkey', hkey']
      simp only [BEq.rfl]
      rfl
    · have hbeq' : (some serviceKey == some key) = false := by simpa using hkey'
      rw [if_neg hkey, if_neg hkey']
      simp only [hbeq']
      rfl

/-- An attribute that is not in the map is dereferenced exactly when the attribute for the user
password is there and the misspelt one is not. -/
theorem getMatchingPassword_ok_iff (item : SecretItem) (key : String) :
    (∃ val, item.getMatchingPassword key = .ok val) ↔
      ("user_password_key" ∈ item.attributes → "user_pasword_key" ∈ item.attributes) := by
  rw [SecretItem.getMatchingPassword, SecretItem.isUserPassword]
  by_cases hmem : "user_password_key" ∈ item.attributes
  · have hmisspelt : "user_pasword_key" ∈ item.attributes ↔
        item.attributes["user_pasword_key"]?.isSome := Std.ExtTreeMap.mem_iff_isSome_getElem?
    rw [if_pos hmem, hmisspelt]
    cases item.attributes["user_pasword_key"]? with
    | none =>
      refine iff_of_false ?_ fun h => absurd (h hmem) (by simp)
      rintro ⟨val, h⟩
      cases h
    | some misspelt =>
      refine iff_of_true ?_ fun _ => rfl
      show ∃ val, (if (misspelt == key) = true then Except.ok _ else
        if item.isServicePassword key = true then Except.ok _ else Except.ok "") = Except.ok val
      split
      · exact ⟨_, rfl⟩
      · split <;> exact ⟨_, rfl⟩
  · rw [if_neg hmem]
    refine iff_of_true ?_ fun h => absurd h hmem
    show ∃ val, (if item.isServicePassword key = true then Except.ok _ else Except.ok "") =
      Except.ok val
    split <;> exact ⟨_, rfl⟩

theorem findsPasswords_iff {item : SecretItem}
    {userPassword servicePassword userKey serviceKey : String} (hne : userKey ≠ serviceKey)
    (hreturned : ReturnedAsSaved item)
    (huser : item.attributes["user_password_key"]? = some userKey)
    (hservice : item.attributes["service_password_key"]? = some serviceKey)
    (huserPassword : item.getSecret "user_password" = userPassword)
    (hservicePassword : item.getSecret "service_password" = servicePassword) :
    FindsPasswords item.toRpc userPassword servicePassword userKey serviceKey ↔
      item.schema = "dual_password" ∧ ∃ key, item.attributes["user_pasword_key"]? = some key ∧
        (key = userKey ∨ userPassword = "" ∧ (key ≠ serviceKey ∨ servicePassword = "")) := by
  let dual : SecretItem :=
    { label := cStr item.label, secrets := item.secrets, attributes := item.attributes }
  have hanswers : ∀ key, item.attributes["user_pasword_key"]? = some key → ∀ k,
      dual.getMatchingPassword k = .ok (if key = k then userPassword
        else if serviceKey = k then servicePassword else "") := by
    intro key hkey k
    rw [← huserPassword, ← hservicePassword]
    exact getMatchingPassword_eq (show dual.attributes["user_password_key"]? = _ from huser)
      hservice hkey k
  constructor
  · rintro ⟨secret, dual', hdecode, has, huserFound, hserviceFound, hother⟩
    rw [decodeItem_toRpc hreturned] at hdecode
    obtain ⟨type, hclass, rfl⟩ := Option.map_eq_some_iff.1 hdecode
    rw [SecretItemPtr.as] at has
    split at has
    · next htype =>
      cases has
      refine ⟨classOfSchema_eq_dual.1 (htype ▸ hclass), ?_⟩
      have hmem := (getMatchingPassword_ok_iff dual userKey).1 ⟨_, huserFound⟩
        (Std.ExtTreeMap.mem_iff_isSome_getElem?.2 (by rw [show dual.attributes[_]? = _ from huser]; rfl))
      obtain ⟨key, hkey⟩ := Option.isSome_iff_exists.1 (Std.ExtTreeMap.mem_iff_isSome_getElem?.1 hmem)
      have hanswer := hanswers key hkey
      refine ⟨key, hkey, ?_⟩
      rw [hanswer, Except.ok.injEq, if_neg hne.symm] at huserFound
      rw [hanswer, Except.ok.injEq, if_pos rfl] at hserviceFound
      by_cases hright : key = userKey
      · exact .inl hright
      · rw [if_neg hright] at huserFound
        refine .inr ⟨huserFound.symm, ?_⟩
        by_cases htaken : key = serviceKey
        · rw [if_pos htaken] at hserviceFound
          exact .inr (hserviceFound.symm.trans huserFound.symm)
        · exact .inl htaken
    · cases has
  · rintro ⟨hschema, key, hkey, hwhen⟩
    have hanswer := hanswers key hkey
    refine ⟨{ type := .dualPassword, item := dual }, dual, ?_, rfl, ?_, ?_, fun k hk hk' => ?_⟩
    · rw [decodeItem_toRpc hreturned, classOfSchema_eq_dual.2 hschema]
      rfl
    · rw [hanswer, if_neg hne.symm]
      rcases hwhen with hright | ⟨hempty, -⟩
      · rw [if_pos hright]
      · rw [hempty, ite_self]
    · rw [hanswer, if_pos rfl]
      rcases hwhen with hright | ⟨hempty, hfree | hblank⟩
      · rw [if_neg (hright ▸ hne)]
      · rw [if_neg hfree]
      · rw [hempty, hblank, ite_self]
    · rw [hanswer, if_neg (Ne.symm hk')]
      rcases hwhen with hright | ⟨hempty, -⟩
      · rw [if_neg (hright ▸ Ne.symm hk)]
      · rw [hempty, ite_self]

theorem schema_eq_iff {item : SecretItem} :
    item.schema = "dual_password" ↔ item.attributes["schema"]? = some "dual_password" := by
  rw [SecretItem.schema, Std.ExtTreeMap.getD_eq_getD_getElem?]
  cases item.attributes["schema"]? with
  | none => simp
  | some schema => simp

/-- An item is there as soon as a token is collected in it. -/
theorem mem_collected (owner : Owner) (svcName key : String) (tokens : List SecretToken)
    (h : itemTokens key tokens ≠ []) : key ∈ collected env owner svcName tokens := by
  induction tokens using List.reverseRecOn with
  | nil => exact absurd rfl h
  | append_singleton tokens token ih =>
    rw [itemTokens, List.filter_append, ← itemTokens] at h
    rw [collected_append_singleton, collectOne]
    cases hschema : token.attributes["schema"]? with
    | none =>
      have hkey : token.itemKey = none := by rw [SecretToken.itemKey, hschema]; rfl
      exact ih (by simpa [hkey] using h)
    | some schema =>
      have hkey : token.itemKey = some (AccountService.tokenKeys schema token.label).1 := by
        rw [SecretToken.itemKey, hschema]
        rfl
      dsimp only
      rw [AccountService.collectToken, Std.ExtTreeMap.mem_insert]
      by_cases he : (AccountService.tokenKeys schema token.label).1 = key
      · exact .inl (Std.compare_eq_iff_eq.2 he)
      · have hne : ¬(some (AccountService.tokenKeys schema token.label).1 == some key) = true := by
          simpa using he
        simp only [hkey, List.filter_cons, hne] at h
        exact .inr (ih (by simpa using h))

/-- What the item collected from the tokens answers when it comes back. -/
theorem findsPasswords_collected_iff {owner : Owner} {svcName : String} {tokens : List SecretToken}
    {userPassword servicePassword userKey serviceKey : String} (hne : userKey ≠ serviceKey)
    (htokens : DualTokens tokens userPassword servicePassword userKey serviceKey)
    {item : SecretItem} (hitem : (collected env owner svcName tokens)["dual_password"]? = some item)
    (hreturned : ReturnedAsSaved item) :
    FindsPasswords item.toRpc userPassword servicePassword userKey serviceKey ↔
      MisspeltToo tokens userPassword servicePassword userKey serviceKey := by
  have hfrom : CollectedFrom (itemTokens "dual_password" tokens)
      ((collected env owner svcName tokens).getD "dual_password" {}) :=
    collectedFrom owner svcName "dual_password" tokens
  rw [Std.ExtTreeMap.getD_eq_getD_getElem?, hitem, Option.getD_some] at hfrom
  have hattribute : ∀ {key val : String}, key ≠ "service" → key ≠ "account_id" → key ≠ "schema" →
      lastOf (fun token => token.attributes[key]?) (itemTokens "dual_password" tokens) = some val →
      item.attributes[key]? = some val :=
    fun hservice haccount hschema hlast =>
      (hfrom.attributes _ hservice haccount hschema).trans hlast
  have hsecret : ∀ {key val : String}, lastOf (fun token => if token.secretKey = key
      then some token.secret else none) (itemTokens "dual_password" tokens) = some val →
      item.getSecret key = val := by
    intro key val hlast
    rw [SecretItem.getSecret, Std.ExtTreeMap.getD_eq_getD_getElem?, hfrom.secrets, hlast,
      Option.getD_some]
  rw [findsPasswords_iff hne hreturned
    (hattribute (by decide) (by decide) (by decide) htokens.userKey)
    (hattribute (by decide) (by decide) (by decide) htokens.serviceKey)
    (hsecret htokens.user) (hsecret htokens.service), schema_eq_iff, hfrom.schema,
    hfrom.attributes "user_pasword_key" (by decide) (by decide) (by decide)]
  rfl

/-- The saved item of two passwords answers for their parameters exactly when the misspelt attribute
says the parameter of the user password too, and an attribute that is not there is dereferenced
exactly when the item has the attribute for the user password and not the misspelt one. -/
theorem dual_passwords_iff (env : Env Text) (owner : Owner) (svc svc' : AccountService)
    (aResult : AuthResult) (w w' : World Text)
    (userPassword servicePassword userKey serviceKey : String) (hne : userKey ≠ serviceKey)
    (htokens : DualTokens aResult.tokens userPassword servicePassword userKey serviceKey)
    (hr : (svc.saveProtectedParams env owner aResult).run w = .ok (true, svc') w') :
    (∃ item, (collected env owner svc.name aResult.tokens)["dual_password"]? = some item ∧
      Accepts w w' item.toRpc ∧ (ReturnedAsSaved item →
        (FindsPasswords item.toRpc userPassword servicePassword userKey serviceKey ↔
          MisspeltToo aResult.tokens userPassword servicePassword userKey serviceKey))) ∧
    ∀ (item : SecretItem) (key : String), (∃ val, item.getMatchingPassword key = .ok val) ↔
      ("user_password_key" ∈ item.attributes → "user_pasword_key" ∈ item.attributes) := by
  refine ⟨?_, getMatchingPassword_ok_iff⟩
  have hnonempty : itemTokens "dual_password" aResult.tokens ≠ [] := by
    intro h
    have huser := htokens.user
    rw [h] at huser
    cases huser
  have hmem : "dual_password" ∈ collected env owner svc.name aResult.tokens :=
    mem_collected owner svc.name "dual_password" aResult.tokens hnonempty
  obtain ⟨item, hitem⟩ := Option.isSome_iff_exists.1 (Std.ExtTreeMap.mem_iff_isSome_getElem?.1 hmem)
  exact ⟨item, hitem, saveProtectedParams_accepts hr hitem,
    findsPasswords_collected_iff hne htokens hitem⟩

/-- The tokens of a user and a service password for the parameters `user` and `service`. -/
def dualTokens (attributes : List (String × String)) : List SecretToken :=
  let attributes := received ∅ ([("schema", "dual_password"), ("user_password_key", "user"),
    ("service_password_key", "service")] ++ attributes)
  [{ label := "user_password", secret := "ann", attributes },
    { label := "service_password", secret := "eve", attributes }]

/-- The service whose tokens are saved. -/
def mailService : AccountService := { name := "mail", accountSet := true }

/-- The text of an item is checked by receiving it. -/
theorem returnedAsSaved_of_received {saved : Option SecretItem} {item : SecretItem}
    (hitem : saved = some item) (h : saved.all fun item =>
      received ∅ item.attributes.toList == item.attributes &&
        received ∅ item.secrets.toList == item.secrets) : ReturnedAsSaved item := by
  subst hitem
  simp only [Option.all_some, Bool.and_eq_true, beq_iff_eq] at h
  exact ⟨h.1 ▸ nulFreeMap_received nulFreeMap_empty _, h.2 ▸ nulFreeMap_received nulFreeMap_empty _⟩

/-- With the misspelt attribute the passwords are found. -/
theorem dual_passwords_misspelt : ∃ item, (collected referenceEnv { id := 7, title := "Mail" }
      "mail" (dualTokens [("user_pasword_key", "user")]))["dual_password"]? = some item ∧
    FindsPasswords item.toRpc "ann" "eve" "user" "service" := by
  obtain ⟨⟨item, hitem, -, hfinds⟩, -⟩ := dual_passwords_iff referenceEnv { id := 7, title := "Mail" }
    mailService mailService { tokens := dualTokens [("user_pasword_key", "user")] }
    { files := fun _ => ∅ } _ "ann" "eve" "user" "service" (by decide)
    ⟨by decide +kernel, by decide +kernel, by decide +kernel, by decide +kernel⟩
    (eq_ok_of_result? (by decide +kernel))
  refine ⟨item, hitem, (hfinds (returnedAsSaved_of_received hitem (by decide +kernel))).2 ?_⟩
  exact ⟨by decide +kernel, "user", by decide +kernel, .inl rfl⟩

/-- Tokens with the attributes that the item is meant to have are saved, and the password is then
looked for behind the end of the map. -/
theorem dual_passwords_not_found : ¬∀ (env : Env YamlText) (owner : Owner)
    (svc svc' : AccountService) (aResult : AuthResult) (w w' : World YamlText)
    (userPassword servicePassword userKey serviceKey : String), userKey ≠ serviceKey →
    DualTokens aResult.tokens userPassword servicePassword userKey serviceKey →
    (svc.saveProtectedParams env owner aResult).run w = .ok (true, svc') w' →
    ∀ item, (collected env owner svc.name aResult.tokens)["dual_password"]? = some item →
      ReturnedAsSaved item →
      FindsPasswords item.toRpc userPassword servicePassword userKey serviceKey := by
  intro h
  have htokens : DualTokens (dualTokens []) "ann" "eve" "user" "service" :=
    ⟨by decide +kernel, by decide +kernel, by decide +kernel, by decide +kernel⟩
  have hmem : "dual_password" ∈ collected referenceEnv { id := 7, title := "Mail" } "mail"
      (dualTokens []) := mem_collected _ _ _ _ (by decide +kernel)
  obtain ⟨item, hitem⟩ := Option.isSome_iff_exists.1 (Std.ExtTreeMap.mem_iff_isSome_getElem?.1 hmem)
  have hreturned := returnedAsSaved_of_received hitem (by decide +kernel)
  have hfinds := h referenceEnv { id := 7, title := "Mail" } mailService mailService
    { tokens := dualTokens [] } { files := fun _ => ∅ } _ "ann" "eve" "user" "service" (by decide)
    htokens (eq_ok_of_result? (by decide +kernel)) item hitem hreturned
  obtain ⟨-, key, hkey, -⟩ :=
    (findsPasswords_collected_iff (by decide) htokens hitem hreturned).1 hfinds
  have hnone : lastOf (fun token => token.attributes["user_pasword_key"]?)
      (itemTokens "dual_password" (dualTokens [])) = none := by decide +kernel
  rw [hnone] at hkey
  cases hkey

end PxAccounts
