import PxAccounts.Proof.DualPassword
import PxAccounts.Proof.Modification

/-!
# Tokens and the secrets saved for them

A token is collected under its label or, for two of the schemas, under the schema.  So a label can
bring tokens of different schemas into one item, and the attributes of a token are put over those
that say whose secret it is.
-/

namespace PxAccounts

open Effect

variable {Text : Type} {env : Env Text} {owner : Owner} {svc : AccountService} {svcName : String}

/-! ## The items sent -/

theorem mem_of_lastOf {α : Type} {f : SecretToken → Option α} {tokens : List SecretToken} {a : α}
    (h : lastOf f tokens = some a) : ∃ token ∈ tokens, f token = some a :=
  List.mem_filterMap.1 (List.mem_of_getLast? h)

theorem lastOf_eq_of_forall {α : Type} {f : SecretToken → Option α} {tokens : List SecretToken}
    {a : α} (hall : ∀ token ∈ tokens, ∀ b, f token = some b → b = a)
    (hsome : ∃ token ∈ tokens, f token = some a) : lastOf f tokens = some a := by
  have hne : tokens.filterMap f ≠ [] := by
    obtain ⟨token, hmem, hf⟩ := hsome
    exact List.ne_nil_of_mem (List.mem_filterMap.2 ⟨token, hmem, hf⟩)
  obtain ⟨b, hb⟩ := Option.isSome_iff_exists.1 (List.getLast?_isSome.2 hne)
  have hlast : lastOf f tokens = some b := hb
  obtain ⟨token, hmem, hf⟩ := mem_of_lastOf hlast
  rw [hlast, hall token hmem b hf]

theorem mem_itemTokens {key : String} {tokens : List SecretToken} {token : SecretToken} :
    token ∈ itemTokens key tokens ↔ token ∈ tokens ∧ token.itemKey = some key := by
  simp [itemTokens]

/-- Every item sent is one of those collected from the tokens. -/
theorem sent_of_saveProtectedParams {aResult : AuthResult} {w : World Text} {item : RPCSecretItem}
    {reply : RpcReply RPCSecretResult} (h : .setSecret item reply ∈
      w.newCalls (final ((svc.saveProtectedParams env owner aResult).run w))) :
    ∃ (key : String) (i : SecretItem),
      (collected env owner svc.name aResult.tokens)[key]? = some i ∧ item = i.toRpc := by
  let P : Call Text → Prop := fun c => ∀ item reply, c = .setSecret item reply →
    ∃ (key : String) (i : SecretItem),
      (collected env owner svc.name aResult.tokens)[key]? = some i ∧ item = i.toRpc
  have hF : Asking (callsOf P) :=
    { record := fun w c hc => callsOf_record rfl (by rintro item reply rfl; exact hc.elim)
      log := fun w _ => ⟨[], by simp⟩ }
  have hwithin : Within (callsOf P) (svc.saveProtectedParams env owner aResult) := by
    refine (within_glog hF _ _).bind fun _ => Within.bind_ok
      (within_foldlM (fun state token _ => within_collectStep hF owner state token) _) ?_
    rintro ⟨secretDict, svc'⟩ s s' hr
    have hdict : secretDict = collected env owner svc.name aResult.tokens :=
      foldlM_collectStep_dict rfl hr
    refine Within.bind (within_saveItems hF fun item hitem w => callsOf_record rfl ?_) fun saved =>
      within_ite (fun _ => within_pure _) fun _ => within_pure _
    rintro item' reply ⟨rfl, -⟩
    obtain ⟨⟨key, i⟩, hmem, rfl⟩ := List.mem_map.1 hitem
    exact ⟨key, i, hdict ▸ Std.ExtTreeMap.mem_toList_iff_getElem?_eq_some.1 hmem, rfl⟩
  obtain ⟨cs, hcs, hall⟩ := hwithin w
  rw [newCalls_eq hcs] at h
  exact hall _ h item reply rfl

/-- The secret service accepts every item. -/
def AcceptsAll (env : Env Text) : Prop :=
  ∀ n item store, (SecretManager.succeeded (env.setSecret n item store).1).1 = true

theorem run_setSecret_of_accepts (h : AcceptsAll env) (item : SecretItem) (w : World Text) :
    ∃ w', (SecretManager.setSecret env item).run w = .ok true w' := by
  have hraises : Raises (fun _ => False) (SecretManager.setSecret env item) := by
    refine (raises_modify _).bind fun _ => (raises_modifyGet _).bind fun reply => Raises.bind ?_
      fun _ => raises_ite (fun _ => (raises_modify _).bind fun _ => raises_pure _)
        fun _ => raises_pure _
    cases reply with
    | unreachable description => exact raises_modify _
    | exception description => exact raises_pure _
    | result r => exact raises_pure _
  obtain ⟨b, w', hr⟩ := hraises.returns w
  refine ⟨w', ?_⟩
  rw [hr]
  obtain ⟨_, w₁, hlog, hr⟩ := run_bind_ok.1 hr
  obtain ⟨reply, w₂, hcall, hr⟩ := run_bind_ok.1 hr
  obtain ⟨_, w₃, -, hr⟩ := run_bind_ok.1 hr
  have hreply : (SecretManager.succeeded reply).1 = true := by
    rw [Env.callSetSecret, run_modifyGet_ok] at hcall
    rw [← hcall.1]
    exact h _ _ _
  rcases hresult : SecretManager.succeeded reply with ⟨isSucceed, errString⟩
  obtain rfl : isSucceed = true := by rwa [hresult] at hreply
  simp only [hresult] at hr
  obtain ⟨rfl, -⟩ := run_pure_ok.1 hr
  rfl

theorem run_saveItems_of_accepts (h : AcceptsAll env) (items : List SecretItem) (w : World Text) :
    ∃ w', (AccountService.saveItems env items).run w = .ok true w' := by
  induction items generalizing w with
  | nil => exact ⟨w, rfl⟩
  | cons item items ih =>
    obtain ⟨w₂, hset⟩ := run_setSecret_of_accepts h item
      { w with log := w.log ++ [(.inf, logMessage ["save new secret:", item.toString true])] }
    obtain ⟨w', hrest⟩ := ih w₂
    exact ⟨w', run_bind_ok.2 ⟨(), _, rfl, run_bind_ok.2 ⟨true, w₂, hset, hrest⟩⟩⟩

variable (env owner) in
theorem run_collectStep {state : StrMap SecretItem × AccountService}
    (haccount : state.2.accountSet = true) (token : SecretToken) (w : World Text) :
    ∃ state' w', (AccountService.collectStep env owner state token).run w = .ok state' w' ∧
      state'.2.accountSet = true := by
  obtain ⟨secretDict, svc⟩ := state
  rw [AccountService.collectStep]
  cases hschema : token.attributes["schema"]? with
  | none => exact ⟨_, _, rfl, haccount⟩
  | some schema =>
    have hderef : (svc.derefAccount owner : M Text Owner) = pure owner := if_pos haccount
    simp only [hderef]
    exact ⟨_, _, rfl, haccount⟩

variable (env owner) in
theorem run_foldlM_collectStep (tokens : List SecretToken) :
    ∀ (state : StrMap SecretItem × AccountService), state.2.accountSet = true → ∀ w : World Text,
      ∃ state' w', (tokens.foldlM (AccountService.collectStep env owner) state).run w =
        .ok state' w' := by
  induction tokens with
  | nil => exact fun _ _ w => ⟨_, w, rfl⟩
  | cons token tokens ih =>
    intro state haccount w
    obtain ⟨state₁, w₁, hstep, haccount₁⟩ := run_collectStep env owner haccount token w
    obtain ⟨state', w', hrest⟩ := ih state₁ haccount₁ w₁
    exact ⟨state', w', run_bind_ok.2 ⟨state₁, w₁, hstep, hrest⟩⟩

/-- Nothing keeps the secrets from being saved when the secret service accepts them. -/
theorem run_saveProtectedParams_of_accepts (owner : Owner) (h : AcceptsAll env)
    (haccount : svc.accountSet = true) (aResult : AuthResult) (w : World Text) :
    ∃ svc' w', (svc.saveProtectedParams env owner aResult).run w = .ok (true, svc') w' := by
  obtain ⟨⟨secretDict, svc'⟩, w₁, hfold⟩ := run_foldlM_collectStep env owner aResult.tokens
    (∅, svc) haccount { w with log := w.log ++ [(.inf, logMessage
      ["saving protected params:", toString aResult.tokens.length])] }
  obtain ⟨w₂, hsave⟩ := run_saveItems_of_accepts h (secretDict.toList.map Prod.snd) w₁
  exact ⟨svc', w₂, run_bind_ok.2 ⟨(), _, rfl, run_bind_ok.2 ⟨(secretDict, svc'), w₁, hfold,
    run_bind_ok.2 ⟨true, w₂, hsave, rfl⟩⟩⟩⟩

theorem collectedFrom_of_getElem {tokens : List SecretToken} {key : String} {item : SecretItem}
    (h : (collected env owner svcName tokens)[key]? = some item) :
    CollectedFrom (itemTokens key tokens) item := by
  have hfrom : CollectedFrom (itemTokens key tokens)
      ((collected env owner svcName tokens).getD key {}) := collectedFrom owner svcName key tokens
  rwa [Std.ExtTreeMap.getD_eq_getD_getElem?, h, Option.getD_some] at hfrom

variable (env owner svcName) in
theorem exists_collected {tokens : List SecretToken} {token : SecretToken} {key : String}
    (hmem : token ∈ tokens) (hkey : token.itemKey = some key) :
    ∃ item, (collected env owner svcName tokens)[key]? = some item :=
  Option.isSome_iff_exists.1 <| Std.ExtTreeMap.mem_iff_isSome_getElem?.1 <|
    mem_collected owner svcName key tokens (List.ne_nil_of_mem (mem_itemTokens.2 ⟨hmem, hkey⟩))

/-! ## Tokens of several schemas -/

/-- Every token is found in an item of its schema, and every secret in an item is that of a token of
the item's schema. -/
structure TokensKept (tokens : List SecretToken) (w w' : World Text) : Prop where
  kept : ∀ token ∈ tokens, ∃ item reply, .setSecret item reply ∈ w.newCalls w' ∧
    item.attr "schema" = token.attributes["schema"]? ∧
    item.secrets.lookup token.secretKey = some token.secret
  unmixed : ∀ item reply, .setSecret item reply ∈ w.newCalls w' → ∀ e ∈ item.secrets,
    ∃ token ∈ tokens, token.attributes["schema"]? = item.attr "schema" ∧ token.secretKey = e.1 ∧
      token.secret = e.2

/-- The same tokens with other secrets. -/
def withSecrets (secrets : SecretToken → String) (tokens : List SecretToken) : List SecretToken :=
  tokens.map fun token => { token with secret := secrets token }

/-- Whatever the secrets of the tokens are and whatever is answered, no token is lost or mixed with
another when the secrets are saved. -/
def KeepsTokens (env : Env Text) (owner : Owner) (svc : AccountService) (aResult : AuthResult) :
    Prop :=
  ∀ secrets answers (w w' : World Text) svc',
    (svc.saveProtectedParams (env.withAnswers answers) owner
      { aResult with tokens := withSecrets secrets aResult.tokens }).run w = .ok (true, svc') w' →
    TokensKept (withSecrets secrets aResult.tokens) w w'

/-- Tokens that are collected in one item have the same schema. -/
def KeysFollowSchemas (tokens : List SecretToken) : Prop :=
  ∀ token ∈ tokens, ∀ other ∈ tokens, token.itemKey = other.itemKey →
    token.attributes["schema"]? = other.attributes["schema"]?

/-- No two tokens have both the same schema and the same label. -/
def DistinctTokens (tokens : List SecretToken) : Prop :=
  tokens.Pairwise fun token other =>
    ¬(token.attributes["schema"]? = other.attributes["schema"]? ∧ token.label = other.label)

theorem DistinctTokens.eq {tokens : List SecretToken} (h : DistinctTokens tokens)
    {token other : SecretToken} (htoken : token ∈ tokens) (hother : other ∈ tokens)
    (hschema : token.attributes["schema"]? = other.attributes["schema"]?)
    (hlabel : token.label = other.label) : token = other := by
  by_contra hne
  have hsymm : Std.Symm fun token other : SecretToken =>
      ¬(token.attributes["schema"]? = other.attributes["schema"]? ∧ token.label = other.label) :=
    ⟨fun _ _ hnot he => hnot ⟨he.1.symm, he.2.symm⟩⟩
  exact List.Pairwise.forall h htoken hother hne ⟨hschema, hlabel⟩

theorem mem_withSecrets {secrets : SecretToken → String} {tokens : List SecretToken}
    {token : SecretToken} : token ∈ withSecrets secrets tokens ↔
      ∃ t ∈ tokens, token = { t with secret := secrets t } := by
  simp [withSecrets, eq_comm]

theorem KeysFollowSchemas.withSecrets {tokens : List SecretToken} (h : KeysFollowSchemas tokens)
    (secrets : SecretToken → String) : KeysFollowSchemas (withSecrets secrets tokens) := by
  intro token htoken other hother hkey
  obtain ⟨t, ht, rfl⟩ := mem_withSecrets.1 htoken
  obtain ⟨o, ho, rfl⟩ := mem_withSecrets.1 hother
  exact h t ht o ho hkey

theorem DistinctTokens.withSecrets {tokens : List SecretToken} (h : DistinctTokens tokens)
    (secrets : SecretToken → String) : DistinctTokens (withSecrets secrets tokens) :=
  List.pairwise_map.2 h

/-- Tokens of one schema with the same key and the same name for their secrets have the same label.
-/
theorem label_eq_of_keys {token other : SecretToken}
    (hschema : token.attributes["schema"]? = other.attributes["schema"]?)
    (hkey : token.itemKey = other.itemKey) (hname : token.secretKey = other.secretKey)
    (hsome : "schema" ∈ token.attributes) : token.label = other.label := by
  obtain ⟨schema, hs⟩ := Option.isSome_iff_exists.1 (Std.ExtTreeMap.mem_iff_isSome_getElem?.1 hsome)
  have hs' : other.attributes["schema"]? = some schema := hschema ▸ hs
  simp only [SecretToken.itemKey, hs, hs', Option.map_some, Option.some.injEq,
    AccountService.tokenKeys] at hkey
  simp only [SecretToken.secretKey, Std.ExtTreeMap.getD_eq_getD_getElem?, hs, hs', Option.getD_some,
    AccountService.tokenKeys] at hname
  split at hkey
  · next hgrouped => rwa [if_pos hgrouped, if_pos hgrouped] at hname
  · exact hkey

theorem tokensKept_of_keysFollowSchemas {aResult : AuthResult} {svc' : AccountService}
    {w w' : World Text} (hschema : ∀ token ∈ aResult.tokens, "schema" ∈ token.attributes)
    (hdistinct : DistinctTokens aResult.tokens) (hkeys : KeysFollowSchemas aResult.tokens)
    (hr : (svc.saveProtectedParams env owner aResult).run w = .ok (true, svc') w') :
    TokensKept aResult.tokens w w' where
  kept token htoken := by
    obtain ⟨key, hkey⟩ : ∃ key, token.itemKey = some key := by
      refine Option.isSome_iff_exists.1 ?_
      rw [SecretToken.itemKey, Option.isSome_map]
      exact Std.ExtTreeMap.mem_iff_isSome_getElem?.1 (hschema token htoken)
    obtain ⟨item, hitem⟩ := exists_collected env owner svc.name htoken hkey
    obtain ⟨reply, -, hsent⟩ := saveProtectedParams_accepts hr hitem
    have hfrom := collectedFrom_of_getElem hitem
    have hmem : token ∈ itemTokens key aResult.tokens := mem_itemTokens.2 ⟨htoken, hkey⟩
    have hsame : ∀ other ∈ itemTokens key aResult.tokens,
        other.attributes["schema"]? = token.attributes["schema"]? := by
      intro other hother
      obtain ⟨hother, hkey'⟩ := mem_itemTokens.1 hother
      exact hkeys other hother token htoken (hkey'.trans hkey.symm)
    refine ⟨item.toRpc, reply, hsent, ?_, ?_⟩
    · obtain ⟨schema, hs⟩ := Option.isSome_iff_exists.1
        (Std.ExtTreeMap.mem_iff_isSome_getElem?.1 (hschema token htoken))
      rw [attr_toRpc, hfrom.schema, hs]
      refine lastOf_eq_of_forall (fun other hother schema' hs' => ?_) ⟨token, hmem, hs⟩
      rw [hsame other hother, hs] at hs'
      exact (Option.some.inj hs').symm
    · refine (TreeMap.lookup_toList item.secrets token.secretKey).trans ?_
      rw [hfrom.secrets]
      refine lastOf_eq_of_forall (fun other hother secret hs => ?_) ⟨token, hmem, if_pos rfl⟩
      obtain ⟨hother', hkey'⟩ := mem_itemTokens.1 hother
      obtain ⟨hname, hsecret⟩ := Option.ite_none_right_eq_some.1 hs
      have hlabel : token.label = other.label :=
        label_eq_of_keys (hsame other hother).symm (hkey.trans hkey'.symm) hname.symm
          (hschema token htoken)
      rw [← Option.some.inj hsecret, hdistinct.eq htoken hother' (hsame other hother).symm hlabel]
  unmixed item reply hsent e he := by
    have hsent' : .setSecret item reply ∈
        w.newCalls (final ((svc.saveProtectedParams env owner aResult).run w)) := by
      rw [hr]
      exact hsent
    obtain ⟨key, i, hitem, rfl⟩ := sent_of_saveProtectedParams hsent'
    have hfrom := collectedFrom_of_getElem hitem
    have hget : i.secrets[e.1]? = some e.2 := Std.ExtTreeMap.mem_toList_iff_getElem?_eq_some.1 he
    rw [hfrom.secrets] at hget
    obtain ⟨token, hmem, hs⟩ := mem_of_lastOf hget
    obtain ⟨hname, hsecret⟩ := Option.ite_none_right_eq_some.1 hs
    obtain ⟨htoken, hkey⟩ := mem_itemTokens.1 hmem
    refine ⟨token, htoken, ?_, hname, Option.some.inj hsecret⟩
    obtain ⟨schema, hs⟩ := Option.isSome_iff_exists.1
      (Std.ExtTreeMap.mem_iff_isSome_getElem?.1 (hschema token htoken))
    rw [attr_toRpc, hfrom.schema, hs]
    refine (lastOf_eq_of_forall (fun other hother schema' hs' => ?_) ⟨token, hmem, hs⟩).symm
    obtain ⟨hother, hkey'⟩ := mem_itemTokens.1 hother
    rw [hkeys other hother token htoken (hkey'.trans hkey.symm), hs] at hs'
    exact (Option.some.inj hs').symm

/-- The schema of a token that is kept whatever the secrets are is that of the last token of its
item. -/
theorem schema_of_keepsTokens {aResult : AuthResult} (haccount : svc.accountSet = true)
    (h : KeepsTokens env owner svc aResult) {token : SecretToken}
    (htoken : token ∈ aResult.tokens) :
    ∃ key, token.itemKey = some key ∧ token.attributes["schema"]? =
      lastOf (fun token => token.attributes["schema"]?) (itemTokens key aResult.tokens) := by
  -- Only this token gets the secret "x", so that an item with this secret is the one of the token.
  let secrets : SecretToken → String := fun t => if t = token then "x" else ""
  have haccepts : AcceptsAll (env.withAnswers referenceAnswers) := fun _ _ _ => rfl
  obtain ⟨svc', w', hr⟩ := run_saveProtectedParams_of_accepts owner haccepts haccount
    { aResult with tokens := withSecrets secrets aResult.tokens } { files := fun _ => ∅ }
  obtain ⟨item, reply, hsent, hschema, hsecret⟩ := (h _ _ _ _ _ hr).kept _
    (mem_withSecrets.2 ⟨token, htoken, rfl⟩)
  have hsent' : .setSecret item reply ∈ World.newCalls { files := fun _ => ∅ }
      (final ((svc.saveProtectedParams (env.withAnswers referenceAnswers) owner
        { aResult with tokens := withSecrets secrets aResult.tokens }).run
          { files := fun _ => ∅ })) := by
    rw [hr]
    exact hsent
  obtain ⟨key, i, hitem, rfl⟩ := sent_of_saveProtectedParams hsent'
  have hfrom := collectedFrom_of_getElem hitem
  have hx : i.secrets[token.secretKey]? = some "x" := by
    rw [← TreeMap.lookup_toList]
    exact hsecret.trans (congrArg some (if_pos rfl))
  rw [hfrom.secrets] at hx
  obtain ⟨other, hmem, hs⟩ := mem_of_lastOf hx
  obtain ⟨-, hsecret'⟩ := Option.ite_none_right_eq_some.1 hs
  obtain ⟨hother, hkey⟩ := mem_itemTokens.1 hmem
  obtain ⟨t, ht, rfl⟩ := mem_withSecrets.1 hother
  obtain rfl : t = token := by
    by_contra hne
    have hempty : (some (secrets t) : Option String) = some "" := congrArg some (if_neg hne)
    rw [hempty] at hsecret'
    exact absurd (Option.some.inj hsecret') (by decide)
  refine ⟨key, hkey, ?_⟩
  rw [attr_toRpc, hfrom.schema] at hschema
  rw [show t.attributes["schema"]? = _ from hschema.symm]
  rw [lastOf, lastOf, itemTokens, itemTokens, withSecrets, List.filter_map, List.filterMap_map]
  rfl

/-- No token is lost or mixed with another, whatever the secrets are, if and only if tokens that are
collected under the same key have the same schema. -/
theorem tokens_kept_iff (env : Env Text) (owner : Owner) (svc : AccountService)
    (aResult : AuthResult) (haccount : svc.accountSet = true)
    (hschema : ∀ token ∈ aResult.tokens, "schema" ∈ token.attributes)
    (hdistinct : DistinctTokens aResult.tokens) :
    KeepsTokens env owner svc aResult ↔ KeysFollowSchemas aResult.tokens := by
  constructor
  · intro h token htoken other hother hsame
    obtain ⟨key, hkey, hs⟩ := schema_of_keepsTokens haccount h htoken
    obtain ⟨key', hkey', hs'⟩ := schema_of_keepsTokens haccount h hother
    obtain rfl : key = key' := Option.some.inj (hkey.symm.trans (hsame.trans hkey'))
    rw [hs, hs']
  · intro hkeys secrets answers w w' svc' hr
    refine tokensKept_of_keysFollowSchemas (fun token htoken => ?_) (hdistinct.withSecrets secrets)
      (hkeys.withSecrets secrets) hr
    obtain ⟨t, ht, rfl⟩ := mem_withSecrets.1 htoken
    exact hschema t ht

instance (tokens : List SecretToken) : Decidable (KeysFollowSchemas tokens) :=
  inferInstanceAs (Decidable (∀ token ∈ tokens, ∀ other ∈ tokens, token.itemKey = other.itemKey →
    token.attributes["schema"]? = other.attributes["schema"]?))

instance (tokens : List SecretToken) : Decidable (DistinctTokens tokens) :=
  inferInstanceAs (Decidable (tokens.Pairwise fun token other =>
    ¬(token.attributes["schema"]? = other.attributes["schema"]? ∧ token.label = other.label)))

/-- A password with a label of its own, and a token of the schema `oauth2`. -/
def twoSchemas (label : String) : AuthResult where
  authenticated := true
  tokens := [{ label, secret := "ann", attributes := (∅ : StrStrMap).insert "schema" "password" },
    { label := "access_token", secret := "eve"
      attributes := (∅ : StrStrMap).insert "schema" "oauth2" }]

/-- The password has a key of its own. -/
theorem tokens_kept_labelled :
    KeepsTokens referenceEnv { id := 7, title := "Mail" } mailService (twoSchemas "imap") :=
  (tokens_kept_iff referenceEnv { id := 7, title := "Mail" } mailService (twoSchemas "imap") rfl
    (by decide +kernel) (by decide +kernel)).2 (by decide +kernel)

/-- A password that is labelled `oauth2` ends in the item of the other token. -/
theorem tokens_are_mixed : ¬∀ (env : Env YamlText) (owner : Owner) (svc svc' : AccountService)
    (aResult : AuthResult) (w w' : World YamlText), svc.accountSet = true →
    (∀ token ∈ aResult.tokens, "schema" ∈ token.attributes) → DistinctTokens aResult.tokens →
    (svc.saveProtectedParams env owner aResult).run w = .ok (true, svc') w' →
      TokensKept aResult.tokens w w' := by
  intro h
  have hschema : ∀ token ∈ (twoSchemas "oauth2").tokens, "schema" ∈ token.attributes := by
    decide +kernel
  have hdistinct : DistinctTokens (twoSchemas "oauth2").tokens := by decide +kernel
  have hkeeps : KeepsTokens referenceEnv { id := 7, title := "Mail" } mailService
      (twoSchemas "oauth2") := by
    intro secrets answers w w' svc' hr
    refine h _ _ _ _ _ _ _ rfl (fun token htoken => ?_) (hdistinct.withSecrets secrets) hr
    obtain ⟨t, ht, rfl⟩ := mem_withSecrets.1 htoken
    exact hschema t ht
  obtain ⟨key, hkey, hs⟩ := schema_of_keepsTokens rfl hkeeps List.mem_cons_self
  have hoauth : (some "oauth2" : Option String) = some key := hkey
  cases hoauth
  exact absurd hs (by decide +kernel)

/-! ## Tokens with attributes of the owner -/

/-- The item is found by the requests that withdraw the secrets of the service and of the account,
and by no such request for another account. -/
structure Withdrawable (env : Env Text) (id : Uuid) (svcName : String) (item : RPCSecretItem) :
    Prop where
  owner : item.Of env id svcName
  byService : ∀ (w : World Text) attributes reply, .deleteSecret attributes reply ∈
    w.newCalls (final ((SecretManager.removeService env id svcName).run w)) →
      item.Carries attributes
  byAccount : ∀ (w : World Text) attributes reply, .deleteSecret attributes reply ∈
    w.newCalls (final ((SecretManager.removeAccount env id).run w)) →
      item.Carries attributes
  notByOthers : ∀ other, other ≠ id → ∀ (w : World Text) attributes reply,
    (.deleteSecret attributes reply ∈
        w.newCalls (final ((SecretManager.removeAccount env other).run w)) ∨
      ∃ name, .deleteSecret attributes reply ∈
        w.newCalls (final ((SecretManager.removeService env other name).run w))) →
    ¬item.Carries attributes

/-- Whatever is answered, every item that is sent can be withdrawn by its owner. -/
def SavesWithdrawable (env : Env Text) (owner : Owner) (svc : AccountService)
    (aResult : AuthResult) : Prop :=
  ∀ answers (w : World Text) item reply, .setSecret item reply ∈ w.newCalls
    (final ((svc.saveProtectedParams (env.withAnswers answers) owner aResult).run w)) →
    Withdrawable (env.withAnswers answers) owner.id svc.name item

/-- The last token collected in each item has no other account id and no other service than its
owner's. -/
def KeepsOwner (env : Env Text) (owner : Owner) (svcName : String) (tokens : List SecretToken) :
    Prop :=
  ∀ key token, (itemTokens key tokens).getLast? = some token →
    ∀ a ∈ linkAttributes env owner.id svcName, ∀ val, token.attributes[a.1]? = some val → val = a.2

theorem mem_newCalls_deleteSecret {attributes : StrStrMap} {w : World Text}
    {sent : List (String × String)} {reply : RpcReply RPCSecretResult}
    (h : .deleteSecret sent reply ∈
      w.newCalls (final ((SecretManager.deleteSecret env attributes).run w))) :
    sent = attributes.toList := by
  have hone : w.newCalls (final ((SecretManager.deleteSecret env attributes).run w)) =
      [.deleteSecret attributes.toList (env.deleteSecret w.tick attributes.toList w.secrets).1] :=
    newCalls_eq rfl
  rw [hone, List.mem_singleton] at h
  cases h
  rfl

theorem withdrawable_iff {id : Uuid} {item : RPCSecretItem} :
    Withdrawable env id svcName item ↔ item.Of env id svcName := by
  refine ⟨fun h => h.owner, fun h => ⟨h, fun w attributes reply hsent => ?_,
    fun w attributes reply hsent => ?_, fun other hne w attributes reply hsent => ?_⟩⟩
  · rw [mem_newCalls_deleteSecret hsent, carries_service]
    exact h
  · rw [mem_newCalls_deleteSecret hsent, carries_account]
    exact h.1
  · have hid : item.attr "account_id" ≠ some (env.uuidAsString other) := by
      rw [h.1]
      exact fun he => hne (env.uuid.unparse_inj (Option.some.inj he)).symm
    rcases hsent with hsent | ⟨name, hsent⟩
    · rw [mem_newCalls_deleteSecret hsent, carries_account]
      exact hid
    · rw [mem_newCalls_deleteSecret hsent, carries_service]
      exact fun hcarries => hid hcarries.1

theorem getElem?_updateAttributes {item : SecretItem} {id : Uuid} {others : StrStrMap}
    {a : String × String} (ha : a ∈ linkAttributes env id svcName) :
    (item.updateAttributes (env.uuidAsString id) svcName others).attributes[a.1]? =
      others[a.1]?.or (some a.2) := by
  refine (TreeMap.insertAll_toList_getElem? _ others a.1).trans ?_
  congr 1
  simp only [linkAttributes, List.mem_cons, List.not_mem_nil, or_false] at ha
  rcases ha with rfl | rfl <;> dsimp only
  · rw [TreeMap.getElem?_insert_of_ne (by decide), Std.ExtTreeMap.getElem?_insert_self]
  · rw [TreeMap.getElem?_insert_of_ne (by decide), TreeMap.getElem?_insert_of_ne (by decide),
      Std.ExtTreeMap.getElem?_insert_self]

/-- The attributes of an item that say whose it is come from the last of its tokens. -/
theorem owner_of_collected (tokens : List SecretToken) {key : String} {item : SecretItem}
    (h : (collected env owner svcName tokens)[key]? = some item) {a : String × String}
    (ha : a ∈ linkAttributes env owner.id svcName) :
    ∃ token, (itemTokens key tokens).getLast? = some token ∧
      item.attributes[a.1]? = token.attributes[a.1]?.or (some a.2) := by
  induction tokens using List.reverseRecOn with
  | nil => simp [collected] at h
  | append_singleton tokens token ih =>
    rw [collected_append_singleton, collectOne] at h
    rw [itemTokens, List.filter_append, ← itemTokens]
    cases hschema : token.attributes["schema"]? with
    | none =>
      have hkey : token.itemKey = none := by rw [SecretToken.itemKey, hschema]; rfl
      simp only [hschema] at h
      simpa [hkey] using ih h
    | some schema =>
      have hkey : token.itemKey = some (AccountService.tokenKeys schema token.label).1 := by
        rw [SecretToken.itemKey, hschema]
        rfl
      simp only [hschema, AccountService.collectToken] at h
      by_cases he : (AccountService.tokenKeys schema token.label).1 = key
      · subst he
        rw [Std.ExtTreeMap.getElem?_insert_self, Option.some.injEq] at h
        refine ⟨token, by simp [hkey], ?_⟩
        rw [← h]
        exact getElem?_updateAttributes ha
      · rw [TreeMap.getElem?_insert_of_ne he] at h
        obtain ⟨last, hlast, hattribute⟩ := ih h
        exact ⟨last, by simpa [hkey, he] using hlast, hattribute⟩

theorem of_collected_iff {tokens : List SecretToken} {key : String} {item : SecretItem}
    (h : (collected env owner svcName tokens)[key]? = some item) {token : SecretToken}
    (hlast : (itemTokens key tokens).getLast? = some token) :
    item.toRpc.Of env owner.id svcName ↔ ∀ a ∈ linkAttributes env owner.id svcName, ∀ val,
      token.attributes[a.1]? = some val → val = a.2 := by
  have hattribute : ∀ a ∈ linkAttributes env owner.id svcName,
      (item.toRpc.attr a.1 = some a.2 ↔ ∀ val, token.attributes[a.1]? = some val → val = a.2) := by
    intro a ha
    obtain ⟨token', hlast', hget⟩ := owner_of_collected tokens h ha
    obtain rfl : token = token' := Option.some.inj (hlast.symm.trans hlast')
    rw [attr_toRpc, hget]
    cases token.attributes[a.1]? with
    | none => simp
    | some val => simp
  rw [RPCSecretItem.Of]
  constructor
  · rintro ⟨hid, hservice⟩ a ha
    refine (hattribute a ha).1 ?_
    simp only [linkAttributes, List.mem_cons, List.not_mem_nil, or_false] at ha
    rcases ha with rfl | rfl
    · exact hid
    · exact hservice
  · intro hall
    have hid : ("account_id", env.uuidAsString owner.id) ∈ linkAttributes env owner.id svcName := by
      simp [linkAttributes]
    have hservice : ("service", svcName) ∈ linkAttributes env owner.id svcName := by
      simp [linkAttributes]
    exact ⟨(hattribute _ hid).2 (hall _ hid), (hattribute _ hservice).2 (hall _ hservice)⟩

/-- Everything that is saved can be withdrawn by its owner, and by no other account, if and only if
the last token of each item brings no attributes that say otherwise. -/
theorem saves_withdrawable_iff (env : Env Text) (owner : Owner) (svc : AccountService)
    (aResult : AuthResult) (haccount : svc.accountSet = true) :
    SavesWithdrawable env owner svc aResult ↔ KeepsOwner env owner svc.name aResult.tokens := by
  constructor
  · intro h key token hlast
    have hmem := mem_itemTokens.1 (List.mem_of_getLast? hlast)
    have haccepts : AcceptsAll (env.withAnswers referenceAnswers) := fun _ _ _ => rfl
    obtain ⟨svc', w', hr⟩ := run_saveProtectedParams_of_accepts owner haccepts haccount
      aResult { files := fun _ => ∅ }
    obtain ⟨item, hitem⟩ := exists_collected (env.withAnswers referenceAnswers) owner svc.name
      hmem.1 hmem.2
    obtain ⟨reply, -, hsent⟩ := saveProtectedParams_accepts hr hitem
    have hsaved := h referenceAnswers { files := fun _ => ∅ } item.toRpc reply (by rwa [hr])
    exact (of_collected_iff hitem hlast).1 hsaved.owner
  · intro h answers w item reply hsent
    obtain ⟨key, i, hitem, rfl⟩ := sent_of_saveProtectedParams hsent
    obtain ⟨token, hlast, -⟩ := owner_of_collected aResult.tokens hitem
      (a := ("service", svc.name)) (by simp [linkAttributes])
    exact withdrawable_iff.2 ((of_collected_iff hitem hlast).2 (h key token hlast))

/-- The token of a password, which names an account. -/
def taggedToken (accountId : String) : SecretToken where
  label := "imap"
  secret := "ann"
  attributes := ((∅ : StrStrMap).insert "schema" "password").insert "account_id" accountId

def taggedTokens (accountId : String) : AuthResult where
  authenticated := true
  tokens := [taggedToken accountId]

theorem keepsOwner_of_own (id : Uuid) (title : String) :
    KeepsOwner env { id, title } svcName (taggedTokens (env.uuidAsString id)).tokens := by
  intro key token hlast a ha val hval
  obtain rfl : token = taggedToken (env.uuidAsString id) :=
    List.mem_singleton.1 (mem_itemTokens.1 (List.mem_of_getLast? hlast)).1
  rw [taggedToken] at hval
  simp only [linkAttributes, List.mem_cons, List.not_mem_nil, or_false] at ha
  rcases ha with rfl | rfl <;> dsimp only at hval ⊢
  · rw [Std.ExtTreeMap.getElem?_insert_self] at hval
    exact (Option.some.inj hval).symm
  · rw [TreeMap.getElem?_insert_of_ne (by decide),
      TreeMap.getElem?_insert_of_ne (by decide)] at hval
    simp at hval

/-- The token may name the account it belongs to. -/
theorem saves_withdrawable_own : SavesWithdrawable referenceEnv { id := 7, title := "Mail" }
    mailService (taggedTokens (referenceEnv.uuidAsString 7)) :=
  (saves_withdrawable_iff referenceEnv { id := 7, title := "Mail" } mailService
    (taggedTokens (referenceEnv.uuidAsString 7)) rfl).2 (keepsOwner_of_own 7 "Mail")

/-- A token that names another account takes its secret out of reach. -/
theorem foreign_secret_is_saved : ¬∀ (env : Env YamlText) (owner : Owner) (svc : AccountService)
    (aResult : AuthResult) (w : World YamlText) item reply, svc.accountSet = true →
    .setSecret item reply ∈ w.newCalls
      (final ((svc.saveProtectedParams env owner aResult).run w)) →
    Withdrawable env owner.id svc.name item := by
  intro h
  have haccepts : AcceptsAll referenceEnv := fun _ _ _ => rfl
  have haccount : mailService.accountSet = true := rfl
  have hkey : (taggedToken "foreign").itemKey = some "imap" := by decide +kernel
  obtain ⟨svc', w', hr⟩ := run_saveProtectedParams_of_accepts { id := 7, title := "Mail" } haccepts
    haccount (taggedTokens "foreign") { files := fun _ => ∅ }
  obtain ⟨item, hitem⟩ := exists_collected referenceEnv { id := 7, title := "Mail" } "mail"
    (List.mem_singleton_self _ : taggedToken "foreign" ∈ (taggedTokens "foreign").tokens) hkey
  obtain ⟨reply, -, hsent⟩ := saveProtectedParams_accepts hr hitem
  have hsaved := h referenceEnv { id := 7, title := "Mail" } mailService (taggedTokens "foreign")
    { files := fun _ => ∅ } item.toRpc reply rfl (by rwa [hr])
  have hown := (of_collected_iff hitem (List.getLast?_singleton ..)).1 hsaved.owner
    ("account_id", referenceEnv.uuidAsString 7) (by simp [linkAttributes]) "foreign"
    (by decide +kernel)
  exact absurd hown (by decide +kernel)

end PxAccounts
