import PxAccounts.Proof.Isolation
import PxAccounts.Proof.Links

/-!
# Modifications that fail

A modification that is refused has a clean-up that cannot tell the secrets it has just saved from
those the account had before.  So the account is left as it was exactly when it had no secrets that
the clean-up takes, and no secrets can be left behind that the clean-up does not take.
-/

namespace PxAccounts

open Effect AccountManager
open AccountObject (Lenient ReachesServices rest)

variable {Text : Type} {env : Env Text}

/-- The file of an account, its status and its secrets are the same in both states. -/
structure Unchanged (env : Env Text) (id : Uuid) (w w' : World Text) : Prop where
  files : ∀ parser ∈ env.parsers,
    w'.fileAt (parser.accountPath env id) = w.fileAt (parser.accountPath env id)
  status : w'.statDict[env.uuidAsString id]? = w.statDict[env.uuidAsString id]?
  secrets : ∀ s : RPCSecretItem, s.attr "account_id" = some (env.uuidAsString id) →
    (s ∈ w'.secrets ↔ s ∈ w.secrets)

/-- The same service with other answers from outside. -/
def Env.withAnswers (env : Env Text) (answers : Answers Text) : Env Text :=
  { env.toConfig, answers with }

/-- However the plugins and the secret service answer, a modification that returns false leaves the
account unchanged.  The tokens of the plugins bring no attributes under the keys `K`. -/
def FailsSafely (env : Env Text) (K : Set String) (w : World Text) (id : Uuid)
    (act : AccountObject) : Prop :=
  ∀ answers, SetsOnlySame (env.withAnswers answers) → DeletesExactly (env.withAnswers answers) →
    TokensLack (env.withAnswers answers) K → ∀ act' w',
      (modifyAccount (env.withAnswers answers) id act).run w = .ok (false, act') w' →
      Unchanged env id w w'

/-- The modification gets to the verification of the services and can return from it: the account is
read, a directory can be written to, and the services have been initialised. -/
structure Reached (env : Env Text) (w : World Text) (id : Uuid) (act : AccountObject) : Prop where
  readable : ∃ p acc, findParser env w id false = some p ∧ p.read env w id {} = .ok acc ∧
    (findParser env w acc.id true).isSome
  prepared : ReachesServices env act
  accountSet : ∀ (name : String) (svc : AccountService), act.services[name]? = some svc →
    svc.accountSet = true

/-- A secret of the account is one that the clean-up of the new account takes. -/
def TakesSecret (env : Env Text) (w : World Text) (id : Uuid) (act : AccountObject) : Prop :=
  id ≠ Uuid.null ∧ ∃ s ∈ w.secrets, ∃ (name : String) (svc : AccountService),
    act.services[name]? = some svc ∧ s.Of env id svc.name

/-- A plugin is asked for tokens, and the clean-up need not take the secrets they become: it skips
the null id, and it goes by the names of the services, which a token can replace. -/
def LeavesSecret (K : Set String) (id : Uuid) (act : AccountObject) : Prop :=
  (∃ (name : String) (svc : AccountService), act.services[name]? = some svc ∧ svc.plugin.isSome) ∧
    (id = Uuid.null ∨ "service" ∉ K)

/-! ## The services of a verification that returned -/

/-- A property of the links of the services goes over to the services of the prepared account. -/
theorem services_prepared {act : AccountObject} {P : AccountService → Prop}
    (hlink : ∀ svc svc', svc'.link = svc.link → P svc → P svc')
    (h : ∀ (name : String) (svc : AccountService), act.services[name]? = some svc → P svc)
    (name : String) (svc : AccountService)
    (hget : (AccountObject.prepared env act).services[name]? = some svc) : P svc := by
  have hlinks := AccountObject.sameLinks_prepared env act name
  rw [hget, Option.map_some] at hlinks
  obtain ⟨svc₀, hsvc₀, hl⟩ := Option.map_eq_some_iff.1 hlinks.symm
  exact hlink svc₀ svc hl.symm (h name svc₀ hsvc₀)

/-- The services come out of a verification with the links they had. -/
theorem link_of_verifyServices {act act' : AccountObject} {b : Bool} {w w' : World Text}
    (hr : ((AccountObject.prepared env act).verifyServices env).run w = .ok (b, act') w')
    {name : String} {svc : AccountService} (hget : act.services[name]? = some svc) :
    ∃ svc', act'.services[name]? = some svc' ∧ svc'.link = svc.link := by
  obtain ⟨-, hnames, hout⟩ := AccountObject.verifyServices_ok hr
  have hlinks := AccountObject.sameLinks_prepared env act name
  rw [hget, Option.map_some] at hlinks
  obtain ⟨svc₁, hsvc₁, hlink₁⟩ := Option.map_eq_some_iff.1 hlinks
  have hmem : name ∈ act'.services :=
    (hnames name).2 (Std.ExtTreeMap.mem_iff_isSome_getElem?.2 (by rw [hsvc₁]; rfl))
  obtain ⟨svc', hsvc'⟩ := Option.isSome_iff_exists.1 (Std.ExtTreeMap.mem_iff_isSome_getElem?.1 hmem)
  obtain ⟨svc₂, hsvc₂, hlink₂, -⟩ := hout name svc' hsvc'
  rw [hsvc₁] at hsvc₂
  cases hsvc₂
  exact ⟨svc', hsvc', hlink₂.trans hlink₁⟩

theorem accountSet_of_link {svc svc' : AccountService} (h : svc'.link = svc.link) :
    svc'.accountSet = svc.accountSet := congrArg (·.2.1) h

theorem plugin_of_link {svc svc' : AccountService} (h : svc'.link = svc.link) :
    svc'.plugin = svc.plugin := congrArg (·.2.2.1) h

theorem name_of_link {svc svc' : AccountService} (h : svc'.link = svc.link) :
    svc'.name = svc.name := congrArg Prod.fst h

/-- A withdrawal of secrets that returned went through the accounts of all services. -/
theorem accountSet_of_removeAll {act : AccountObject} {w w' : World Text}
    (hr : (act.removeAllSecrets env).run w = .ok () w') (name : String) (svc : AccountService)
    (hget : act.services[name]? = some svc) : svc.accountSet = true := by
  have hmem := Std.ExtTreeMap.mem_toList_iff_getElem?_eq_some.2 hget
  simp only [AccountObject.removeAllSecrets] at hr
  generalize act.services.toList = l at hmem hr
  induction l generalizing w with
  | nil => cases hmem
  | cons kv l ih =>
    rw [List.forM_cons, run_bind_ok] at hr
    obtain ⟨_, w₁, hturn, hrest⟩ := hr
    rcases List.mem_cons.1 hmem with rfl | hmem
    · obtain ⟨_, w₂, hremove, -⟩ := run_bind_ok.1 hturn
      obtain ⟨_, w₃, hderef, -⟩ := run_bind_ok.1 hremove
      exact (AccountService.derefAccount_ok hderef).1
    · exact ih hmem hrest

/-- So has a verification in which every service was accepted. -/
theorem accountSet_of_verified {act act' : AccountObject} {w w' : World Text}
    (hr : ((AccountObject.prepared env act).verifyServices env).run w = .ok (true, act') w')
    (name : String) (svc : AccountService) (hget : act.services[name]? = some svc) :
    svc.accountSet = true := by
  obtain ⟨svc', hsvc', hlink⟩ := link_of_verifyServices hr hget
  obtain ⟨-, -, hout⟩ := AccountObject.verifyServices_ok hr
  obtain ⟨svc₁, -, hlink₁, hdone⟩ := hout name svc' hsvc'
  obtain ⟨-, s, s', -, -, hrun⟩ := hdone rfl
  rcases AccountService.verify_ok hrun with ⟨hb, -⟩ | ⟨_, _, _, _, _, _, -, hacc, -⟩
  · cases hb
  · rw [← accountSet_of_link hlink, accountSet_of_link hlink₁]
    exact hacc.accountSet

/-! ## What a refusal does to the secrets -/

/-- A service without a plugin is refused at once. -/
theorem within_verify_of_no_plugin {F : Frame (World Text)} (hF : Quiet F) {owner : Owner}
    {svc : AccountService} (h : svc.plugin = none) : Within F (svc.verify env owner) := by
  refine Within.bind_ok (within_verifyParams hF _ _) ?_
  rintro ⟨r, svc'⟩ s s' hverify
  rcases AccountService.verifyParams_ok hverify with ⟨rfl, -⟩ | ⟨plugin, _, _, hacc, -, -⟩
  · exact (within_glog hF _ _).bind fun _ => within_pure _
  · have hplugin : svc.plugin = some plugin := hacc.plugin_eq
    rw [h] at hplugin
    cases hplugin

/-- The secrets of the account that do not belong to its services. -/
def foreignSecrets (env : Env Text) (act : AccountObject) : Frame (World Text) where
  rel w w' := ∀ s : RPCSecretItem, s.attr "account_id" = some (env.uuidAsString act.id) →
    (∀ (name : String) (svc : AccountService), act.services[name]? = some svc →
      ¬s.Of env act.id svc.name) → (s ∈ w'.secrets ↔ s ∈ w.secrets)
  refl _ _ _ _ := Iff.rfl
  trans h₁ h₂ s hid hs := (h₂ s hid hs).trans (h₁ s hid hs)

theorem quiet_foreignSecrets (act : AccountObject) : Quiet (foreignSecrets env act) where
  record _ _ _ _ _ _ := Iff.rfl
  log _ _ _ _ _ := Iff.rfl

variable {K : Set String}

/-- Nothing is saved for services without plugins. -/
theorem secretsOf_of_no_plugin {act act' : AccountObject} {b : Bool} {w w' : World Text} (id : Uuid)
    (hnone : ∀ (name : String) (svc : AccountService), act.services[name]? = some svc →
      svc.plugin = none)
    (hr : ((AccountObject.prepared env act).verifyServices env).run w = .ok (b, act') w') :
    (secretsOf env id).rel w w' := by
  refine (AccountObject.within_verifyServices_of fun name svc hget => ?_).rel_of_ok hr
  refine within_verify_of_no_plugin (quiet_secretsOf id) ?_
  exact services_prepared (P := fun svc => svc.plugin = none)
    (fun _ _ hlink h => (plugin_of_link hlink).trans h) hnone name svc hget

/-- What is saved belongs to the services of the account, unless tokens name another service. -/
theorem foreignSecrets_of_verify (hset : SetsOnlySame env) (hlack : TokensLack env {"service"})
    {act act' : AccountObject} {b : Bool} {w w' : World Text}
    (hr : ((AccountObject.prepared env act).verifyServices env).run w = .ok (b, act') w') :
    (foreignSecrets env act).rel w w' := by
  refine (AccountObject.within_verifyServices (quiet_foreignSecrets act).asking hlack
    (fun _ _ _ _ _ _ _ => Iff.rfl) fun name svc hget item hlinked w s hid hs => ?_).rel_of_ok hr
  refine hset _ _ _ _ fun he => ?_
  have hservice : item.attributes["service"]? = some svc.name :=
    hlinked ("service", svc.name) (by simp [linkAttributes]) rfl
  rw [← attr_toRpc, RPCSecretItem.attr, ← he, ← RPCSecretItem.attr] at hservice
  obtain ⟨name, svc₀, hsvc₀, hname⟩ : ∃ (name : String) (svc₀ : AccountService),
      act.services[name]? = some svc₀ ∧ svc₀.name = svc.name := by
    refine services_prepared (P := fun svc => ∃ (name : String) (svc₀ : AccountService),
      act.services[name]? = some svc₀ ∧ svc₀.name = svc.name) ?_
      (fun name svc h => ⟨name, svc, h, rfl⟩) name svc hget
    rintro svc₁ svc₂ hlink ⟨name, svc₀, hsvc₀, h⟩
    exact ⟨name, svc₀, hsvc₀, h.trans (name_of_link hlink).symm⟩
  exact hs name svc₀ hsvc₀ ⟨hid, hname ▸ hservice⟩

/-- The clean-up after a refusal takes the secrets of the services, and nothing for the null id. -/
theorem secrets_of_removeAll (hdel : DeletesExactly env) {act act' : AccountObject}
    {b : Bool} {w w₁ w' : World Text} (hid : uuidIsNull act.id = false)
    (hr : ((AccountObject.prepared env act).verifyServices env).run w = .ok (b, act') w₁)
    (hremove : (act'.removeAllSecrets env).run w₁ = .ok () w') (s : RPCSecretItem) :
    s ∈ w'.secrets ↔ s ∈ w₁.secrets ∧ ∀ (name : String) (svc : AccountService),
      act.services[name]? = some svc → ¬s.Of env act.id svc.name := by
  have hdetails := (AccountObject.sameDetails_prepared act).trans
    (AccountObject.verifyServices_ok hr).1
  have hid' : act'.id = act.id := congrArg Owner.id hdetails.owner_eq
  rw [removeAllSecrets_ok hdel (hid' ▸ hid) hremove s, hid']
  refine and_congr_right fun _ => ⟨fun h name svc hget => ?_, fun h kv hkv => ?_⟩
  · obtain ⟨svc', hsvc', hlink⟩ := link_of_verifyServices hr hget
    rw [← name_of_link hlink]
    exact h (name, svc') (Std.ExtTreeMap.mem_toList_iff_getElem?_eq_some.2 hsvc')
  · obtain ⟨-, -, hout⟩ := AccountObject.verifyServices_ok hr
    obtain ⟨svc, hsvc, hlink, -⟩ :=
      hout kv.1 kv.2 (Std.ExtTreeMap.mem_toList_iff_getElem?_eq_some.1 hkv)
    rw [name_of_link hlink]
    exact services_prepared (P := fun svc => ¬s.Of env act.id svc.name)
      (fun _ _ hlink h => by rwa [name_of_link hlink]) h kv.1 svc hsvc

/-- The secrets of the account after a refusal. -/
theorem secretsOf_of_refused (hset : SetsOnlySame env) (hdel : DeletesExactly env)
    (hlack : TokensLack env K) {act act' : AccountObject} {w w' : World Text}
    (hr : (act.verify env).run w = .ok (false, act') w')
    (hsafe : ReachesServices env act → (∀ (name : String) (svc : AccountService),
      act.services[name]? = some svc → svc.accountSet = true) →
      ¬TakesSecret env w act.id act ∧ ¬LeavesSecret K act.id act) :
    (secretsOf env act.id).rel w w' := by
  rcases AccountObject.verify_ok hr with ⟨-, rfl, -⟩ | ⟨hreach, w₁, hservices, hend⟩
  · exact (secretsOf env act.id).refl _
  obtain ⟨hb, -⟩ | ⟨-, hremove⟩ := hend
  · cases hb
  obtain ⟨htakes, hleaves⟩ := hsafe hreach fun name svc hget => by
    obtain ⟨svc', hsvc', hlink⟩ := link_of_verifyServices hservices hget
    rw [← accountSet_of_link hlink]
    exact accountSet_of_removeAll hremove name svc' hsvc'
  have hcase : (∀ (name : String) (svc : AccountService), act.services[name]? = some svc →
      svc.plugin = none) ∨ act.id ≠ Uuid.null ∧ "service" ∈ K := by
    by_cases hnone : ∀ (name : String) (svc : AccountService), act.services[name]? = some svc →
        svc.plugin = none
    · exact .inl hnone
    · push Not at hnone
      obtain ⟨name, svc, hget, hplugin⟩ := hnone
      refine .inr ?_
      by_contra hnot
      refine hleaves ⟨⟨name, svc, hget, Option.isSome_iff_ne_none.2 hplugin⟩, ?_⟩
      rwa [not_and_or, not_not] at hnot
  by_cases hnull : act.id = Uuid.null
  · -- The clean-up of the null id does nothing.
    have hnone := hcase.resolve_right fun h => h.1 hnull
    refine (secretsOf env act.id).trans (secretsOf_of_no_plugin act.id hnone hservices) ?_
    refine (AccountObject.within_removeAllSecrets fun name svc hget hid => ?_).rel_of_ok hremove
    have hdetails := (AccountObject.sameDetails_prepared act).trans
      (AccountObject.verifyServices_ok hservices).1
    have hid' : act'.id = act.id := congrArg Owner.id hdetails.owner_eq
    rw [hid', hnull] at hid
    cases hid
  · have hforeign : (foreignSecrets env act).rel w w₁ := by
      rcases hcase with hnone | ⟨-, hK⟩
      · exact fun s hid _ => secretsOf_of_no_plugin act.id hnone hservices s hid
      · exact foreignSecrets_of_verify hset (fun n plugin params r hans t ht key hkey =>
          hlack n plugin params r hans t ht key (by cases hkey; exact hK)) hservices
    intro s hid
    rw [secrets_of_removeAll hdel (by simpa [uuidIsNull] using hnull) hservices hremove s]
    by_cases hs : ∀ (name : String) (svc : AccountService), act.services[name]? = some svc →
        ¬s.Of env act.id svc.name
    · rw [hforeign s hid hs, and_iff_left hs]
    · push Not at hs
      obtain ⟨name, svc, hget, hof⟩ := hs
      refine iff_of_false (fun h => h.2 name svc hget hof) fun h => ?_
      exact htakes ⟨hnull, s, h, name, svc, hget, hof⟩

/-! ## Modifications that leave the account unchanged -/

/-- The account that is verified under the id of the old one. -/
theorem reached_of_readOk {w w₁ : World Text} {id : Uuid} {q p : AccountParser}
    {acc oldAct act : AccountObject} (hok : ReadOk env w id q acc oldAct w₁)
    (hfind : findParser env w₁ oldAct.id true = some p)
    (hreach : ReachesServices env { act with id := id })
    (hset : ∀ (name : String) (svc : AccountService), act.services[name]? = some svc →
      svc.accountSet = true) : Reached env w id act := by
  rw [findParser_of_files hok.silent.files, hok.id_eq] at hfind
  exact ⟨⟨q, acc, hok.parser_eq, hok.read_eq, by rw [hfind]; rfl⟩, hreach, hset⟩

theorem unchanged_of_failed (hset : SetsOnlySame env) (hdel : DeletesExactly env)
    (hlack : TokensLack env K) {id : Uuid} {act act' : AccountObject} {w w' : World Text}
    (hr : (modifyAccount env id act).run w = .ok (false, act') w')
    (hsafe : Reached env w id act → ¬TakesSecret env w id act ∧ ¬LeavesSecret K id act) :
    Unchanged env id w w' := by
  have hsame : ∀ w₂ errs, w' = w₂.addErrors errs → rest w₂ = rest w →
      (secretsOf env id).rel w w₂ → Unchanged env id w w' := by
    rintro w₂ errs rfl hrest hsecrets
    exact ⟨fun p _ => World.fileAt_congr (congrArg Prod.fst hrest :) _,
      congrArg (·[env.uuidAsString id]?) (congrArg (·.2.1) hrest :), hsecrets⟩
  rcases modifyAccount_ok hr with ⟨-, w₁, errs, hw', hsilent⟩ |
    ⟨q, acc, oldAct, w₁, p, hok, hfind, hcase⟩
  · exact hsame w₁ errs hw' (hsilent _ (AccountObject.lenient_rest env).toQuiet)
      (hsilent _ (quiet_secretsOf id))
  have hread : rest w₁ = rest w := hok.silent _ (AccountObject.lenient_rest env).toQuiet
  have hback : ∀ w₂, (secretsOf env id).rel w₁ w₂ → (secretsOf env id).rel w w₂ :=
    fun w₂ h => (secretsOf env id).trans (hok.silent _ (quiet_secretsOf id)) h
  have hsafe' : ReachesServices env { act with id := id } →
      (∀ (name : String) (svc : AccountService), act.services[name]? = some svc →
        svc.accountSet = true) → ¬TakesSecret env w₁ id act ∧ ¬LeavesSecret K id act := by
    intro hreach haccount
    have := hsafe (reached_of_readOk hok hfind hreach haccount)
    rwa [TakesSecret, ← hok.silent.secrets] at this
  cases hcase with
  | refused hverify =>
    exact hsame _ _ rfl ((rest_of_verify hverify).trans hread)
      (hback _ (secretsOf_of_refused hset hdel hlack hverify hsafe'))
  | unwritten hverify hwhy =>
    refine hsame _ _ rfl ((rest_of_verify hverify).trans hread) (hback _ ?_)
    -- The directory can be written to, so that the id is the null one.
    have hnull : id = Uuid.null := by
      have hid : _ = id := id_of_verify hverify
      have hwritable := (findParser_some hfind).2.1 rfl
      rw [hwritable, hid] at hwhy
      simpa [uuidIsNull] using hwhy
    rcases AccountObject.verify_ok hverify with ⟨hb, -⟩ | ⟨hreach, w₂, hservices, hend⟩
    · cases hb
    have hw₂ := (hend.resolve_right fun h => by cases h.1).2
    subst hw₂
    obtain ⟨-, hleaves⟩ := hsafe' hreach (accountSet_of_verified hservices :)
    refine (secretsOf_of_no_plugin id (fun name svc hget => ?_) hservices :)
    by_contra hplugin
    exact hleaves ⟨⟨name, svc, hget, Option.isSome_iff_ne_none.2 hplugin⟩, .inl hnull⟩

/-! ## Plugins that let every modification fail -/

/-- Plugins that accept every service and answer with this token, and a secret service that stores
every secret without its reply coming through. -/
def losingReplies (token : SecretToken) : Answers Text :=
  { referenceAnswers with
    verify := fun _ _ _ => .returned { verified := true }
    authenticate := fun _ _ _ => .returned { authenticated := true, tokens := [token] }
    setSecret := fun _ item store => (.exception "connection lost", store ++ [item])
    search := fun _ _ _ => .result [] }

/-- What the token is saved as. -/
def savedItem (env : Env Text) (owner : Owner) (svcName : String) (token : SecretToken) :
    SecretItem :=
  SecretItem.updateAttributes
    { label := owner.title ++ "->" ++ svcName ++ " [" ++ "password" ++ "]"
      secrets := (∅ : StrStrMap).insert "password" token.secret }
    (env.uuidAsString owner.id) svcName token.attributes

theorem collectToken_password (owner : Owner) (svcName : String) (token : SecretToken) :
    AccountService.collectToken env owner svcName "password" ∅ token =
      (∅ : StrMap SecretItem).insert token.label (savedItem env owner svcName token) := by
  have hkeys : AccountService.tokenKeys "password" token.label = (token.label, "password") := by
    rw [AccountService.tokenKeys, if_neg (by decide)]
  rw [AccountService.collectToken, hkeys]
  simp [savedItem]

section Losing

variable {token : SecretToken} (hschema : token.attributes["schema"]? = some "password")

theorem losing_setsOnlySame : SetsOnlySame (env.withAnswers (losingReplies token)) := by
  intro n item store s hne
  have hitem : s ≠ item := fun he => hne (congrArg _ he)
  simp [Env.withAnswers, losingReplies, hitem]

theorem losing_deletesExactly : DeletesExactly (env.withAnswers (losingReplies token)) := by
  intro n attributes store s
  simp [Env.withAnswers, losingReplies, referenceAnswers, List.mem_filter]

theorem losing_tokensLack (h : ∀ key ∈ K, key ∉ token.attributes) :
    TokensLack (env.withAnswers (losingReplies token)) K := by
  intro n plugin params r hr t ht key hkey
  cases hr
  rw [List.mem_singleton] at ht
  subst ht
  exact h key hkey

include hschema

theorem run_saveProtectedParams (env : Env Text) (owner : Owner) {svc : AccountService}
    (hset : svc.accountSet = true) {aResult : AuthResult} (htokens : aResult.tokens = [token]) (w : World Text) :
    ∃ svc' w', (svc.saveProtectedParams (env.withAnswers (losingReplies token)) owner aResult).run w =
        .ok (false, svc') w' ∧
      w'.secrets = w.secrets ++ [(savedItem env owner svc.name token).toRpc] := by
  have hderef : svc.derefAccount owner = (pure owner : M Text Owner) := by
    rw [AccountService.derefAccount, hset, if_pos rfl]
  simp only [AccountService.saveProtectedParams, htokens, List.foldlM, AccountService.collectStep,
    hschema, hderef, pure_bind, bind_assoc, collectToken_password]
  exact ⟨_, _, rfl, rfl⟩

/-- A service is refused because the reply about its token is lost. -/
theorem run_verify_losing (env : Env Text) (owner : Owner) {svc : AccountService}
    {plugin : PluginContainer} (hplugin : svc.plugin = some plugin) (hset : svc.accountSet = true) (w : World Text) :
    ∃ svc' w', (svc.verify (env.withAnswers (losingReplies token)) owner).run w =
        .ok (false, svc') w' ∧
      w'.secrets = w.secrets ++ [(savedItem env owner svc.name token).toRpc] := by
  have hparams : ∃ w₁, (AccountService.verifyParams (env.withAnswers (losingReplies token)) owner
      { svc with errors := [] }).run w =
        .ok (some { verified := true }, { svc with errors := [] }.applyVerification []) w₁ ∧
      w₁.secrets = w.secrets := by
    simp only [AccountService.verifyParams, hplugin, AccountService.derefAccount, hset, if_true]
    exact ⟨_, rfl, rfl⟩
  obtain ⟨w₁, hverify, hw₁⟩ := hparams
  generalize hsvc₁ : ({ svc with errors := [] } : AccountService).applyVerification [] = svc₁ at hverify
  have hlink : svc₁.link = svc.link := hsvc₁ ▸ AccountService.link_applyVerification _ _
  obtain ⟨w₂, hauth⟩ : ∃ w₂, (svc₁.authenticate (env.withAnswers (losingReplies token))
      { verified := true }).run w₁ =
        .ok (some { authenticated := true, tokens := [token] }, svc₁.addErrorList []) w₂ := by
    have hderef : svc₁.derefPlugin.run w₁ = .ok plugin w₁ := by
      rw [AccountService.derefPlugin, plugin_of_link hlink, hplugin]
      rfl
    obtain ⟨_, w₂, hlogs⟩ := (raises_forM (l := [token]) fun token _ => (raises_modify _).bind
      fun _ => raises_forM (l := token.attributes.toList) fun attrib _ => raises_modify _).returns _
    exact ⟨w₂, run_bind_ok.2 ⟨plugin, w₁, hderef, run_bind_ok.2 ⟨_, _, rfl,
      run_bind_ok.2 ⟨(), _, rfl, run_bind_ok.2 ⟨_, w₂, hlogs, rfl⟩⟩⟩⟩⟩
  have hw₂ : w₂.secrets = w₁.secrets :=
    (within_authenticate (F := Frame.eqOn World.secrets) ⟨fun _ _ _ => rfl, fun _ _ => rfl⟩
      _ _).rel_of_ok hauth
  obtain ⟨svc₃, w₃, hsave, hw₃⟩ := run_saveProtectedParams hschema env owner
    (show (svc₁.addErrorList []).accountSet = true from (accountSet_of_link hlink).trans hset)
    (show ({ authenticated := true, tokens := [token] } : AuthResult).tokens = [token] from rfl) w₂
  refine ⟨svc₃, w₃, run_bind_ok.2 ⟨_, w₁, hverify, run_bind_ok.2 ⟨_, w₂, hauth,
    run_bind_ok.2 ⟨_, w₃, hsave, rfl⟩⟩⟩, ?_⟩
  have hname : (svc₁.addErrorList []).name = svc.name := name_of_link hlink
  rw [hw₃, hw₂, hw₁, hname]

/-- Whatever the service, it is refused. -/
theorem run_verify_refused (env : Env Text) (owner : Owner) {svc : AccountService}
    (hset : svc.accountSet = true) (w : World Text) : ∃ svc' w',
      (svc.verify (env.withAnswers (losingReplies token)) owner).run w = .ok (false, svc') w' := by
  cases hplugin : svc.plugin with
  | some plugin =>
    obtain ⟨svc', w', hrun, -⟩ := run_verify_losing hschema env owner hplugin hset w
    exact ⟨svc', w', hrun⟩
  | none =>
    simp only [AccountService.verify, AccountService.verifyParams, hplugin]
    exact ⟨_, _, rfl⟩

theorem run_verifyServices_refused {act : AccountObject}
    (hset : ∀ (name : String) (svc : AccountService), act.services[name]? = some svc →
      svc.accountSet = true) (hne : ∃ name : String, name ∈ act.services) (w : World Text) :
    ∃ act' w', (act.verifyServices (env.withAnswers (losingReplies token))).run w =
      .ok (false, act') w' := by
  have hset' : ∀ kv ∈ act.services.toList, kv.2.accountSet = true := fun kv hkv =>
    hset kv.1 kv.2 (Std.ExtTreeMap.mem_toList_iff_getElem?_eq_some.1 hkv)
  have hreturns : Raises (fun _ => False)
      (act.verifyServices (env.withAnswers (losingReplies token))) := by
    refine raises_foldlM (fun state kv hkv => Raises.bind ?_ fun _ => raises_pure _) _
    intro s e s' hr
    obtain ⟨svc', w', hrun⟩ := run_verify_refused hschema env _ (hset' kv hkv) s
    rw [hrun] at hr
    cases hr
  obtain ⟨⟨b, act'⟩, w', hr⟩ := hreturns.returns w
  have hend := foldlM_ok_induction (fun l state _ => (∀ kv ∈ l, kv.2.accountSet = true) ∧
    (l = act.services.toList ∨ state.1 = false)) ?_ _ ⟨hset', .inl rfl⟩ hr
  · rcases hend.2 with hempty | rfl
    · obtain ⟨name, hname⟩ := hne
      rw [← Std.ExtTreeMap.mem_keys, ← Std.ExtTreeMap.map_fst_toList_eq_keys, ← hempty] at hname
      cases hname
    · exact ⟨act', w', hr⟩
  · rintro kv l state s state' s' ⟨hl, -⟩ hs
    refine ⟨fun kv' hkv' => hl kv' (by simp [hkv']), .inr ?_⟩
    obtain ⟨v, svc', hverify, hb, -⟩ := AccountObject.verifyService_ok hs
    obtain ⟨svc'', w'', hrun⟩ := run_verify_refused hschema env _ (hl kv (by simp)) s
    rw [hrun] at hverify
    cases hverify
    rw [hb, Bool.and_false]

end Losing

/-- Items once stored stay. -/
def keepsSecret (s : RPCSecretItem) : Frame (World Text) where
  rel w w' := s ∈ w.secrets → s ∈ w'.secrets
  refl _ h := h
  trans h₁ h₂ h := h₂ (h₁ h)

theorem quiet_keepsSecret (s : RPCSecretItem) : Quiet (keepsSecret s : Frame (World Text)) where
  record _ _ _ h := h
  log _ _ h := h

/-- The services of an account that all refuse, and the withdrawal after it. -/
theorem run_verify_account_refused {token : SecretToken}
    (hschema : token.attributes["schema"]? = some "password") {act : AccountObject}
    (hreach : ReachesServices env act) (hset : ∀ (name : String) (svc : AccountService),
      act.services[name]? = some svc → svc.accountSet = true)
    (hne : ∃ name : String, name ∈ act.services) (w : World Text) :
    ∃ act' w₁ w', ((AccountObject.prepared (env.withAnswers (losingReplies token)) act).verifyServices
        (env.withAnswers (losingReplies token))).run w = .ok (false, act') w₁ ∧
      (act'.removeAllSecrets (env.withAnswers (losingReplies token))).run w₁ = .ok () w' ∧
      (act.verify (env.withAnswers (losingReplies token))).run w = .ok (false, act') w' := by
  have hset' : ∀ (name : String) (svc : AccountService),
      (AccountObject.prepared (env.withAnswers (losingReplies token)) act).services[name]? = some svc →
      svc.accountSet = true :=
    services_prepared (P := fun svc => svc.accountSet = true)
      (fun _ _ hlink h => (accountSet_of_link hlink).trans h) hset
  have hne' : ∃ name : String,
      name ∈ (AccountObject.prepared (env.withAnswers (losingReplies token)) act).services := by
    obtain ⟨name, hname⟩ := hne
    refine ⟨name, ?_⟩
    rw [Std.ExtTreeMap.mem_iff_isSome_getElem?] at hname ⊢
    rwa [← Option.isSome_map (f := AccountService.link),
      AccountObject.sameLinks_prepared _ act name, Option.isSome_map]
  obtain ⟨act', w₁, hservices⟩ := run_verifyServices_refused hschema hset' hne' w
  have hreturns : Raises (fun _ => False)
      (act'.removeAllSecrets (env.withAnswers (losingReplies token))) := by
    refine raises_forM fun kv hkv => Raises.bind ?_ fun _ => raises_pure _
    have haccount : kv.2.accountSet = true := by
      obtain ⟨-, -, hout⟩ := AccountObject.verifyServices_ok hservices
      obtain ⟨svc, hsvc, hlink, -⟩ :=
        hout kv.1 kv.2 (Std.ExtTreeMap.mem_toList_iff_getElem?_eq_some.1 hkv)
      exact (accountSet_of_link hlink).trans (hset' kv.1 svc hsvc)
    refine Raises.bind ?_ fun account => raises_ite (fun _ => raises_pure _)
      fun _ => (raises_modifyGet _).bind fun _ => raises_pure _
    exact raises_ite (fun _ => raises_pure _) fun h => absurd haccount h
  obtain ⟨_, w', hremove⟩ := hreturns.returns w₁
  refine ⟨act', w₁, w', hservices, hremove, ?_⟩
  have hreach' : ReachesServices (env.withAnswers (losingReplies token)) act := hreach
  rw [AccountObject.verify_of_reaches hreach']
  exact run_bind_ok.2 ⟨(false, act'), w₁, hservices, run_bind_ok.2 ⟨(), w', hremove, rfl⟩⟩

/-- A modification that gets to the services is refused. -/
theorem run_modifyAccount_refused {token : SecretToken}
    (hschema : token.attributes["schema"]? = some "password") {w : World Text} {id : Uuid}
    {act : AccountObject} (hreached : Reached env w id act)
    (hne : ∃ name : String, name ∈ act.services) : ∃ act' w₁ w₂ w₃ w', w.Silent w₁ ∧
      ((AccountObject.prepared (env.withAnswers (losingReplies token))
        { act with id := id }).verifyServices (env.withAnswers (losingReplies token))).run w₁ =
          .ok (false, act') w₂ ∧
      (act'.removeAllSecrets (env.withAnswers (losingReplies token))).run w₂ = .ok () w₃ ∧
      (modifyAccount (env.withAnswers (losingReplies token)) id act).run w = .ok (false, act') w' ∧
      w'.secrets = w₃.secrets := by
  obtain ⟨⟨p, acc, hfind, hread, hwritable⟩, hreach, hset⟩ := hreached
  have hfind' : findParser (env.withAnswers (losingReplies token)) w id false = some p := hfind
  have hread' : p.read (env.withAnswers (losingReplies token)) w id {} = .ok acc := hread
  obtain ⟨oldAct, w₁, hok⟩ := exists_readOk hfind' hread'
  obtain ⟨q, hq⟩ := Option.isSome_iff_exists.1 hwritable
  have hq' : findParser (env.withAnswers (losingReplies token)) w₁ oldAct.id true = some q := by
    rw [findParser_of_files hok.silent.files, hok.id_eq]
    exact hq
  obtain ⟨act', w₂, w₃, hservices, hremove, hverify⟩ :=
    run_verify_account_refused hschema
      (show ReachesServices env { act with id := id } from hreach) hset hne w₁
  refine ⟨act', w₁, w₂, w₃, (w₃.addErrors act'.errors).addErrors ["Account verification failed"],
    hok.silent, hservices, hremove, ?_, rfl⟩
  simp only [modifyAccount]
  refine run_bind_ok.2 ⟨some oldAct, w₁, hok.run_readAccount, run_bind_ok.2 ⟨w₁, w₁, rfl, ?_⟩⟩
  rw [hq']
  exact run_bind_ok.2 ⟨(false, act'), w₃, hverify, rfl⟩

/-! ## Modifications that change the account -/

/-- A secret that the clean-up takes is lost. -/
theorem not_failsSafely_of_takes (hK : "schema" ∉ K) {w : World Text} {id : Uuid}
    {act : AccountObject} (hreached : Reached env w id act) (htakes : TakesSecret env w id act) :
    ¬FailsSafely env K w id act := by
  intro hsafe
  obtain ⟨hnull, s, hs, name, svc, hget, hof⟩ := htakes
  have hname : name ∈ act.services := Std.ExtTreeMap.mem_iff_isSome_getElem?.2 (by rw [hget]; rfl)
  have hlack : ∀ key ∈ K, key ∉ passwordToken.attributes := by
    intro key hkey hmem
    have : "schema" = key := by simpa [passwordToken] using hmem
    exact hK (this ▸ hkey)
  have hdel : DeletesExactly (env.withAnswers (losingReplies passwordToken)) := losing_deletesExactly
  obtain ⟨act', w₁, w₂, w₃, w', -, hservices, hremove, hrun, hw'⟩ :=
    run_modifyAccount_refused (show passwordToken.attributes["schema"]? = some "password" by decide)
      hreached ⟨name, hname⟩
  have hunchanged := hsafe _ losing_setsOnlySame hdel (losing_tokensLack hlack) act' w' hrun
  have hgone := (secrets_of_removeAll hdel
    (show uuidIsNull ({ act with id := id } : AccountObject).id = false by
      simpa [uuidIsNull] using hnull) hservices hremove s).1
    (hw' ▸ (hunchanged.secrets s hof.1).2 hs)
  exact hgone.2 name svc hget hof

/-- The item of a service with a plugin is stored in the end. -/
theorem mem_secrets_of_verifyServices {token : SecretToken}
    (hschema : token.attributes["schema"]? = some "password") {act act' : AccountObject} {b : Bool}
    {w w' : World Text} (hr : (act.verifyServices (env.withAnswers (losingReplies token))).run w =
      .ok (b, act') w') {name : String} {svc : AccountService} {plugin : PluginContainer}
    (hget : act.services[name]? = some svc) (hset : svc.accountSet = true)
    (hplugin : svc.plugin = some plugin) :
    (savedItem env act.owner svc.name token).toRpc ∈ w'.secrets := by
  have hkeeps : ∀ (owner : Owner) (svc' : AccountService),
      Within (keepsSecret (savedItem env act.owner svc.name token).toRpc)
        (svc'.verify (env.withAnswers (losingReplies token)) owner) := fun owner svc' =>
    AccountService.within_verify (K := ∅) (quiet_keepsSecret _).asking
      (losing_tokensLack fun _ hkey => absurd hkey (Set.notMem_empty _)) (fun _ _ _ _ h => h)
      fun _ _ _ h => List.mem_append_left _ h
  obtain ⟨state, s₁, state', s₂, hdetails, -, hturn, hafter⟩ := foldlM_ok_mem
    (fun state : Bool × AccountObject => AccountObject.SameDetails act state.2)
    (fun state _ kv _ => (hkeeps _ kv.2).bind fun _ => within_pure _)
    (fun state hdetails kv _ s state' s' hs => by
      obtain ⟨_, _, -, -, hstep, -⟩ := AccountObject.verifyService_ok hs
      exact hdetails.trans hstep)
    (Std.ExtTreeMap.mem_toList_iff_getElem?_eq_some.2 hget)
    (show AccountObject.SameDetails act act from rfl) hr
  obtain ⟨v, svc', hverify, -⟩ := AccountObject.verifyService_ok hturn
  obtain ⟨svc'', s₂', hrun, hs₂⟩ := run_verify_losing hschema env state.2.owner hplugin hset s₁
  rw [hrun] at hverify
  cases hverify
  refine hafter ?_
  rw [hs₂, hdetails.owner_eq]
  exact List.mem_append_right _ (by simp)

/-- Among infinitely many texts one is not in use. -/
theorem exists_fresh {α : Type} {f : String → α} (hf : Function.Injective f) (l : List α) :
    ∃ t, f t ∉ l := ((List.finite_toSet l).preimage hf.injOn).exists_notMem

theorem savedItem_injective (env : Env Text) (owner : Owner) (svcName : String) (token : SecretToken) :
    Function.Injective fun t =>
      (savedItem env owner svcName { token with secret := t }).toRpc := by
  intro t t' h
  have hsecrets : [("password", t)] = [("password", t')] := congrArg RPCSecretItem.secrets h
  simpa using hsecrets

/-- A token that brings these attributes besides its schema. -/
def tokenFor (service : Option String) (secret : String) : SecretToken where
  label := "password"
  secret := secret
  attributes := match service with
    | some service => ((∅ : StrStrMap).insert "schema" "password").insert "service" service
    | none => (∅ : StrStrMap).insert "schema" "password"

theorem mem_tokenFor {service : Option String} {t key : String}
    (h : key ∈ (tokenFor service t).attributes) :
    key = "schema" ∨ key = "service" ∧ service.isSome := by
  cases service with
  | none =>
    have : "schema" = key := by simpa [tokenFor] using h
    exact .inl this.symm
  | some service =>
    have : "service" = key ∨ "schema" = key := by simpa [tokenFor] using h
    exact this.symm.imp Eq.symm fun h => ⟨h.symm, rfl⟩

theorem schema_tokenFor (service : Option String) (t : String) :
    (tokenFor service t).attributes["schema"]? = some "password" := by
  cases service with
  | none => simp [tokenFor]
  | some service =>
    rw [tokenFor, TreeMap.getElem?_insert_of_ne (by decide), Std.ExtTreeMap.getElem?_insert_self]

theorem service_savedItem (owner : Owner) (svcName stray t : String) :
    (savedItem env owner svcName (tokenFor (some stray) t)).attributes["service"]? = some stray :=
  TreeMap.insertAll_getElem?_of_mem (TreeMap.nodup_keys_toList _)
    (Std.ExtTreeMap.mem_toList_iff_getElem?_eq_some.2 (Std.ExtTreeMap.getElem?_insert_self))

theorem account_savedItem (owner : Owner) (svcName : String) (service : Option String) (t : String) :
    (savedItem env owner svcName (tokenFor service t)).toRpc.attr "account_id" =
      some (env.uuidAsString owner.id) := by
  rw [attr_toRpc]
  refine linked_updateAttributes (K := {"account_id"}) (fun key hkey hmem => ?_)
    ("account_id", env.uuidAsString owner.id) (by simp [linkAttributes]) rfl
  obtain rfl : key = "account_id" := hkey
  rcases mem_tokenFor hmem with h | ⟨h, -⟩
  · exact absurd h (by decide)
  · exact absurd h (by decide)

/-- A secret that the clean-up does not take is left behind. -/
theorem not_failsSafely_of_leaves (hK : "schema" ∉ K) {w : World Text} {id : Uuid}
    {act : AccountObject} (hreached : Reached env w id act) (hleaves : LeavesSecret K id act) :
    ¬FailsSafely env K w id act := by
  intro hsafe
  obtain ⟨⟨name, svc, hget, hplugin⟩, hwhy⟩ := hleaves
  obtain ⟨plugin, hplugin⟩ := Option.isSome_iff_exists.1 hplugin
  obtain ⟨stray, hstray⟩ := exists_fresh Function.injective_id
    (act.services.toList.map fun kv => kv.2.name)
  obtain ⟨service, hservice⟩ : ∃ service : Option String,
      id = Uuid.null ∧ service = none ∨ service = some stray ∧ "service" ∉ K :=
    hwhy.elim (fun h => ⟨none, .inl ⟨h, rfl⟩⟩) fun h => ⟨some stray, .inr ⟨rfl, h⟩⟩
  obtain ⟨t, ht⟩ := exists_fresh (savedItem_injective env { id := id, title := act.title }
    svc.name (tokenFor service "")) w.secrets
  have hlack : ∀ key ∈ K, key ∉ (tokenFor service t).attributes := by
    intro key hkey hmem
    rcases mem_tokenFor hmem with rfl | ⟨rfl, hsome⟩
    · exact hK hkey
    · rcases hservice with ⟨-, rfl⟩ | ⟨-, hnot⟩
      · cases hsome
      · exact hnot hkey
  have hname : name ∈ act.services := Std.ExtTreeMap.mem_iff_isSome_getElem?.2 (by rw [hget]; rfl)
  have hdel : DeletesExactly (env.withAnswers (losingReplies (tokenFor service t))) :=
    losing_deletesExactly
  obtain ⟨act', w₁, w₂, w₃, w', -, hservices, hremove, hrun, hw'⟩ :=
    run_modifyAccount_refused (schema_tokenFor service t) hreached ⟨name, hname⟩
  have hunchanged := hsafe _ losing_setsOnlySame hdel (losing_tokensLack hlack) act' w' hrun
  have hdetails : act'.id = id := congrArg Owner.id ((AccountObject.sameDetails_prepared _).trans
    (AccountObject.verifyServices_ok hservices).1).owner_eq
  have hstored : (savedItem env { id := id, title := act.title } svc.name
      (tokenFor service t)).toRpc ∈ w₂.secrets := by
    have hlinks := AccountObject.sameLinks_prepared
      (env.withAnswers (losingReplies (tokenFor service t))) { act with id := id } name
    rw [show ({ act with id := id } : AccountObject).services[name]? = some svc from hget,
      Option.map_some] at hlinks
    obtain ⟨svc₁, hsvc₁, hlink⟩ := Option.map_eq_some_iff.1 hlinks
    have hmem := mem_secrets_of_verifyServices (schema_tokenFor service t) hservices hsvc₁
      ((accountSet_of_link hlink).trans (hreached.accountSet name svc hget))
      ((plugin_of_link hlink).trans hplugin)
    rwa [name_of_link hlink, (AccountObject.sameDetails_prepared _).owner_eq] at hmem
  have hstays : (savedItem env { id := id, title := act.title } svc.name
      (tokenFor service t)).toRpc ∈ w₃.secrets := by
    by_cases hnull : id = Uuid.null
    · refine (AccountObject.within_removeAllSecrets (F := keepsSecret _)
        fun name svc _ hid => ?_).rel_of_ok hremove hstored
      rw [hdetails, hnull] at hid
      cases hid
    · obtain ⟨rfl, -⟩ := hservice.resolve_left fun h => hnull h.1
      refine (secrets_of_removeAll hdel
        (show uuidIsNull ({ act with id := id } : AccountObject).id = false by
          simpa [uuidIsNull] using hnull) hservices hremove _).2 ⟨hstored, ?_⟩
      intro name' svc' hget' hof
      have hsvc := hof.2
      rw [attr_toRpc, service_savedItem, Option.some.injEq] at hsvc
      exact hstray (List.mem_map.2 ⟨(name', svc'),
        Std.ExtTreeMap.mem_toList_iff_getElem?_eq_some.2 hget', hsvc.symm⟩)
  refine ht ((hunchanged.secrets _ (account_savedItem _ _ _ _)).1 ?_)
  rw [hw']
  exact hstays

/-- Whatever the answers from outside, a modification that returns false leaves the account
unchanged if and only if it does not get to the services, or the clean-up after it takes no secret
that the account had and leaves none that a plugin's token became. -/
theorem failsSafely_iff (env : Env Text) (K : Set String) (hK : "schema" ∉ K) (w : World Text)
    (id : Uuid) (act : AccountObject) : FailsSafely env K w id act ↔
      ¬(Reached env w id act ∧ (TakesSecret env w id act ∨ LeavesSecret K id act)) := by
  constructor
  · rintro hsafe ⟨hreached, htakes | hleaves⟩
    · exact not_failsSafely_of_takes hK hreached htakes hsafe
    · exact not_failsSafely_of_leaves hK hreached hleaves hsafe
  · intro hnot answers hset hdel hlack act' w' hr
    have hsafe : Reached env w id act → ¬TakesSecret env w id act ∧ ¬LeavesSecret K id act :=
      fun hreached => not_or.1 fun h => hnot ⟨hreached, h⟩
    obtain ⟨hfiles, hstatus, hsecrets⟩ := unchanged_of_failed hset hdel hlack hr
      fun h => hsafe ⟨h.readable, h.prepared, h.accountSet⟩
    exact ⟨hfiles, hstatus, hsecrets⟩

/-- A directory with one account and one secret of its service. -/
def mailWorld : World YamlText :=
  { final ((AccountParser.write referenceEnv { path := "/accounts", readonly := false }
      AccountParser.mailAccount).run { files := fun _ => ∅ }) with
    secrets := [{
      label := "Mail->mail [password]"
      attributes := [("account_id", referenceEnv.uuidAsString 7), ("schema", "password"),
        ("service", "mail")]
      secrets := [("password", "secret")] }] }

/-- As long as the account has no secrets, a modification can fail without harm. -/
theorem failsSafely_iff_mail : FailsSafely referenceEnv {"service"} { mailWorld with secrets := [] } 7
    (requestedMail referenceEnv) := by
  refine (failsSafely_iff referenceEnv {"service"} (by decide) { mailWorld with secrets := [] } 7
    (requestedMail referenceEnv)).2 ?_
  rintro ⟨-, ⟨-, s, hs, -⟩ | ⟨-, hnull | hservice⟩⟩
  · cases hs
  · exact absurd hnull (by decide)
  · exact hservice rfl

/-- The reference service with a plugin that refuses every service. -/
def refusingEnv : Env YamlText :=
  { referenceEnv with verify := fun _ _ _ => .returned { verified := false } }

/-- A refused modification takes the secret that the account had before. -/
theorem refusal_loses_secrets : ¬∀ (env : Env YamlText) (w w' : World YamlText) (id : Uuid)
    (act : AccountObject), SetsOnlySame env → DeletesExactly env →
      TokensLack env {"account_id", "service"} → Decoded env act → Stored env w id →
      ((Op.modify id act).run env).run w = .ok false w' → Unchanged env id w w' := by
  intro h
  have hrun : ((Op.modify 7 (requestedMail refusingEnv)).run refusingEnv).run mailWorld =
      .ok false _ := eq_ok_of_result? (by decide +kernel)
  have hunchanged := h refusingEnv mailWorld _ 7 (requestedMail refusingEnv)
    reference_setsOnlySame reference_deletesExactly (reference_tokensLack _)
    (decoded_requestedMail refusingEnv.toAnswers) (by decide +kernel) hrun
  have hgone : (final (((Op.modify 7 (requestedMail refusingEnv)).run refusingEnv).run
      mailWorld)).secrets = [] := by decide +kernel
  have hstays := hunchanged.secrets
  rw [hgone] at hstays
  have hmem := (hstays (mailWorld.secrets.getD 0 ⟨"", [], []⟩) (by decide +kernel)).2
    (by decide +kernel)
  cases hmem

end PxAccounts
