import PxAccounts.Proof.WorldSteps
import PxAccounts.Proof.ObjectRun
import PxAccounts.Model.Reference

/-!
# The secret service

What the service relies on when it sets and deletes secrets, and what its own requests say about the
attributes of an item.
-/

namespace PxAccounts

open Effect

variable {Text : Type} {env : Env Text}

/-! ## The laws -/

/-- `deleteSecret` removes exactly the items that carry all given attributes. -/
def DeletesExactly (env : Env Text) : Prop :=
  ∀ n attributes store s, s ∈ (env.deleteSecret n attributes store).2 ↔
    s ∈ store ∧ ¬s.Carries attributes

/-- `setSecret` adds or replaces only items with the same attributes. -/
def SetsOnlySame (env : Env Text) : Prop :=
  ∀ n item store s, s.attributes ≠ item.attributes →
    (s ∈ (env.setSecret n item store).2 ↔ s ∈ store)

/-- `setSecret` stores the item, or refuses and stores nothing. -/
structure StoresOrRefuses (env : Env Text) : Prop where
  stores : ∀ n item store,
    (SecretManager.succeeded (env.setSecret n item store).1).1 = true →
      item ∈ (env.setSecret n item store).2 ∧
        ∀ s ∈ (env.setSecret n item store).2, s ∈ store ∨ s = item
  refuses : ∀ n item store,
    (SecretManager.succeeded (env.setSecret n item store).1).1 = false →
      (env.setSecret n item store).2 = store

theorem StoresOrRefuses.atMost (h : StoresOrRefuses env) (n : ℕ) (item : RPCSecretItem)
    (store : List RPCSecretItem) :
    ∀ s ∈ (env.setSecret n item store).2, s ∈ store ∨ s = item := by
  by_cases hsucc : (SecretManager.succeeded (env.setSecret n item store).1).1 = true
  · exact (h.stores n item store hsucc).2
  · rw [h.refuses n item store (by simpa using hsucc)]
    exact fun s hs => .inl hs

/-! ## The attributes in a request -/

theorem attr_toRpc (item : SecretItem) (key : String) :
    item.toRpc.attr key = item.attributes[key]? :=
  TreeMap.lookup_toList item.attributes key

/-- The request about all secrets of an account. -/
theorem carries_account (s : RPCSecretItem) (strId : String) :
    s.Carries ((∅ : StrStrMap).insert "account_id" strId).toList ↔
      s.attr "account_id" = some strId := by
  rw [RPCSecretItem.Carries, TreeMap.forall_mem_toList]
  constructor
  · exact fun h => h "account_id" strId (by simp)
  · intro h key val hget
    by_cases hk : "account_id" = key
    · subst hk
      rw [Std.ExtTreeMap.getElem?_insert_self] at hget
      rw [h, hget]
    · rw [TreeMap.getElem?_insert_of_ne hk] at hget
      simp at hget

/-- The request about the secrets of one service of an account. -/
theorem carries_service (s : RPCSecretItem) (strId svcName : String) :
    s.Carries (((∅ : StrStrMap).insert "account_id" strId).insert "service" svcName).toList ↔
      s.attr "account_id" = some strId ∧ s.attr "service" = some svcName := by
  rw [RPCSecretItem.Carries, TreeMap.forall_mem_toList]
  constructor
  · refine fun h => ⟨h "account_id" strId ?_, h "service" svcName (by simp)⟩
    rw [TreeMap.getElem?_insert_of_ne (by decide), Std.ExtTreeMap.getElem?_insert_self]
  · rintro ⟨hid, hsvc⟩ key val hget
    by_cases hk : "service" = key
    · subst hk
      rw [Std.ExtTreeMap.getElem?_insert_self] at hget
      rw [hsvc, hget]
    · rw [TreeMap.getElem?_insert_of_ne hk] at hget
      by_cases hk' : "account_id" = key
      · subst hk'
        rw [Std.ExtTreeMap.getElem?_insert_self] at hget
        rw [hid, hget]
      · rw [TreeMap.getElem?_insert_of_ne hk'] at hget
        simp at hget

/-! ## Removals -/

/-- The item belongs to the service of the account. -/
def RPCSecretItem.Of (env : Env Text) (id : Uuid) (svcName : String) (s : RPCSecretItem) : Prop :=
  s.attr "account_id" = some (env.uuidAsString id) ∧ s.attr "service" = some svcName

theorem removeService_ok (hdel : DeletesExactly env) {id : Uuid} {svcName : String} {b : Bool}
    {w w' : World Text} (hr : (SecretManager.removeService env id svcName).run w = .ok b w') :
    ∀ s, s ∈ w'.secrets ↔ s ∈ w.secrets ∧ ¬s.Of env id svcName := by
  simp only [SecretManager.removeService, SecretManager.deleteSecret, Env.callDeleteSecret,
    run_bind_ok, run_modifyGet_ok, run_pure_ok] at hr
  obtain ⟨reply, w₁, ⟨-, rfl⟩, -, rfl⟩ := hr
  intro s
  rw [RPCSecretItem.Of, ← carries_service]
  exact hdel _ _ _ _

theorem removeAccount_ok (hdel : DeletesExactly env) {id : Uuid} {b : Bool} {w w' : World Text}
    (hr : (SecretManager.removeAccount env id).run w = .ok b w') :
    ∀ s, s ∈ w'.secrets ↔ s ∈ w.secrets ∧ s.attr "account_id" ≠ some (env.uuidAsString id) := by
  simp only [SecretManager.removeAccount, SecretManager.deleteSecret, Env.callDeleteSecret,
    run_bind_ok, run_modifyGet_ok, run_pure_ok] at hr
  obtain ⟨reply, w₁, ⟨-, rfl⟩, -, rfl⟩ := hr
  intro s
  rw [Ne, ← carries_account]
  exact hdel _ _ _ _

theorem removeSecrets_ok (hdel : DeletesExactly env) {owner : Owner} {svc : AccountService}
    {b : Bool} {w w' : World Text} (hid : uuidIsNull owner.id = false)
    (hr : (svc.removeSecrets env owner).run w = .ok b w') :
    ∀ s, s ∈ w'.secrets ↔ s ∈ w.secrets ∧ ¬s.Of env owner.id svc.name := by
  simp only [AccountService.removeSecrets] at hr
  obtain ⟨account, w₁, hderef, hr⟩ := run_bind_ok.1 hr
  obtain ⟨-, rfl, rfl⟩ := AccountService.derefAccount_ok hderef
  rw [Owner.isIdSet, hid, if_neg (by decide)] at hr
  exact removeService_ok hdel hr

/-- A loop of which every turn removes some items removes all of them. -/
theorem forM_removes {α : Type} {f : α → M Text Unit} {Q : α → RPCSecretItem → Prop}
    (hf : ∀ a w w', (f a).run w = .ok () w' → ∀ s, s ∈ w'.secrets ↔ s ∈ w.secrets ∧ ¬Q a s)
    (l : List α) {w w' : World Text} (hr : (forM l f).run w = .ok () w') :
    ∀ s, s ∈ w'.secrets ↔ s ∈ w.secrets ∧ ∀ a ∈ l, ¬Q a s := by
  induction l generalizing w with
  | nil =>
    obtain ⟨-, rfl⟩ := run_pure_ok.1 hr
    simp
  | cons a l ih =>
    rw [List.forM_cons, run_bind_ok] at hr
    obtain ⟨_, w₁, ha, hl⟩ := hr
    intro s
    rw [ih hl s, hf a w w₁ ha s, and_assoc, List.forall_mem_cons]

theorem removeAllSecrets_ok (hdel : DeletesExactly env) {act : AccountObject} {w w' : World Text}
    (hid : uuidIsNull act.id = false) (hr : (act.removeAllSecrets env).run w = .ok () w') :
    ∀ s, s ∈ w'.secrets ↔ s ∈ w.secrets ∧
      ∀ kv ∈ act.services.toList, ¬s.Of env act.id kv.2.name := by
  refine forM_removes (fun kv w w' hkv => ?_) _ hr
  obtain ⟨b, w₁, hremove, hpure⟩ := run_bind_ok.1 hkv
  obtain ⟨-, rfl⟩ := run_pure_ok.1 hpure
  exact removeSecrets_ok hdel hid hremove

/-- The clean-up removes the secrets of the services that the new account lacks. -/
theorem cleanup_ok (hdel : DeletesExactly env) {oldAct newAccount : AccountObject} {b : Bool}
    {w w' : World Text} (hid : uuidIsNull oldAct.id = false)
    (hr : (oldAct.cleanup env newAccount).run w = .ok b w') :
    ∀ s, s ∈ w'.secrets ↔ s ∈ w.secrets ∧ ∀ kv ∈ oldAct.services.toList,
      ¬(kv.1 ∉ newAccount.services ∧ s.Of env oldAct.id kv.2.name) := by
  simp only [AccountObject.cleanup] at hr
  obtain ⟨_, w₁, hloop, hpure⟩ := run_bind_ok.1 hr
  obtain ⟨-, rfl⟩ := run_pure_ok.1 hpure
  refine forM_removes (fun kv w w' hkv => ?_) _ hloop
  simp only [AccountObject.cleanupService] at hkv
  by_cases hmem : kv.1 ∈ newAccount.services
  · have hhas : newAccount.hasService kv.1 = true := Std.ExtTreeMap.mem_iff_contains.1 hmem
    rw [hhas, if_neg (by simp)] at hkv
    obtain ⟨-, rfl⟩ := run_pure_ok.1 hkv
    simp [hmem]
  · have hhas : newAccount.hasService kv.1 = false := by
      rw [AccountObject.hasService, ← Bool.not_eq_true, ← Std.ExtTreeMap.mem_iff_contains]
      exact hmem
    rw [hhas, if_pos (by simp)] at hkv
    obtain ⟨b, w₁, hremove, hpure⟩ := run_bind_ok.1 hkv
    obtain ⟨-, rfl⟩ := run_pure_ok.1 hpure
    simp only [hmem, not_false_eq_true, true_and]
    exact removeSecrets_ok hdel hid hremove

/-- A removal that went through has removed the secrets of the account. -/
theorem removal_ok (hdel : DeletesExactly env) {act act' : AccountObject} {b : Bool}
    {w w' : World Text} (hr : (act.performAccountRemoval env).run w = .ok (b, act') w') :
    ∀ s ∈ w'.secrets, s ∈ w.secrets ∧
      (b = true → s.attr "account_id" ≠ some (env.uuidAsString act.id)) := by
  simp only [AccountObject.performAccountRemoval] at hr
  obtain ⟨r, w₁, hloop, hr⟩ := run_bind_ok.1 hr
  have hsame : w₁.secrets = w.secrets :=
    (AccountObject.within_removeServices (F := Frame.eqOn World.secrets)
      (fun _ _ _ => rfl) _).rel_of_ok hloop
  cases r with
  | some svc =>
    obtain ⟨he, rfl⟩ := run_pure_ok.1 hr
    cases he
    rw [hsame]
    exact fun s hs => ⟨hs, fun hb => by cases hb⟩
  | none =>
    obtain ⟨removed, w₂, hremove, hr⟩ := run_bind_ok.1 hr
    have hw₂ : w₂ = w' := by
      split at hr <;> exact (run_pure_ok.1 hr).2
    intro s hs
    rw [← hw₂, removeAccount_ok hdel hremove, hsame] at hs
    exact ⟨hs.1, fun _ => hs.2⟩

/-! ## What verification adds -/

/-- At most items with `P` came to the secrets. -/
def addsOnly (P : RPCSecretItem → Prop) : Frame (World Text) where
  rel w w' := ∀ s ∈ w'.secrets, s ∈ w.secrets ∨ P s
  refl _ _ h := .inl h
  trans h₁ h₂ s hs := (h₂ s hs).elim (h₁ s) .inr

theorem quiet_addsOnly (P : RPCSecretItem → Prop) : Quiet (addsOnly P : Frame (World Text)) where
  record _ _ _ _ h := .inl h
  log _ _ _ h := .inl h

theorem within_removeService_addsOnly (hdel : DeletesExactly env) (P : RPCSecretItem → Prop)
    (id : Uuid) (svcName : String) :
    Within (addsOnly P) (SecretManager.removeService env id svcName) := by
  have hcall : Within (addsOnly P) (env.callDeleteSecret
      (((∅ : StrStrMap).insert "account_id" (env.uuidAsString id)).insert "service" svcName).toList) :=
    fun w s hs => .inl ((hdel _ _ _ _).1 hs).1
  exact hcall.bind fun _ => within_pure _

/-- A verification adds only secrets of the services of the account. -/
theorem within_verify_addsOnly (hset : StoresOrRefuses env) (hdel : DeletesExactly env)
    (hlack : TokensLack env {"account_id", "service"}) (act : AccountObject) :
    Within (addsOnly fun s => ∃ kv ∈ act.services.toList, s.Of env act.id kv.2.name)
      (act.verify env) := by
  refine AccountObject.within_verify (quiet_addsOnly _).asking hlack (fun _ _ _ _ _ h => .inl h)
    (fun name svc hget item hlinked w s hs => ?_)
    fun _ svc _ _ => within_removeService_addsOnly hdel _ _ _
  rcases hset.atMost _ _ _ s hs with hold | rfl
  · exact .inl hold
  · refine .inr ⟨(name, svc), Std.ExtTreeMap.mem_toList_iff_getElem?_eq_some.2 hget, ?_, ?_⟩
    · rw [attr_toRpc]
      exact hlinked ("account_id", env.uuidAsString act.id) (by simp [linkAttributes]) (by simp)
    · rw [attr_toRpc]
      exact hlinked ("service", svc.name) (by simp [linkAttributes]) (by simp)

/-! ## The reference service -/

theorem reference_deletesExactly : DeletesExactly referenceEnv := by
  intro n attributes store s
  simp [referenceEnv, referenceAnswers, List.mem_filter]

theorem reference_setsOnlySame : SetsOnlySame referenceEnv := by
  intro n item store s hne
  have hitem : s ≠ item := fun he => hne (congrArg _ he)
  simp [referenceEnv, referenceAnswers, List.mem_filter, hne, hitem]

theorem reference_storesOrRefuses : StoresOrRefuses referenceEnv where
  stores n item store _ := by
    simp only [referenceEnv, referenceAnswers, List.mem_append, List.mem_filter,
      List.mem_singleton, or_true, true_and]
    exact fun s hs => hs.imp_left fun h => h.1
  refuses n item store h := by cases h

theorem reference_tokensLack (K : Set String) : TokensLack referenceEnv K := by
  intro n plugin params r hr t ht
  cases hr
  cases ht

/-- A token that becomes a secret of the schema `password`. -/
def passwordToken : SecretToken where
  label := "password"
  secret := "secret"
  attributes := (∅ : StrStrMap).insert "schema" "password"

/-- The reference service, where every authentication gives the token. -/
def tokenEnv : Env YamlText :=
  { referenceEnv with
    authenticate := fun _ _ _ => .returned { authenticated := true, tokens := [passwordToken] } }

theorem tokenEnv_tokensLack : TokensLack tokenEnv {"account_id", "service"} := by
  intro n plugin params r hr t ht key hkey
  cases hr
  rw [List.mem_singleton] at ht
  subst ht
  rcases hkey with rfl | rfl <;> decide

end PxAccounts
