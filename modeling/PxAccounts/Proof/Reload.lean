import PxAccounts.Proof.SecretSearch

/-!
# Saved secrets loaded into blank parameters

Every saved secret of the service is assigned to a blank parameter in turn, so the last one decides.
The order in which the secret service returns them does not matter exactly when they all supply the
same value.
-/

namespace PxAccounts

open Effect
open AccountService (matchSecret loadSecret)

variable {Text : Type} {env : Env Text} {svcName : String} {secrets : List SecretItemPtr}

/-- The same service, where every search finds these items. -/
def Env.finding (env : Env Text) (items : List RPCSecretItem) : Env Text :=
  { env with search := fun _ _ _ => .result items }

/-- What a saved secret supplies for a parameter of the service, if it is a password at all. -/
def supplied (svcName key : String) (secret : SecretItemPtr) : Option (Except Exn String) :=
  if secret.item.attributes["service"]? = some svcName then
    if secret.item.is "dual_password" then some (secret.item.getMatchingPassword key)
    else if secret.item.is "password" then some (.ok secret.item.password)
    else none
  else none

/-- In whatever order the items are found, the parameters come out the same, and no parameter for
which a secret supplies a value ends up empty. -/
def ReloadsInAnyOrder (env : Env Text) (owner : Owner) (svc : AccountService)
    (vResult : VerifyResult) (items : List RPCSecretItem) (w : World Text) : Prop :=
  ∃ params, ∀ order : List RPCSecretItem, order.Perm items →
    (∃ svc' w', (svc.verifyParams (env.finding order) owner).run w =
      .ok (some { vResult with params }, svc') w') ∧
    ∀ param ∈ params, param.isProtected = true →
      ∀ secret ∈ order.filterMap SecretManager.decodeItem, ∀ val,
        supplied svc.name param.key secret = some (.ok val) → val ≠ "" → param.val ≠ ""

/-- All saved secrets that supply a value for a blank protected parameter supply the same. -/
def SuppliesAgree (svcName : String) (params : ServiceParamList) (secrets : List SecretItemPtr) :
    Prop :=
  ∀ param ∈ params, param.isProtected = true → param.val = "" → ∃ val, ∀ secret ∈ secrets,
    ∀ result, supplied svcName param.key secret = some result → result = .ok val

/-! ## One parameter -/

/-- What the parameter becomes. -/
def reloaded (svcName : String) (secrets : List SecretItemPtr) (param : ServiceParam) :
    Except Exn ServiceParam :=
  if param.isProtected && param.val.isEmpty then
    (secrets.foldlM (matchSecret svcName param.key) param.val).map fun val => { param with val }
  else .ok param

theorem matchSecret_eq {secret : SecretItemPtr} (h : secret.Typed) (key val : String) :
    matchSecret svcName key val secret = (supplied svcName key secret).getD (.ok val) := by
  rw [matchSecret, supplied]
  by_cases hservice : secret.item.attributes["service"]? = some svcName
  · rw [if_pos hservice, if_pos (beq_iff_eq.2 hservice)]
    by_cases hdual : secret.item.is "dual_password" = true
    · rw [if_pos hdual, if_pos hdual,
        as_of_typed h (show secret.item.is SecretClass.dualPassword.schema = true from hdual)]
      rfl
    · rw [if_neg hdual, if_neg hdual]
      by_cases hpassword : secret.item.is "password" = true
      · rw [if_pos hpassword, if_pos hpassword,
          as_of_typed h (show secret.item.is SecretClass.password.schema = true from hpassword)]
        rfl
      · rw [if_neg hpassword, if_neg hpassword]
        rfl
  · rw [if_neg hservice, if_neg (by simpa using hservice)]
    rfl

theorem loadSecret_ok_iff {param q : ServiceParam} {w : World Text} :
    (∃ w', (loadSecret svcName secrets param).run w = .ok q w') ↔
      reloaded svcName secrets param = .ok q := by
  rw [loadSecret, reloaded]
  by_cases hblank : (param.isProtected && param.val.isEmpty) = true
  · rw [if_pos hblank, if_pos hblank]
    cases secrets.foldlM (matchSecret svcName param.key) param.val with
    | error e =>
      refine iff_of_false ?_ fun h => by cases h
      rintro ⟨w', h⟩
      cases h
    | ok val =>
      dsimp only
      constructor
      · rintro ⟨w', h⟩
        split at h <;> cases h <;> rfl
      · intro h
        cases h
        split <;> exact ⟨_, rfl⟩
  · rw [if_neg hblank, if_neg hblank]
    constructor
    · rintro ⟨w', h⟩
      cases h
      rfl
    · intro h
      cases h
      exact ⟨w, rfl⟩

theorem mapM_loadSecret_ok_iff {ps qs : ServiceParamList} {w : World Text} :
    (∃ w', (ps.mapM (loadSecret svcName secrets)).run w = .ok qs w') ↔
      ps.mapM (reloaded svcName secrets) = .ok qs := by
  induction ps generalizing qs w with
  | nil => exact ⟨fun ⟨w', h⟩ => by cases h; rfl, fun h => by cases h; exact ⟨w, rfl⟩⟩
  | cons p ps ih =>
    simp only [List.mapM_cons, run_bind_ok, run_pure_ok, except_bind_ok]
    constructor
    · rintro ⟨w', q, w₁, hq, qs', w₂, hqs, rfl, rfl⟩
      exact ⟨q, loadSecret_ok_iff.1 ⟨w₁, hq⟩, qs', ih.1 ⟨w₂, hqs⟩, rfl⟩
    · rintro ⟨q, hq, qs', hqs, he⟩
      cases he
      obtain ⟨w₁, hrun⟩ := loadSecret_ok_iff.2 hq
      obtain ⟨w₂, hrest⟩ := ih.2 hqs
      exact ⟨w₂, q, w₁, hrun, qs', w₂, hrest, rfl, rfl⟩

/-! ## All parameters -/

section

variable {owner : Owner} {svc : AccountService} {plugin : PluginContainer} {vResult : VerifyResult}
  {w : World Text} (hplugin : svc.plugin = some plugin) (haccount : svc.accountSet = true)
  (hverify : env.verify w.tick plugin svc.params = .returned vResult)
  (hverified : vResult.verified = true)
include hplugin haccount hverify hverified

/-- The parameters are those of the plugin, with the secrets found by the search. -/
theorem verifyParams_iff {params : ServiceParamList} :
    (∃ svc' w', (svc.verifyParams env owner).run w = .ok (some { vResult with params }, svc') w') ↔
      vResult.params.mapM (reloaded svc.name
        ((env.search (w.tick + 1) ((∅ : StrStrMap).insert "account_id"
          (env.uuidAsString owner.id)).toList w.secrets).items.filterMap
            SecretManager.decodeItem)) =
        .ok params := by
  have hask : (plugin.verify env svc.params).run w =
      .ok vResult (w.record (.verify plugin.title svc.params (.returned vResult))) := by
    rw [PluginContainer.verify, EStateM.run_bind]
    have hcall : (env.callVerify plugin svc.params).run w = .ok (.returned vResult)
        (w.record (.verify plugin.title svc.params (.returned vResult))) := by
      rw [← hverify]
      rfl
    rw [hcall]
    rfl
  have hderef : (svc.derefAccount owner : M Text Owner) = pure owner := if_pos haccount
  have htick :
      (w.record (.verify plugin.title svc.params (.returned vResult))).tick = w.tick + 1 := by
    simp [World.record, World.tick]
  rw [← htick]
  constructor
  · rintro ⟨svc', w', hr⟩
    simp only [AccountService.verifyParams, hplugin, hderef] at hr
    obtain ⟨r, w₁, hr₁, hr⟩ := run_bind_ok.1 hr
    rw [hask] at hr₁
    cases hr₁
    rw [if_neg (by simp [hverified])] at hr
    obtain ⟨account, w₂, haccount', hr⟩ := run_bind_ok.1 hr
    cases haccount'
    obtain ⟨secrets, w₃, hsecrets, hr⟩ := run_bind_ok.1 hr
    obtain ⟨loaded, w₄, hload, hr⟩ := run_bind_ok.1 hr
    obtain ⟨_, w₅, -, hr⟩ := run_bind_ok.1 hr
    obtain ⟨_, w₆, -, hr⟩ := run_bind_ok.1 hr
    cases hr
    have hfound := search_ok hsecrets
    rw [← mapM_loadSecret_ok_iff]
    exact ⟨w₄, hfound ▸ hload⟩
  · intro hload
    obtain ⟨secrets, w₃, hsecrets⟩ := (raises_search env ((∅ : StrStrMap).insert "account_id"
      (env.uuidAsString owner.id))).returns
        (w.record (.verify plugin.title svc.params (.returned vResult)))
    have hfound := search_ok hsecrets
    rw [World.secrets_record] at hfound
    rw [← hfound] at hload
    obtain ⟨w₄, hloaded⟩ := mapM_loadSecret_ok_iff.2 hload
    have hlogs : ∀ level parts, Raises (fun _ => False) (glog level parts : M Text Unit) :=
      fun _ _ => raises_modify _
    obtain ⟨_, w₅, hlog⟩ := (hlogs .inf ["parameters are verified:"]).returns w₄
    obtain ⟨_, w₆, hparams⟩ := (raises_forM (l := params) fun param _ => hlogs .inf ["\t",
      param.key, " : ", param.val, if param.isProtected then " - PROTECTED" else "",
      if param.isRequired then " - REQUIRED" else ""]).returns w₅
    refine ⟨svc.applyVerification params, w₆, ?_⟩
    simp only [AccountService.verifyParams, hplugin, hderef]
    refine run_bind_ok.2 ⟨vResult, _, hask, ?_⟩
    rw [if_neg (by simp [hverified])]
    exact run_bind_ok.2 ⟨owner, _, rfl, run_bind_ok.2 ⟨secrets, w₃, hsecrets, run_bind_ok.2
      ⟨params, w₄, hloaded, run_bind_ok.2 ⟨_, w₅, hlog, run_bind_ok.2 ⟨_, w₆, hparams, rfl⟩⟩⟩⟩⟩

end

/-! ## The order of the secrets -/

/-- A turn of the loop over the secrets decides what the parameter becomes. -/
theorem reloaded_append_singleton {secret : SecretItemPtr} (h : secret.Typed)
    {param q : ServiceParam}
    (hblank : param.isProtected = true ∧ param.val = "")
    (hr : reloaded svcName (secrets ++ [secret]) param = .ok q) {result : Except Exn String}
    (hsupplied : supplied svcName param.key secret = some result) : result = .ok q.val := by
  rw [reloaded, if_pos (by rw [hblank.1, hblank.2]; rfl), List.foldlM_append] at hr
  cases hfold : secrets.foldlM (matchSecret svcName param.key) param.val with
  | error e =>
    rw [hfold] at hr
    cases hr
  | ok val =>
    have hlast : [secret].foldlM (matchSecret svcName param.key) val = result := by
      rw [List.foldlM_cons, matchSecret_eq h, hsupplied, Option.getD_some]
      cases result <;> rfl
    rw [hfold] at hr
    change ([secret].foldlM (matchSecret svcName param.key) val).map _ = _ at hr
    rw [hlast] at hr
    cases result with
    | error e => cases hr
    | ok val' =>
      cases hr
      rfl

/-- Secrets that agree decide the parameter together. -/
theorem reloaded_of_agree (htyped : ∀ secret ∈ secrets, secret.Typed) {param : ServiceParam}
    (hblank : param.isProtected = true ∧ param.val = "") {val : String}
    (hagree : ∀ secret ∈ secrets, ∀ result, supplied svcName param.key secret = some result →
      result = .ok val) :
    reloaded svcName secrets param = .ok { param with
      val := if ∃ secret ∈ secrets, (supplied svcName param.key secret).isSome then val
        else "" } := by
  have hfold : ∀ (l : List SecretItemPtr), l ⊆ secrets → ∀ start,
      l.foldlM (matchSecret svcName param.key) start =
        .ok (if ∃ secret ∈ l, (supplied svcName param.key secret).isSome then val else start) := by
    intro l
    induction l with
    | nil => exact fun _ start => by simp; rfl
    | cons secret l ih =>
      intro hsub start
      obtain ⟨hmem, hrest⟩ := List.cons_subset.1 hsub
      rw [List.foldlM_cons, matchSecret_eq (htyped secret hmem)]
      cases hsupplied : supplied svcName param.key secret with
      | none =>
        refine (ih hrest start).trans ?_
        simp [hsupplied]
      | some result =>
        rw [Option.getD_some, hagree secret hmem result hsupplied]
        refine (ih hrest val).trans ?_
        simp [hsupplied]
  rw [reloaded, if_pos (by rw [hblank.1, hblank.2]; rfl), hfold secrets (List.Subset.refl _),
    hblank.2]
  rfl

/-- What a parameter of the plugin becomes, whatever the order. -/
def ReloadedAs (svcName : String) (items : List RPCSecretItem) (param q : ServiceParam) : Prop :=
  ∀ order : List RPCSecretItem, order.Perm items →
    reloaded svcName (order.filterMap SecretManager.decodeItem) param = .ok q ∧
    (q.isProtected = true → ∀ secret ∈ order.filterMap SecretManager.decodeItem, ∀ val,
      supplied svcName q.key secret = some (.ok val) → val ≠ "" → q.val ≠ "")

theorem exists_reloadedAs {items : List RPCSecretItem} {param : ServiceParam}
    (h : param.isProtected = true → param.val = "" →
      ∃ val, ∀ secret ∈ items.filterMap SecretManager.decodeItem, ∀ result,
        supplied svcName param.key secret = some result → result = .ok val) :
    ∃ q, ReloadedAs svcName items param q := by
  by_cases hblank : param.isProtected = true ∧ param.val = ""
  · obtain ⟨val, hagree⟩ := h hblank.1 hblank.2
    have hmem : ∀ order : List RPCSecretItem, order.Perm items → ∀ secret,
        secret ∈ order.filterMap SecretManager.decodeItem ↔
          secret ∈ items.filterMap SecretManager.decodeItem :=
      fun order horder secret => (horder.filterMap _).mem_iff
    refine ⟨{ param with val := if ∃ secret ∈ items.filterMap SecretManager.decodeItem,
      (supplied svcName param.key secret).isSome then val else "" }, fun order horder => ⟨?_, ?_⟩⟩
    · have htyped : ∀ secret ∈ order.filterMap SecretManager.decodeItem, secret.Typed := by
        intro secret hsecret
        obtain ⟨item, -, hdecode⟩ := List.mem_filterMap.1 hsecret
        exact typed_of_decodeItem hdecode
      rw [reloaded_of_agree htyped hblank fun secret hsecret =>
        hagree secret ((hmem order horder secret).1 hsecret)]
      simp only [hmem order horder]
    · intro _ secret hsecret val' hsupplied hne
      have hsecret' := (hmem order horder secret).1 hsecret
      have hval : val' = val := Except.ok.inj (hagree secret hsecret' _ hsupplied)
      dsimp only
      rw [if_pos ⟨secret, hsecret', by rw [hsupplied]; rfl⟩, ← hval]
      exact hne
  · refine ⟨param, fun order _ => ⟨?_, fun hprotected _ _ _ _ _ hempty =>
      hblank ⟨hprotected, hempty⟩⟩⟩
    rw [reloaded, if_neg (by simpa [String.isEmpty_iff] using hblank)]

/-- The order of the saved secrets does not matter, and none replaces a value by the empty string,
if and only if all secrets that supply a value for the same blank parameter supply the same. -/
theorem reloads_in_any_order_iff (env : Env Text) (owner : Owner) (svc : AccountService)
    (plugin : PluginContainer) (vResult : VerifyResult) (items : List RPCSecretItem)
    (w : World Text) (hplugin : svc.plugin = some plugin) (haccount : svc.accountSet = true)
    (hverify : env.verify w.tick plugin svc.params = .returned vResult)
    (hverified : vResult.verified = true) :
    ReloadsInAnyOrder env owner svc vResult items w ↔
      SuppliesAgree svc.name vResult.params (items.filterMap SecretManager.decodeItem) := by
  have hrun : ∀ (order : List RPCSecretItem) (params : ServiceParamList),
      (∃ svc' w', (svc.verifyParams (env.finding order) owner).run w =
        .ok (some { vResult with params }, svc') w') ↔
      List.Forall₂ (fun param q => reloaded svc.name
        (order.filterMap SecretManager.decodeItem) param = .ok q) vResult.params params := by
    intro order params
    have hverify' : (env.finding order).verify w.tick plugin svc.params = .returned vResult :=
      hverify
    exact (verifyParams_iff hplugin haccount hverify' hverified).trans except_mapM_ok_iff
  constructor
  · rintro ⟨params, h⟩ param hparam hprotected hblank
    obtain ⟨i, hi, rfl⟩ := List.getElem_of_mem hparam
    have hat : ∀ order : List RPCSecretItem, order.Perm items → ∃ hi' : i < params.length,
        reloaded svc.name (order.filterMap SecretManager.decodeItem) vResult.params[i] =
          .ok params[i] := by
      intro order horder
      obtain ⟨hlength, hall⟩ := List.forall₂_iff_get.1 ((hrun order params).1 (h order horder).1)
      exact ⟨hlength ▸ hi, hall i hi (hlength ▸ hi)⟩
    obtain ⟨hi', -⟩ := hat items (List.Perm.refl _)
    refine ⟨params[i].val, fun secret hsecret result hsupplied => ?_⟩
    -- The secret is looked at last in an order of its own.
    obtain ⟨item, hitem, hdecode⟩ := List.mem_filterMap.1 hsecret
    have horder : (items.erase item ++ [item]).Perm items :=
      List.perm_append_comm.trans (List.perm_cons_erase hitem).symm
    obtain ⟨_, hload⟩ := hat _ horder
    rw [List.filterMap_append, List.filterMap_cons_some hdecode, List.filterMap_nil] at hload
    exact reloaded_append_singleton (typed_of_decodeItem hdecode) ⟨hprotected, hblank⟩ hload
      hsupplied
  · intro h
    obtain ⟨params, hparams⟩ : ∃ params,
        List.Forall₂ (ReloadedAs svc.name items) vResult.params params := by
      clear hrun hverify hverified
      have hall : ∀ param ∈ vResult.params, ∃ q, ReloadedAs svc.name items param q :=
        fun param hparam => exists_reloadedAs (h param hparam)
      generalize vResult.params = l at hall
      induction l with
      | nil => exact ⟨[], .nil⟩
      | cons param l ih =>
        obtain ⟨q, hq⟩ := hall param (by simp)
        obtain ⟨qs, hqs⟩ := ih fun param' h' => hall param' (by simp [h'])
        exact ⟨q :: qs, .cons hq hqs⟩
    refine ⟨params, fun order horder => ⟨(hrun order params).2 (hparams.imp fun param q hq =>
      (hq order horder).1), fun param hparam => ?_⟩⟩
    obtain ⟨i, hi, rfl⟩ := List.getElem_of_mem hparam
    obtain ⟨hlength, hget⟩ := List.forall₂_iff_get.1 hparams
    exact (hget i (hlength ▸ hi) hi order horder).2

/-- What the secret service holds when the tokens of a service were saved. -/
def savedItems (env : Env Text) (owner : Owner) (svcName : String) (tokens : List SecretToken) :
    List RPCSecretItem :=
  (collected env owner svcName tokens).toList.map fun kv => kv.2.toRpc

/-- A mail service with a plugin. -/
def pluginService : AccountService := ({} : AccountService).init referenceEnv "mail"

/-- A plugin that wants a password. -/
def passwordWanted : VerifyResult where
  verified := true
  params := [{ key := "password", val := "", isProtected := true }]

/-- The reference service, whose plugin wants a password. -/
def wantingEnv : Env YamlText :=
  { referenceEnv with verify := fun _ _ _ => .returned passwordWanted }

/-- Tokens of two passwords. -/
def passwordTokens (secret₁ secret₂ : String) : List SecretToken :=
  [{ label := "imap", secret := secret₁
     attributes := (∅ : StrStrMap).insert "schema" "password" },
    { label := "smtp", secret := secret₂
      attributes := (∅ : StrStrMap).insert "schema" "password" }]

/-- Two equal passwords can come in any order. -/
theorem reloads_in_any_order_equal : ReloadsInAnyOrder wantingEnv { id := 7, title := "Mail" }
    pluginService passwordWanted
    (savedItems wantingEnv { id := 7, title := "Mail" } "mail" (passwordTokens "ann" "ann"))
    { files := fun _ => ∅ } := by
  refine (reloads_in_any_order_iff wantingEnv { id := 7, title := "Mail" } pluginService
    { type := .pythonPlugin, title := "mail" } passwordWanted
    (savedItems wantingEnv { id := 7, title := "Mail" } "mail" (passwordTokens "ann" "ann"))
    { files := fun _ => ∅ } (by decide +kernel) rfl rfl rfl).2 ?_
  intro param hparam _ _
  obtain rfl := List.mem_singleton.1 hparam
  refine ⟨"ann", ?_⟩
  have hall : ∀ secret ∈ (savedItems wantingEnv { id := 7, title := "Mail" } "mail"
      (passwordTokens "ann" "ann")).filterMap SecretManager.decodeItem,
      ∀ result ∈ supplied "mail" "password" secret, result = .ok "ann" := by decide +kernel
  exact hall

/-- Of two passwords the one that comes last is loaded. -/
theorem last_password_wins : ¬∀ (env : Env YamlText) (owner : Owner) (svc : AccountService)
    (plugin : PluginContainer) (vResult : VerifyResult) (tokens : List SecretToken)
    (w : World YamlText), svc.plugin = some plugin → svc.accountSet = true →
    env.verify w.tick plugin svc.params = .returned vResult → vResult.verified = true →
    ReloadsInAnyOrder env owner svc vResult (savedItems env owner svc.name tokens) w := by
  intro h
  obtain ⟨params, hall⟩ := h wantingEnv { id := 7, title := "Mail" } pluginService
    { type := .pythonPlugin, title := "mail" } passwordWanted (passwordTokens "ann" "eve")
    { files := fun _ => ∅ } (by decide +kernel) rfl rfl rfl
  let items := savedItems wantingEnv { id := 7, title := "Mail" } "mail"
    (passwordTokens "ann" "eve")
  have hload : ∀ order : List RPCSecretItem, order.Perm items →
      passwordWanted.params.mapM (reloaded "mail" (order.filterMap SecretManager.decodeItem)) =
        .ok params := by
    intro order horder
    have hverify : (wantingEnv.finding order).verify 0 { type := .pythonPlugin, title := "mail" }
      pluginService.params = .returned passwordWanted := rfl
    exact (verifyParams_iff (w := { files := fun _ => ∅ }) (by decide +kernel) rfl hverify rfl).1
      (hall order horder).1
  have hforward := hload items (List.Perm.refl _)
  have hbackward := hload items.reverse (List.reverse_perm _)
  have hdiffer : passwordWanted.params.mapM
        (reloaded "mail" (items.filterMap SecretManager.decodeItem)) ≠
      passwordWanted.params.mapM
        (reloaded "mail" (items.reverse.filterMap SecretManager.decodeItem)) := by
    decide +kernel
  exact hdiffer (hforward.trans hbackward.symm)

end PxAccounts
