import PxAccounts.Proof.Endings
import PxAccounts.Proof.Reload

/-!
# Verification of the parameters

What `_verifyParams` returns and logs, message by message, once the plugin has answered: a blank
protected parameter gets the last value that a saved password supplies, or the lookup is undefined.
-/

namespace PxAccounts

open Effect
open AccountService (matchSecret loadSecret)

variable {Text : Type} {env : Env Text}

/-- The last value that a saved password of the service supplies for the parameter. -/
def savedValue (svcName key : String) (secrets : List SecretItemPtr) : Option String :=
  (secrets.filterMap fun secret => (supplied svcName key secret).bind Except.toOption).getLast?

/-- The value that a protected parameter is verified with: a blank one is looked up. -/
def heldValue (svcName : String) (secrets : List SecretItemPtr) (param : ServiceParam) : String :=
  if param.val = "" then (savedValue svcName param.key secrets).getD "" else param.val

/-- No saved password that is looked up for a blank protected parameter is undefined. -/
def LookupsDefined (svcName : String) (secrets : List SecretItemPtr) (params : ServiceParamList) :
    Prop :=
  ∀ param ∈ params, param.isProtected = true → param.val = "" → ∀ secret ∈ secrets, ∀ e,
    supplied svcName param.key secret ≠ some (.error e)

/-! ## Lookups -/

section Lookups

variable {svcName : String} {secrets : List SecretItemPtr}

theorem foldlM_matchSecret (htyped : ∀ secret ∈ secrets, secret.Typed) {key : String}
    (hdefined : ∀ secret ∈ secrets, ∀ e, supplied svcName key secret ≠ some (.error e))
    (val : String) : secrets.foldlM (matchSecret svcName key) val =
      .ok ((savedValue svcName key secrets).getD val) := by
  induction secrets generalizing val with
  | nil => rfl
  | cons secret secrets ih =>
    rw [List.forall_mem_cons] at htyped hdefined
    rw [List.foldlM_cons, matchSecret_eq htyped.1]
    cases hsupplied : supplied svcName key secret with
    | none =>
      have hskip : savedValue svcName key (secret :: secrets) = savedValue svcName key secrets := by
        rw [savedValue, List.filterMap_cons_none (by rw [hsupplied]; rfl), savedValue]
      rw [hskip]
      exact ih htyped.2 hdefined.2 val
    | some result =>
      cases result with
      | error e => exact absurd hsupplied (hdefined.1 e)
      | ok val' =>
        have htake : savedValue svcName key (secret :: secrets) =
            some ((savedValue svcName key secrets).getD val') := by
          rw [savedValue, List.filterMap_cons_some (by rw [hsupplied]; rfl), List.getLast?_cons,
            savedValue]
        rw [htake]
        exact ih htyped.2 hdefined.2 val'

/-- The parameter once a blank protected value is looked up. -/
def held (svcName : String) (secrets : List SecretItemPtr) (param : ServiceParam) : ServiceParam :=
  if param.isProtected then { param with val := heldValue svcName secrets param } else param

/-- What `_verifyParams` logs of the lookup for a parameter. -/
def lookupMessages (svcName : String) (secrets : List SecretItemPtr) (param : ServiceParam) :
    List (LogLevel × String) :=
  if param.isProtected && param.val.isEmpty then
    [(.inf, logMessage (
      if (heldValue svcName secrets param).isEmpty then
        ["ignore secret load for: ", param.key, " (related saved secret not found)"]
      else
        ["protected param value loaded: ", param.key, " -> ", heldValue svcName secrets param]))]
  else []

/-- What `_verifyParams` logs of a verified parameter. -/
def paramMessage (param : ServiceParam) : LogLevel × String :=
  (.inf, logMessage ["\t", param.key, " : ", param.val,
    if param.isProtected then " - PROTECTED" else "",
    if param.isRequired then " - REQUIRED" else ""])

theorem run_loadSecret (htyped : ∀ secret ∈ secrets, secret.Typed) {param : ServiceParam}
    (hdefined : LookupsDefined svcName secrets [param]) (w : World Text) :
    (loadSecret svcName secrets param).run w =
      .ok (held svcName secrets param) (w.say (lookupMessages svcName secrets param)) := by
  rw [loadSecret, lookupMessages]
  by_cases hblank : (param.isProtected && param.val.isEmpty) = true
  · rw [if_pos hblank, if_pos hblank]
    rw [Bool.and_eq_true, String.isEmpty_iff] at hblank
    rw [foldlM_matchSecret htyped (hdefined param (by simp) hblank.1 hblank.2), held,
      if_pos hblank.1]
    have hvalue : heldValue svcName secrets param =
        (savedValue svcName param.key secrets).getD param.val := by
      rw [heldValue, if_pos hblank.2, hblank.2]
    rw [hvalue]
    dsimp only
    split
    · rfl
    · rfl
  · rw [if_neg hblank, if_neg hblank, held]
    have hsay : w.say [] = w := by
      rw [World.say, List.append_nil]
    rw [hsay]
    split
    · next hprotected =>
      have hval : param.val ≠ "" := by
        rwa [hprotected, Bool.true_and, String.isEmpty_iff] at hblank
      rw [heldValue, if_neg hval]
      rfl
    · rfl

theorem run_mapM_loadSecret (htyped : ∀ secret ∈ secrets, secret.Typed) {params : ServiceParamList}
    (hdefined : LookupsDefined svcName secrets params) (w : World Text) :
    (params.mapM (loadSecret svcName secrets)).run w = .ok (params.map (held svcName secrets))
      (w.say (params.flatMap (lookupMessages svcName secrets))) := by
  induction params generalizing w with
  | nil =>
    rw [List.flatMap_nil, World.say, List.append_nil]
    rfl
  | cons param params ih =>
    have hfirst : LookupsDefined svcName secrets [param] := by
      intro p hp
      rw [List.mem_singleton.1 hp]
      exact hdefined param (by simp)
    rw [List.mapM_cons, run_bind_ok]
    refine ⟨_, _, run_loadSecret htyped hfirst w, run_bind_ok.2 ⟨_, _, ih ?_ _, ?_⟩⟩
    · exact fun p hp => hdefined p (List.mem_cons_of_mem _ hp)
    · rw [World.say_say, List.flatMap_cons]
      rfl

theorem undefined_of_loadSecret (htyped : ∀ secret ∈ secrets, secret.Typed) {param : ServiceParam}
    (h : ¬LookupsDefined svcName secrets [param]) (w : World Text) :
    ∃ what, (loadSecret svcName secrets param).run w = .error (.undefined what) w := by
  have hnot : (param.isProtected && param.val.isEmpty) = true ∧
      ¬∀ secret ∈ secrets, ∀ e, supplied svcName param.key secret ≠ some (.error e) := by
    rw [Bool.and_eq_true, String.isEmpty_iff]
    by_contra hall
    refine h fun p hp hprotected hblank => ?_
    obtain rfl := List.mem_singleton.1 hp
    by_contra hundefined
    exact hall ⟨⟨hprotected, hblank⟩, hundefined⟩
  have hturn : ∀ val, ∀ secret ∈ secrets,
      (∃ val', matchSecret svcName param.key val secret = .ok val') ↔
        ∀ e, supplied svcName param.key secret ≠ some (.error e) := by
    intro val secret hsecret
    rw [matchSecret_eq (htyped secret hsecret)]
    cases supplied svcName param.key secret with
    | none => exact iff_of_true ⟨val, rfl⟩ fun e he => by cases he
    | some result =>
      cases result with
      | ok val' => exact iff_of_true ⟨val', rfl⟩ fun e he => by cases he
      | error e =>
        refine iff_of_false ?_ fun hall => hall e rfl
        rintro ⟨val', hval'⟩
        cases hval'
  rw [loadSecret, if_pos hnot.1]
  cases hfold : secrets.foldlM (matchSecret svcName param.key) param.val with
  | ok val => exact absurd ((except_foldlM_returns_iff secrets _ hturn).1 ⟨val, hfold⟩) hnot.2
  | error e =>
    obtain ⟨what, rfl, -⟩ := except_foldlM_error _ (fun _ _ _ _ => matchSecret_error) hfold
    exact ⟨what, rfl⟩

theorem undefined_of_mapM (htyped : ∀ secret ∈ secrets, secret.Typed) {params : ServiceParamList}
    (h : ¬LookupsDefined svcName secrets params) (w : World Text) :
    ∃ what w', (params.mapM (loadSecret svcName secrets)).run w = .error (.undefined what) w' := by
  induction params generalizing w with
  | nil => exact absurd (fun p hp => by cases hp) h
  | cons param params ih =>
    by_cases hfirst : LookupsDefined svcName secrets [param]
    · have hrest : ¬LookupsDefined svcName secrets params := by
        refine fun hrest => h fun p hp => ?_
        rcases List.mem_cons.1 hp with rfl | hp
        · exact hfirst p (by simp)
        · exact hrest p hp
      obtain ⟨what, w', hrun⟩ :=
        ih hrest (w.say (lookupMessages svcName secrets param))
      refine ⟨what, w', ?_⟩
      rw [List.mapM_cons, run_bind_error]
      exact .inr ⟨_, _, run_loadSecret htyped hfirst w, run_bind_error.2 (.inl hrun)⟩
    · obtain ⟨what, hrun⟩ := undefined_of_loadSecret htyped hfirst w
      refine ⟨what, w, ?_⟩
      rw [List.mapM_cons, run_bind_error]
      exact .inl hrun

theorem run_forM_paramMessage (params : ServiceParamList) (w : World Text) :
    (forM params fun param =>
      glog .inf ["\t", param.key, " : ", param.val,
        if param.isProtected then " - PROTECTED" else "",
        if param.isRequired then " - REQUIRED" else ""]).run w =
      .ok () (w.say (params.map paramMessage)) := by
  induction params generalizing w with
  | nil =>
    rw [List.map_nil, World.say, List.append_nil]
    rfl
  | cons param params ih =>
    rw [List.forM_cons, run_bind_ok]
    refine ⟨(), w.say [paramMessage param], rfl, ?_⟩
    rw [ih, World.say_say]
    rfl

end Lookups

/-! ## All parameters -/

/-- What `_verifyParams` does with an accepted answer. -/
def loadParams (env : Env Text) (owner : Owner) (svc : AccountService) (vResult : VerifyResult) :
    M Text (Option VerifyResult × AccountService) := do
  let savedSecrets ← SecretManager.getAccountSecrets env owner.id
  let params ← vResult.params.mapM (loadSecret svc.name savedSecrets)
  glog .inf ["parameters are verified:"]
  forM params fun param =>
    glog .inf ["\t", param.key, " : ", param.val,
      if param.isProtected then " - PROTECTED" else "",
      if param.isRequired then " - REQUIRED" else ""]
  return (some { vResult with params }, svc.applyVerification params)

/-- What `_verifyParams` does with the answer of the plugin. -/
def judge (env : Env Text) (owner : Owner) (svc : AccountService) (plugin : PluginContainer)
    (answer : Answer VerifyResult) : M Text (Option VerifyResult × AccountService) := do
  let vResult ← passOn plugin (fun what => { verified := false, errors := [what] }) answer
  if !vResult.verified then
    return (none, svc.addErrorList vResult.errors)
  let account ← svc.derefAccount owner
  loadParams env account svc vResult

theorem run_verifyParams {svc : AccountService} {plugin : PluginContainer}
    (h : svc.plugin = some plugin) (owner : Owner) (w : World Text) :
    (svc.verifyParams env owner).run w =
      (judge env owner svc plugin (env.verify w.tick plugin svc.params)).run
        (w.record (.verify plugin.title svc.params (env.verify w.tick plugin svc.params))) := by
  have heq : svc.verifyParams env owner =
      env.callVerify plugin svc.params >>= judge env owner svc plugin := by
    rw [AccountService.verifyParams, h]
    dsimp only
    rw [verify_eq, bind_assoc]
    rfl
  rw [heq, EStateM.run_bind]
  rfl

/-- The secrets of the account that the next search finds. -/
def foundNext (env : Env Text) (owner : Owner) (w : World Text) : List SecretItemPtr :=
  (env.search w.tick ((∅ : StrStrMap).insert "account_id"
    (env.uuidAsString owner.id)).toList w.secrets).items.filterMap SecretManager.decodeItem

theorem run_getAccountSecrets (env : Env Text) (owner : Owner) (w : World Text) :
    ∃ w₁, (SecretManager.getAccountSecrets env owner.id).run w =
      .ok (foundNext env owner w) w₁ := by
  obtain ⟨messages, hrun⟩ := run_search env ((∅ : StrStrMap).insert "account_id"
    (env.uuidAsString owner.id)) w
  exact ⟨_, hrun⟩

theorem typed_of_foundNext (owner : Owner) (w : World Text) :
    ∀ secret ∈ foundNext env owner w, secret.Typed := by
  intro secret hsecret
  obtain ⟨item, -, hdecode⟩ := List.mem_filterMap.1 hsecret
  exact typed_of_decodeItem hdecode

/-- What is logged once the secrets are found. -/
def loadMessages (svcName : String) (secrets : List SecretItemPtr) (params : ServiceParamList) :
    List (LogLevel × String) :=
  params.flatMap (lookupMessages svcName secrets) ++
    (.inf, logMessage ["parameters are verified:"]) ::
      (params.map (held svcName secrets)).map paramMessage

theorem run_loadParams {owner : Owner} (svc : AccountService) {vResult : VerifyResult}
    {w : World Text} (hdefined : LookupsDefined svc.name (foundNext env owner w) vResult.params) :
    ∃ w₁, (SecretManager.getAccountSecrets env owner.id).run w =
        .ok (foundNext env owner w) w₁ ∧
      (loadParams env owner svc vResult).run w =
        .ok (some { vResult with
              params := vResult.params.map (held svc.name (foundNext env owner w)) },
            svc.applyVerification (vResult.params.map (held svc.name (foundNext env owner w))))
          (w₁.say (loadMessages svc.name (foundNext env owner w) vResult.params)) := by
  obtain ⟨w₁, hsearch⟩ := run_getAccountSecrets env owner w
  refine ⟨w₁, hsearch, ?_⟩
  rw [loadParams, run_bind_ok]
  refine ⟨_, w₁, hsearch, run_bind_ok.2 ⟨_, _,
    run_mapM_loadSecret (typed_of_foundNext owner w) hdefined w₁, run_bind_ok.2 ⟨(), _, rfl,
      run_bind_ok.2 ⟨(), _, run_forM_paramMessage _ _, ?_⟩⟩⟩⟩
  have hmessages : w₁.say (loadMessages svc.name (foundNext env owner w) vResult.params) =
      ((w₁.say (vResult.params.flatMap (lookupMessages svc.name (foundNext env owner w)))).say
        [(.inf, logMessage ["parameters are verified:"])]).say
          ((vResult.params.map (held svc.name (foundNext env owner w))).map paramMessage) := by
    rw [World.say_say, World.say_say, loadMessages]
    rfl
  rw [hmessages]
  rfl

/-- The search comes first. -/
theorem calls_loadParams {owner : Owner} {svc : AccountService} {vResult : VerifyResult}
    {w w₁ : World Text} {secrets : List SecretItemPtr}
    (hsearch : (SecretManager.getAccountSecrets env owner.id).run w = .ok secrets w₁) :
    w₁.calls <+: (final ((loadParams env owner svc vResult).run w)).calls := by
  have hF : Searching (callsFrame : Frame (World Text)) := quiet_callsFrame.asking.searching
  rw [loadParams, EStateM.run_bind, hsearch]
  refine ((within_mapM fun param _ => within_loadSecret hF _ _ param).bind fun params => ?_ :
    Within callsFrame _) w₁
  exact (within_glog hF _ _).bind fun _ =>
    (within_forM fun param _ => within_glog hF _ _).bind fun _ => within_pure _

/-- An undefined lookup ends the verification. -/
theorem undefined_of_loadParams {owner : Owner} (svc : AccountService) {vResult : VerifyResult}
    {w : World Text} (h : ¬LookupsDefined svc.name (foundNext env owner w) vResult.params) :
    ∃ what w', (loadParams env owner svc vResult).run w = .error (.undefined what) w' := by
  obtain ⟨w₁, hsearch⟩ := run_getAccountSecrets env owner w
  obtain ⟨what, w', hload⟩ := undefined_of_mapM (typed_of_foundNext owner w) h w₁
  refine ⟨what, w', ?_⟩
  rw [loadParams, run_bind_error]
  exact .inr ⟨_, w₁, hsearch, run_bind_error.2 (.inl hload)⟩

/-! ## The answer of the plugin -/

theorem judge_refused {owner : Owner} {svc : AccountService} {plugin : PluginContainer}
    {a : VerifyResult} (h : a.verified = false) : judge env owner svc plugin (.returned a) =
      pure (none, svc.addErrorList a.errors) := if_pos (by rw [h]; rfl)

theorem judge_accepted {owner : Owner} {svc : AccountService} {plugin : PluginContainer}
    {a : VerifyResult} (h : a.verified = true) : judge env owner svc plugin (.returned a) =
      svc.derefAccount owner >>= fun account => loadParams env account svc a :=
  if_neg (by simp [h])

theorem judge_loads {owner : Owner} {svc : AccountService} (plugin : PluginContainer)
    {a : VerifyResult} (h : a.verified = true) (hset : svc.accountSet = true) :
    judge env owner svc plugin (.returned a) = loadParams env owner svc a := by
  have hderef : (svc.derefAccount owner : M Text Owner) = pure owner := if_pos hset
  rw [judge_accepted h, hderef]
  rfl

theorem calls_judge (owner : Owner) (svc : AccountService) (plugin : PluginContainer)
    (answer : Answer VerifyResult) : Within callsFrame (judge env owner svc plugin answer) := by
  have hF : Searching (callsFrame : Frame (World Text)) := quiet_callsFrame.asking.searching
  have hpass : Within callsFrame (passOn plugin (fun what => { verified := false, errors := [what] })
      answer : M Text VerifyResult) := by
    cases answer with
    | returned result => exact within_pure _
    | raised what => exact within_throw _
    | errorAlreadySet what =>
      rw [passOn]
      cases plugin.type with
      | pythonPlugin => exact within_pure _
      | cppPlugin => exact within_throw _
  refine hpass.bind fun vResult => within_ite (fun _ => within_pure _) fun _ =>
    (within_derefAccount svc owner).bind fun account => (within_search hF _).bind fun _ =>
      (within_mapM fun param _ => within_loadSecret hF _ _ param).bind fun params => ?_
  exact (within_glog hF _ _).bind fun _ =>
    (within_forM fun param _ => within_glog hF _ _).bind fun _ => within_pure _

end PxAccounts
