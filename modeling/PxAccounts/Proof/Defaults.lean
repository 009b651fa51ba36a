import PxAccounts.Model.Reference
import PxAccounts.Proof.Storage

/-!
# Provider defaults

The parameters of a provider are added to those of an account where it has none.  The plugins verify
the services with both.
-/

namespace PxAccounts

open Effect

variable {Text : Type} {env : Env Text}

namespace AccountObject

/-! ## The loops -/

theorem subscript_of_some {services : StrMap AccountService} {svcName : String}
    {svc : AccountService} (h : services[svcName]? = some svc) :
    subscript services svcName = (services, svc) := by
  rw [subscript, h]

/-- What the inner loop makes of a service for one parameter. -/
def withDefault (svc : AccountService) (kv : String × String) : AccountService :=
  if kv.1 ∈ svc.params then svc else { svc with params := svc.params.insert kv.1 kv.2 }

theorem appendParams_eq (pluginParams : StrStrMap) (svc : AccountService) :
    appendParams pluginParams svc =
      { svc with params := TreeMap.insertMissing svc.params pluginParams.toList } := by
  rw [appendParams]
  generalize pluginParams.toList = l
  induction l generalizing svc with
  | nil => rfl
  | cons kv l ih =>
    rw [List.foldl_cons, ih, TreeMap.insertMissing_cons]
    split <;> rfl

/-- A turn of the inner loop changes the one service, and makes no entry. -/
theorem getElem?_appendParam {services : StrMap AccountService} {svcName : String}
    {svc : AccountService} (h : services[svcName]? = some svc) (kv : String × String)
    (name : String) : (appendParam svcName services kv)[name]? =
      if svcName = name then some (withDefault svc kv) else services[name]? := by
  rw [appendParam, subscript_of_some h]
  dsimp only
  rw [withDefault]
  by_cases hkey : kv.1 ∈ svc.params
  · rw [if_pos hkey, if_pos hkey]
    split
    next hname => rw [← hname, h]
    next => rfl
  · rw [if_neg hkey, if_neg hkey, subscript_of_some h]
    split
    next hname => rw [← hname, Std.ExtTreeMap.getElem?_insert_self]
    next hname => rw [TreeMap.getElem?_insert_of_ne hname]

theorem getElem?_foldl_appendParam {svcName : String} (l : List (String × String)) :
    ∀ {services : StrMap AccountService} {svc : AccountService}, services[svcName]? = some svc →
      ∀ name, (l.foldl (appendParam svcName) services)[name]? =
        if svcName = name then some (l.foldl withDefault svc) else services[name]? := by
  induction l with
  | nil =>
    intro services svc h name
    split
    next hname => rw [← hname, List.foldl_nil, h, List.foldl_nil]
    next => rfl
  | cons kv l ih =>
    intro services svc h name
    have hself := getElem?_appendParam h kv svcName
    rw [if_pos rfl] at hself
    rw [List.foldl_cons, ih hself name, getElem?_appendParam h kv name]
    split <;> rfl

/-- What the outer loop makes of a service. -/
def withDefaults (curProvider : ProviderStruct) (svcName : String) (svc : AccountService) :
    AccountService :=
  match curProvider.plugins[svcName]? with
  | some pluginParams => appendParams pluginParams svc
  | none => svc

theorem getElem?_appendServiceParams {services : StrMap AccountService} {svcName : String}
    {svc : AccountService} (h : services[svcName]? = some svc) (curProvider : ProviderStruct)
    (name : String) : (appendServiceParams curProvider services svcName)[name]? =
      if svcName = name then some (withDefaults curProvider svcName svc) else services[name]? := by
  rw [appendServiceParams, withDefaults]
  cases curProvider.plugins[svcName]? with
  | some pluginParams => exact getElem?_foldl_appendParam _ h name
  | none =>
    dsimp only
    split
    next hname => rw [← hname, h]
    next => rfl

/-- The outer loop changes each of the services it has gone through once. -/
theorem getElem?_foldl_appendServiceParams (curProvider : ProviderStruct) (names : List String) :
    ∀ {services : StrMap AccountService}, names.Nodup → (∀ name ∈ names, name ∈ services) →
      ∀ name, (names.foldl (appendServiceParams curProvider) services)[name]? =
        if name ∈ names then services[name]?.map (withDefaults curProvider name)
        else services[name]? := by
  induction names with
  | nil =>
    intro services _ _ name
    rw [if_neg (by simp)]
    rfl
  | cons svcName names ih =>
    intro services hnodup hmem name
    obtain ⟨hnot, hnodup⟩ := List.nodup_cons.1 hnodup
    obtain ⟨svc, hsvc⟩ := Option.isSome_iff_exists.1
      (Std.ExtTreeMap.mem_iff_isSome_getElem?.1 (hmem svcName (by simp)))
    have hstep := getElem?_appendServiceParams hsvc curProvider
    have hmem' : ∀ name ∈ names, name ∈ appendServiceParams curProvider services svcName := by
      intro name' hname'
      rw [Std.ExtTreeMap.mem_iff_isSome_getElem?, hstep]
      split
      next => rfl
      next => exact Std.ExtTreeMap.mem_iff_isSome_getElem?.1 (hmem name' (by simp [hname']))
    rw [List.foldl_cons, ih hnodup hmem' name, hstep]
    by_cases hname : svcName = name
    · subst hname
      rw [if_neg hnot, if_pos rfl, if_pos (by simp), hsvc, Option.map_some]
    · rw [if_neg hname]
      simp only [List.mem_cons, Ne.symm hname, false_or]

/-- The loops through `operator[]` add the defaults to each service and make no entry. -/
theorem appendProviderParamsInPlace_eq (env : Env Text) (act : AccountObject) :
    appendProviderParamsInPlace env act = appendProviderParams env act := by
  rw [appendProviderParamsInPlace, appendProviderParams]
  cases env.providers[act.provider]? with
  | none => rfl
  | some curProvider =>
    have hservices : act.services.keys.foldl (appendServiceParams curProvider) act.services =
        act.services.map fun svcName svc => withDefaults curProvider svcName svc := by
      refine Std.ExtTreeMap.ext_getElem? fun name => ?_
      rw [getElem?_foldl_appendServiceParams curProvider _ act.services.nodup_keys
        (fun name hname => Std.ExtTreeMap.mem_keys.1 hname), Std.ExtTreeMap.getElem?_map]
      split
      next => rfl
      next hname =>
        rw [Std.ExtTreeMap.mem_keys] at hname
        rw [Std.ExtTreeMap.getElem?_eq_none hname]
        rfl
    dsimp only
    rw [hservices]
    rfl

/-- The account has in each service the defaults of the provider besides its own parameters, and is
the same otherwise. -/
structure DefaultsAdded (curProvider : ProviderStruct) (act act' : AccountObject) : Prop where
  details : act' = { act with services := act'.services }
  names : ∀ name : String, name ∈ act'.services ↔ name ∈ act.services
  union : ∀ (name : String) (svc : AccountService), act.services[name]? = some svc →
    ∃ svc', act'.services[name]? = some svc' ∧ svc' = { svc with params := svc'.params } ∧
      ∀ key : String, svc'.params[key]? =
        svc.params[key]?.or (curProvider.plugins[name]?.bind fun pluginParams => pluginParams[key]?)
  others : ∀ name : String, curProvider.plugins[name]? = none →
    act'.services[name]? = act.services[name]?

theorem withDefaults_union (curProvider : ProviderStruct) (name : String) (svc : AccountService) :
    withDefaults curProvider name svc =
        { svc with params := (withDefaults curProvider name svc).params } ∧
      ∀ key : String, (withDefaults curProvider name svc).params[key]? =
        svc.params[key]?.or
          (curProvider.plugins[name]?.bind fun pluginParams => pluginParams[key]?) := by
  rw [withDefaults]
  cases curProvider.plugins[name]? with
  | none => exact ⟨rfl, fun key => Option.or_none.symm⟩
  | some pluginParams =>
    dsimp only
    rw [appendParams_eq]
    exact ⟨rfl, fun key => TreeMap.getElem?_insertMissing_toList _ _ key⟩

theorem getElem?_appendProviderParams {act : AccountObject} {curProvider : ProviderStruct}
    (h : env.providers[act.provider]? = some curProvider) (name : String) :
    (appendProviderParams env act).2.services[name]? =
      act.services[name]?.map (withDefaults curProvider name) := by
  rw [appendProviderParams, h]
  exact Std.ExtTreeMap.getElem?_map

theorem defaultsAdded {act : AccountObject} {curProvider : ProviderStruct}
    (h : env.providers[act.provider]? = some curProvider) :
    DefaultsAdded curProvider act (appendProviderParams env act).2 where
  details := by
    rw [appendProviderParams, h]
  names name := by
    rw [Std.ExtTreeMap.mem_iff_isSome_getElem?, Std.ExtTreeMap.mem_iff_isSome_getElem?,
      getElem?_appendProviderParams h, Option.isSome_map]
  union name svc hsvc := by
    refine ⟨withDefaults curProvider name svc, ?_, withDefaults_union curProvider name svc⟩
    rw [getElem?_appendProviderParams h, hsvc, Option.map_some]
  others name hname := by
    rw [getElem?_appendProviderParams h]
    cases act.services[name]? with
    | none => rfl
    | some svc => rw [Option.map_some, withDefaults, hname]

/-- A second time nothing is missing any more. -/
theorem withDefaults_withDefaults (curProvider : ProviderStruct) (name : String)
    (svc : AccountService) :
    withDefaults curProvider name (withDefaults curProvider name svc) =
      withDefaults curProvider name svc := by
  obtain ⟨hdetails, hunion⟩ := withDefaults_union curProvider name svc
  obtain ⟨hdetails', hunion'⟩ :=
    withDefaults_union curProvider name (withDefaults curProvider name svc)
  have hparams : (withDefaults curProvider name (withDefaults curProvider name svc)).params =
      (withDefaults curProvider name svc).params := by
    refine Std.ExtTreeMap.ext_getElem? fun key => ?_
    rw [hunion', hunion]
    cases svc.params[key]? with
    | some val => rfl
    | none => rw [Option.none_or, Option.or_self]
  rw [hdetails', hparams]

theorem appendProviderParams_twice {act : AccountObject} {curProvider : ProviderStruct}
    (h : env.providers[act.provider]? = some curProvider) :
    appendProviderParams env (appendProviderParams env act).2 = appendProviderParams env act := by
  have hprovider : (appendProviderParams env act).2.provider = act.provider := by
    rw [(defaultsAdded h).details]
  have h' : env.providers[(appendProviderParams env act).2.provider]? = some curProvider := by
    rw [hprovider, h]
  have hfst : ∀ act' : AccountObject, env.providers[act'.provider]? = some curProvider →
      (appendProviderParams env act').1 = true := fun act' hact' => by
    rw [appendProviderParams, hact']
  have hservices : (appendProviderParams env (appendProviderParams env act).2).2.services =
      (appendProviderParams env act).2.services := by
    refine Std.ExtTreeMap.ext_getElem? fun name => ?_
    rw [getElem?_appendProviderParams h', getElem?_appendProviderParams h, Option.map_map]
    cases act.services[name]? with
    | none => rfl
    | some svc => exact congrArg some (withDefaults_withDefaults curProvider name svc)
  refine Prod.ext ((hfst _ h').trans (hfst _ h).symm) ?_
  rw [(defaultsAdded h').details, hservices]

end AccountObject

/-! ## What the plugins verify -/

/-- The plugin and the parameters of a call of `verify`. -/
def Call.verified : Call Text → Option (String × StrStrMap)
  | .verify plugin params _ => some (plugin, params)
  | _ => none

/-- The calls of `verify` on the way from one state to the other. -/
def verifiedCalls (w w' : World Text) : List (String × StrStrMap) :=
  (w.newCalls w').filterMap Call.verified

/-- The question that a service puts to its plugin. -/
def AccountService.question (svc : AccountService) : Option (String × StrStrMap) :=
  svc.plugin.map fun plugin => (plugin.title, svc.params)

/-- No `verify` of a plugin is called. -/
def unasked : Frame (World Text) := callsOf fun c => c.verified = none

theorem searching_unasked : Searching (unasked : Frame (World Text)) where
  record _ _ _ := callsOf_record rfl rfl
  log _ _ := ⟨[], by simp⟩

/-- Whatever comes of it, the program puts this question, if any, to a plugin and no other. -/
def Puts {α : Type} (question : Option (String × StrStrMap)) (m : M Text α) : Prop :=
  ∀ w, ∃ cs, (final (m.run w)).calls = w.calls ++ cs ∧ cs.filterMap Call.verified = question.toList

theorem puts_none {α : Type} {m : M Text α} (h : Within unasked m) : Puts none m := by
  intro w
  obtain ⟨cs, hcs, hall⟩ := h w
  exact ⟨cs, hcs, List.filterMap_eq_nil_iff.2 hall⟩

theorem Puts.bind {α β : Type} {question : Option (String × StrStrMap)} {m : M Text α}
    {f : α → M Text β} (h : Puts question m) (hf : ∀ a, Within unasked (f a)) :
    Puts question (m >>= f) := by
  intro w
  obtain ⟨cs, hcs, hquestion⟩ := h w
  rw [EStateM.run_bind]
  cases hr : m.run w with
  | error e w₁ =>
    rw [hr] at hcs
    exact ⟨cs, hcs, hquestion⟩
  | ok a w₁ =>
    rw [hr] at hcs
    obtain ⟨cs', hcs', hall⟩ := hf a w₁
    refine ⟨cs ++ cs', ?_, ?_⟩
    · rw [← List.append_assoc, ← hcs]
      exact hcs'
    · rw [List.filterMap_append, List.filterMap_eq_nil_iff.2 hall, List.append_nil, hquestion]

section

variable (owner : Owner) (svc : AccountService)

theorem puts_pluginVerify (plugin : PluginContainer) (params : StrStrMap) :
    Puts (some (plugin.title, params)) (plugin.verify env params) := by
  have hcall : Puts (some (plugin.title, params)) (env.callVerify plugin params) :=
    fun w => ⟨[_], rfl, rfl⟩
  refine hcall.bind fun answer => ?_
  cases answer with
  | returned result => exact within_pure _
  | raised what => exact within_throw _
  | errorAlreadySet what =>
    cases plugin.type with
    | pythonPlugin => exact within_pure _
    | cppPlugin => exact within_throw _

theorem puts_verifyParams : Puts svc.question (svc.verifyParams env owner) := by
  rw [AccountService.verifyParams, AccountService.question]
  cases svc.plugin with
  | none => exact puts_none ((within_glog searching_unasked _ _).bind fun _ => within_pure _)
  | some plugin =>
    refine (puts_pluginVerify plugin svc.params).bind fun verifyResult =>
      within_ite (fun _ => within_pure _) fun _ => ?_
    refine (within_derefAccount svc owner).bind fun account =>
      (within_search searching_unasked _).bind fun _ =>
        (within_mapM fun param _ => within_loadSecret searching_unasked _ _ param).bind
          fun params => ?_
    exact (within_glog searching_unasked _ _).bind fun _ =>
      (within_forM fun param _ => within_glog searching_unasked _ _).bind fun _ => within_pure _

theorem within_authenticate_unasked (vResult : VerifyResult) :
    Within unasked (svc.authenticate env vResult) := by
  refine (within_derefPlugin svc).bind fun plugin => Within.bind ?_ fun authResult =>
    within_ite (fun _ => within_pure _) fun _ => ?_
  · have hcall : Within unasked (env.callAuthenticate plugin vResult.params) :=
      fun w => callsOf_record rfl rfl
    refine hcall.bind fun answer => ?_
    cases answer with
    | returned result => exact within_pure _
    | raised what => exact within_throw _
    | errorAlreadySet what =>
      cases plugin.type with
      | pythonPlugin => exact within_pure _
      | cppPlugin => exact within_throw _
  · refine (within_glog searching_unasked _ _).bind fun _ => (within_forM fun token _ => ?_).bind
      fun _ => within_pure _
    exact (within_glog searching_unasked _ _).bind fun _ =>
      within_forM fun attrib _ => within_glog searching_unasked _ _

theorem puts_serviceVerify : Puts svc.question (svc.verify env owner) := by
  refine (puts_verifyParams owner { svc with errors := [] }).bind ?_
  rintro ⟨_ | vResult, svc₁⟩
  · exact (within_glog searching_unasked _ _).bind fun _ => within_pure _
  refine (within_authenticate_unasked svc₁ vResult).bind ?_
  rintro ⟨_ | aResult, svc₂⟩
  · exact within_pure _
  refine Within.bind (within_saveProtectedParams (K := ∅) searching_unasked (by simp)
    fun item _ w => callsOf_record rfl rfl) ?_
  rintro ⟨_ | _, svc₃⟩
  · exact within_pure _
  · exact (AccountService.within_customWrite searching_unasked
      (fun _ _ _ _ => callsOf_record rfl rfl) _ _ _).bind fun _ => within_pure _

end

/-- A loop that puts a question in each turn puts them in turn, and all of them if it ends. -/
theorem puts_foldlM {α β : Type} {f : β → α → M Text β} {question : α → Option (String × StrStrMap)}
    (h : ∀ b a, Puts (question a) (f b a)) (l : List α) : ∀ b w,
    ∃ cs, (final ((l.foldlM f b).run w)).calls = w.calls ++ cs ∧
      cs.filterMap Call.verified <+: l.filterMap question ∧
      ∀ b' w', (l.foldlM f b).run w = .ok b' w' →
        cs.filterMap Call.verified = l.filterMap question := by
  induction l with
  | nil => exact fun b w => ⟨[], by simp, List.nil_prefix, fun _ _ _ => rfl⟩
  | cons a l ih =>
    intro b w
    obtain ⟨cs, hcs, hquestion⟩ := h b a w
    have hcons : (a :: l).filterMap question = (question a).toList ++ l.filterMap question := by
      cases hq : question a with
      | none => exact List.filterMap_cons_none hq
      | some _ => exact List.filterMap_cons_some hq
    rw [List.foldlM_cons, EStateM.run_bind, hcons]
    cases hr : (f b a).run w with
    | error e w₁ =>
      rw [hr] at hcs
      refine ⟨cs, hcs, ?_, fun _ _ h => by cases h⟩
      rw [hquestion]
      exact List.prefix_append _ _
    | ok b₁ w₁ =>
      rw [hr] at hcs
      obtain ⟨cs', hcs', hprefix, hall⟩ := ih b₁ w₁
      refine ⟨cs ++ cs', ?_, ?_, fun b' w' hrest => ?_⟩
      · rw [← List.append_assoc, ← hcs]
        exact hcs'
      · rw [List.filterMap_append, hquestion]
        exact (List.prefix_append_right_inj _).2 hprefix
      · rw [List.filterMap_append, hquestion, hall b' w' hrest]

/-- What the plugins of the account are asked, service by service. -/
def questions (act : AccountObject) : List (String × StrStrMap) :=
  act.services.toList.filterMap fun kv => kv.2.question

variable (env) in
theorem verifiedCalls_verifyServices (act : AccountObject) (w : World Text) :
    ∃ cs, (final ((act.verifyServices env).run w)).calls = w.calls ++ cs ∧
      cs.filterMap Call.verified <+: questions act ∧
      ∀ r w', (act.verifyServices env).run w = .ok r w' →
        cs.filterMap Call.verified = questions act := by
  refine puts_foldlM (fun state kv => ?_) _ _ w
  obtain ⟨verified, act'⟩ := state
  exact (puts_serviceVerify _ kv.2).bind fun _ => within_pure _

theorem within_removeAllSecrets_unasked (act : AccountObject) :
    Within unasked (act.removeAllSecrets env) :=
  AccountObject.within_removeAllSecrets fun _ _ _ _ =>
    Within.bind (fun _ => callsOf_record rfl rfl) fun _ => within_pure _

variable (env) in
/-- The calls of a verification that reaches the services. -/
theorem verifiedCalls_verifyPrepared (act : AccountObject) (w : World Text) :
    verifiedCalls w (final ((act.verifyPrepared env).run w)) <+: questions act ∧
      ∀ r w', (act.verifyPrepared env).run w = .ok r w' → verifiedCalls w w' = questions act := by
  obtain ⟨cs, hcs, hprefix, hall⟩ := verifiedCalls_verifyServices env act w
  rw [AccountObject.verifyPrepared, EStateM.run_bind]
  cases hr : (act.verifyServices env).run w with
  | error e w₁ =>
    rw [hr] at hcs
    refine ⟨?_, fun _ _ h => by cases h⟩
    rw [verifiedCalls]
    dsimp only
    rw [newCalls_eq hcs]
    exact hprefix
  | ok r w₁ =>
    obtain ⟨verified, act'⟩ := r
    rw [hr] at hcs
    let rest : M Text (Bool × AccountObject) := do
      if !verified then
        act'.removeAllSecrets env
      return (verified, act')
    have hrest : Within unasked rest :=
      within_ite (fun _ => (within_removeAllSecrets_unasked act').bind fun _ => within_pure _)
        fun _ => within_pure _
    obtain ⟨cs', hcs', hnone⟩ := hrest w₁
    have hfinal : verifiedCalls w (final (rest.run w₁)) = questions act := by
      have hcalls : (final (rest.run w₁)).calls = w.calls ++ (cs ++ cs') := by
        rw [← List.append_assoc, ← hcs]
        exact hcs'
      rw [verifiedCalls, newCalls_eq hcalls, List.filterMap_append,
        List.filterMap_eq_nil_iff.2 hnone, List.append_nil, hall _ _ hr]
    constructor
    · change verifiedCalls w (final (rest.run w₁)) <+: _
      rw [hfinal]
    · intro r' w' hr'
      have hw' : final (rest.run w₁) = w' := congrArg final (show rest.run w₁ = .ok r' w' from hr')
      rw [← hw', hfinal]

theorem questions_prepared {act : AccountObject} (hprovider : act.provider ≠ "") :
    questions (AccountObject.prepared env act) =
      questions (AccountObject.appendProviderParams env act).2 := by
  have hempty : act.provider.isEmpty = false := by
    rw [← Bool.not_eq_true, String.isEmpty_iff]
    exact hprovider
  rw [AccountObject.prepared, if_neg (by rw [hempty]; decide), questions, questions,
    AccountObject.appendProviderParams, AccountObject.appendProviderParams]
  dsimp only
  cases env.providers[act.provider]? <;> rfl

/-- The defaults of a provider never replace a value of the account: each service gets the union of
its parameters and those of the provider, the loops through `operator[]` do the same, a second time
changes nothing, and the plugins are asked to verify these unions. -/
theorem provider_defaults (env : Env Text) (act : AccountObject) (curProvider : ProviderStruct)
    (hprovider : env.providers[act.provider]? = some curProvider) :
    ∃ act', act.appendProviderParamsInPlace env = (true, act') ∧
      act.appendProviderParams env = (true, act') ∧
      AccountObject.DefaultsAdded curProvider act act' ∧
      act'.appendProviderParamsInPlace env = (true, act') ∧
      (act.provider ≠ "" → ∀ w,
        verifiedCalls w (final ((act.verify env).run w)) <+: questions act' ∧
        (act.title ≠ "" → ∀ r w', (act.verify env).run w = .ok r w' →
          verifiedCalls w w' = questions act')) := by
  have happend : act.appendProviderParams env = (true, (act.appendProviderParams env).2) := by
    rw [AccountObject.appendProviderParams, hprovider]
  refine ⟨(act.appendProviderParams env).2, ?_, happend, AccountObject.defaultsAdded hprovider, ?_,
    fun hne w => ?_⟩
  · rw [AccountObject.appendProviderParamsInPlace_eq, ← happend]
  · rw [AccountObject.appendProviderParamsInPlace_eq,
      AccountObject.appendProviderParams_twice hprovider, ← happend]
  by_cases hreaches : AccountObject.ReachesServices env act
  · rw [AccountObject.verify_of_reaches hreaches, ← questions_prepared hne]
    obtain ⟨hcalls, hall⟩ :=
      verifiedCalls_verifyPrepared env (AccountObject.prepared env act) w
    exact ⟨hcalls, fun _ => hall⟩
  · obtain ⟨act₁, hrun, -⟩ := AccountObject.run_verify_of_not_reaches hreaches w
    rw [hrun]
    constructor
    · have hnone : verifiedCalls w w = [] := by
        rw [verifiedCalls, newCalls_eq (List.append_nil _).symm, List.filterMap_nil]
      rw [final_ok, hnone]
      exact List.nil_prefix
    · intro htitle
      refine absurd ⟨?_, .inr (Std.ExtTreeMap.mem_iff_isSome_getElem?.2 (by rw [hprovider]; rfl))⟩
        hreaches
      rw [← Bool.not_eq_true, String.isEmpty_iff]
      exact htitle

/-- The reference service with a provider. -/
def planetEnv : Env YamlText :=
  { referenceEnv with
    providers := (∅ : StrMap ProviderStruct).insert "Planet"
      { title := "Planet"
        plugins := (∅ : StrMap StrStrMap).insert "mail"
          (((∅ : StrStrMap).insert "server" "one").insert "port" "25") } }

/-- An account of the provider with a port of its own. -/
def planetAccount : AccountObject where
  title := "Post"
  provider := "Planet"
  services := (∅ : StrMap AccountService).insert "mail"
    { params := (∅ : StrStrMap).insert "port" "587" }

/-- The account keeps its port and gets the server of the provider. -/
theorem provider_defaults_planet : ∃ curProvider act',
    planetAccount.appendProviderParams planetEnv = (true, act') ∧
      AccountObject.DefaultsAdded curProvider planetAccount act' := by
  obtain ⟨act', -, happend, hadded, -⟩ := provider_defaults planetEnv planetAccount
    { title := "Planet"
      plugins := (∅ : StrMap StrStrMap).insert "mail"
        (((∅ : StrStrMap).insert "server" "one").insert "port" "25") } (by decide +kernel)
  exact ⟨_, act', happend, hadded⟩

end PxAccounts
