import PxAccounts.Proof.ServiceRun

/-!
# Runs of the verification of an account

What is known of an account after a verification that returned, and what a verification, a clean-up
and a removal can change.
-/

namespace PxAccounts

open Effect

variable {Text : Type} {env : Env Text}

namespace AccountObject

/-! ## Provider defaults -/

theorem link_appendParams (pluginParams : StrStrMap) (svc : AccountService) :
    (appendParams pluginParams svc).link = svc.link := by
  rw [appendParams]
  generalize pluginParams.toList = l
  induction l generalizing svc with
  | nil => rfl
  | cons kv l ih =>
    rw [List.foldl_cons, ih]
    split <;> rfl

/-- The account whose services `verify` goes through. -/
def prepared (env : Env Text) (act : AccountObject) : AccountObject :=
  if act.provider.isEmpty then { act with errors := [] }
  else (appendProviderParams env { act with errors := [] }).2

/-- The same account, apart from its services and errors. -/
def SameDetails (act act' : AccountObject) : Prop :=
  act' = { act with services := act'.services, errors := act'.errors }

theorem SameDetails.owner_eq {act act' : AccountObject} (h : SameDetails act act') :
    act'.owner = act.owner := by
  rw [h]
  rfl

theorem SameDetails.trans {act₁ act₂ act₃ : AccountObject} (h₁ : SameDetails act₁ act₂)
    (h₂ : SameDetails act₂ act₃) : SameDetails act₁ act₃ := by
  rw [SameDetails, h₂, h₁]

/-- The services go on under the same names, each with its link. -/
def SameLinks (act act' : AccountObject) : Prop :=
  ∀ name : String, act'.services[name]?.map AccountService.link =
    act.services[name]?.map AccountService.link

theorem sameDetails_prepared (act : AccountObject) : SameDetails act (prepared env act) := by
  rw [prepared]
  split
  · rfl
  · rw [appendProviderParams]
    split <;> rfl

theorem sameLinks_prepared (env : Env Text) (act : AccountObject) :
    SameLinks act (prepared env act) := by
  intro name
  rw [prepared]
  split
  · rfl
  · rw [appendProviderParams]
    split
    · rfl
    next curProvider h =>
      simp only [Std.ExtTreeMap.getElem?_map, Option.map_map]
      refine Option.map_congr fun svc _ => ?_
      simp only [Function.comp_apply]
      split
      · exact link_appendParams _ _
      · rfl

/-! ## The loop over the services -/

/-- The service `name` came out of the loop with this verdict of its own `verify`. -/
def CameOut (env : Env Text) (act : AccountObject) (w w' : World Text) (verified : Bool)
    (name : String) (svc' : AccountService) : Prop :=
  ∃ svc, act.services[name]? = some svc ∧ svc'.link = svc.link ∧ (verified = true →
    (env.pluginNamed name).isSome ∧ ∃ s s', w.calls <+: s.calls ∧ s'.calls <+: w'.calls ∧
      (svc.verify env act.owner).run s = .ok (true, svc') s')

/-- The invariant of the loop over the services: `l` is what remains. -/
structure LoopInv (env : Env Text) (act : AccountObject) (w : World Text)
    (l : List (String × AccountService)) (state : Bool × AccountObject) (s : World Text) :
    Prop where
  nodup : (l.map Prod.fst).Nodup
  details : SameDetails act state.2
  calls : w.calls <+: s.calls
  remaining : ∀ kv ∈ l, act.services[kv.1]? = some kv.2
  names : ∀ name : String, name ∈ state.2.services ↔ name ∈ act.services
  done : ∀ (name : String) (svc' : AccountService), name ∉ l.map Prod.fst →
    state.2.services[name]? = some svc' → CameOut env act w s state.1 name svc'

theorem verifyService_ok {state state' : Bool × AccountObject} {kv : String × AccountService}
    {s s' : World Text} (hr : (verifyService env state kv).run s = .ok state' s') :
    ∃ svcVerified svc', (kv.2.verify env state.2.owner).run s = .ok (svcVerified, svc') s' ∧
      state'.1 = (state.1 && (env.pluginNamed kv.1).isSome && svcVerified) ∧
      SameDetails state.2 state'.2 ∧
      state'.2.services = state.2.services.insert kv.1 svc' := by
  obtain ⟨verified, act⟩ := state
  simp only [verifyService] at hr
  obtain ⟨⟨svcVerified, svc'⟩, s₁, hverify, hr⟩ := run_bind_ok.1 hr
  rw [run_pure_ok] at hr
  obtain ⟨rfl, rfl⟩ := hr
  refine ⟨svcVerified, svc', ?_, rfl, ?_, ?_⟩
  · split at hverify <;> exact hverify
  · cases svcVerified <;> cases (env.pluginNamed kv.1).isSome <;> rfl
  · cases svcVerified <;> cases (env.pluginNamed kv.1).isSome <;> rfl

theorem CameOut.mono {act : AccountObject} {w s s' : World Text} {verified verified' : Bool}
    {name : String} {svc' : AccountService} (h : CameOut env act w s verified name svc')
    (hv : verified' = true → verified = true) (hs : s.calls <+: s'.calls) :
    CameOut env act w s' verified' name svc' := by
  obtain ⟨svc, hsvc, hlink, hdone⟩ := h
  refine ⟨svc, hsvc, hlink, fun hv' => ?_⟩
  obtain ⟨hreg, s₁, s₂, h₁, h₂, hrun⟩ := hdone (hv hv')
  exact ⟨hreg, s₁, s₂, h₁, h₂.trans hs, hrun⟩

theorem LoopInv.step {act : AccountObject} {w : World Text} {kv : String × AccountService}
    {l : List (String × AccountService)} {state state' : Bool × AccountObject} {s s' : World Text}
    (h : LoopInv env act w (kv :: l) state s)
    (hr : (verifyService env state kv).run s = .ok state' s') : LoopInv env act w l state' s' := by
  obtain ⟨svcVerified, svc', hverify, hb, hdetails, hservices⟩ := verifyService_ok hr
  have hgrow : s.calls <+: s'.calls := (AccountService.calls_verify _ _).rel_of_ok hverify
  have hnodup := h.nodup
  simp only [List.map_cons, List.nodup_cons] at hnodup
  have hkv := h.remaining kv (by simp)
  refine ⟨hnodup.2, h.details.trans hdetails, h.calls.trans hgrow,
    fun kv' hkv' => h.remaining kv' (by simp [hkv']), fun name => ?_, fun name svc₁ hname hget => ?_⟩
  · rw [hservices, Std.ExtTreeMap.mem_insert, h.names,
      Std.LawfulEqCmp.compare_eq_iff_eq]
    refine or_iff_right_of_imp ?_
    rintro rfl
    exact Std.ExtTreeMap.mem_iff_isSome_getElem?.2 (by rw [hkv]; rfl)
  · rw [hservices] at hget
    by_cases he : kv.1 = name
    · subst he
      rw [Std.ExtTreeMap.getElem?_insert_self] at hget
      cases hget
      rw [h.details.owner_eq] at hverify
      have hlink : svc'.link = kv.2.link := by
        rcases AccountService.verify_ok hverify with ⟨-, hlink, -⟩ | ⟨_, _, _, _, _, _, -, -, -, hw⟩
        · exact hlink
        · exact (AccountService.link_of_customWrite hw).trans
            (AccountService.link_verifiedAs _ _ _)
      refine ⟨kv.2, hkv, hlink, fun hv => ?_⟩
      rw [hb, Bool.and_eq_true, Bool.and_eq_true] at hv
      obtain ⟨⟨-, hreg⟩, rfl⟩ := hv
      exact ⟨hreg, s, s', h.calls, List.prefix_refl _, hverify⟩
    · rw [TreeMap.getElem?_insert_of_ne he] at hget
      refine (h.done name svc₁ (by simp [hname, Ne.symm he]) hget).mono (fun hv => ?_) hgrow
      rw [hb, Bool.and_eq_true, Bool.and_eq_true] at hv
      exact hv.1.1

theorem verifyServices_ok {act act' : AccountObject} {b : Bool} {w w' : World Text}
    (hr : (act.verifyServices env).run w = .ok (b, act') w') :
    SameDetails act act' ∧ (∀ name : String, name ∈ act'.services ↔ name ∈ act.services) ∧
      ∀ (name : String) (svc' : AccountService), act'.services[name]? = some svc' →
        CameOut env act w w' b name svc' := by
  have hinit : LoopInv env act w act.services.toList (true, act) w :=
    ⟨TreeMap.nodup_keys_toList _, rfl, List.prefix_refl _,
      fun kv hkv => Std.ExtTreeMap.mem_toList_iff_getElem?_eq_some.1 hkv, fun _ => Iff.rfl,
      fun name svc' hname hget => absurd hget (by
        rw [Std.ExtTreeMap.map_fst_toList_eq_keys, Std.ExtTreeMap.mem_keys] at hname
        rw [Std.ExtTreeMap.getElem?_eq_none hname]
        simp)⟩
  have hend := foldlM_ok_induction (LoopInv env act w)
    (fun kv l state s state' s' h hs => h.step hs) _ hinit hr
  exact ⟨hend.details, hend.names, fun name svc' => hend.done name svc' (by simp)⟩

/-! ## The whole verification -/

/-- The part of `verify` after the provider defaults. -/
def verifyPrepared (env : Env Text) (act : AccountObject) : M Text (Bool × AccountObject) := do
  let (verified, act) ← act.verifyServices env
  if !verified then
    act.removeAllSecrets env
  return (verified, act)

/-- `verify` gets as far as the services. -/
def ReachesServices (env : Env Text) (act : AccountObject) : Prop :=
  act.title.isEmpty = false ∧ (act.provider.isEmpty = true ∨ act.provider ∈ env.providers)

theorem verify_of_reaches {act : AccountObject} (h : ReachesServices env act) :
    act.verify env = verifyPrepared env (prepared env act) := by
  obtain ⟨htitle, hprovider⟩ := h
  simp only [verify, prepared, htitle, Bool.false_eq_true, if_false]
  rcases Bool.eq_false_or_eq_true act.provider.isEmpty with hempty | hempty
  · simp only [hempty, if_true]
    rfl
  · have hknown := hprovider.resolve_left (by rw [hempty]; decide)
    obtain ⟨p, hp⟩ := Option.isSome_iff_exists.1 (Std.ExtTreeMap.isSome_getElem?_iff_mem.2 hknown)
    simp only [hempty, Bool.false_eq_true, if_false, appendProviderParams, hp]
    rfl

theorem run_verify_of_not_reaches {act : AccountObject} (h : ¬ReachesServices env act)
    (w : World Text) : ∃ act', (act.verify env).run w = .ok (false, act') w ∧
      SameDetails act act' := by
  simp only [verify]
  split
  · exact ⟨_, rfl, rfl⟩
  next htitle =>
    rw [Bool.not_eq_true] at htitle
    have hprovider := not_or.1 fun hor => h ⟨htitle, hor⟩
    have hunknown : env.providers[act.provider]? = none :=
      Std.ExtTreeMap.getElem?_eq_none hprovider.2
    simp only [hprovider.1, Bool.false_eq_true, if_false, appendProviderParams, hunknown]
    exact ⟨_, rfl, rfl⟩

theorem verifyPrepared_ok {act act' : AccountObject} {b : Bool} {w w' : World Text}
    (hr : (act.verifyPrepared env).run w = .ok (b, act') w') :
    ∃ w₁, (act.verifyServices env).run w = .ok (b, act') w₁ ∧
      ((b = true ∧ w' = w₁) ∨ (b = false ∧ (act'.removeAllSecrets env).run w₁ = .ok () w')) := by
  simp only [verifyPrepared] at hr
  obtain ⟨⟨verified, act₁⟩, w₁, hservices, hr⟩ := run_bind_ok.1 hr
  cases verified with
  | true =>
    rw [if_neg (by simp), run_pure_ok] at hr
    obtain ⟨he, rfl⟩ := hr
    cases he
    exact ⟨w₁, hservices, .inl ⟨rfl, rfl⟩⟩
  | false =>
    rw [if_pos (by simp)] at hr
    obtain ⟨_, w₂, hremove, hr⟩ := run_bind_ok.1 hr
    rw [run_pure_ok] at hr
    obtain ⟨he, rfl⟩ := hr
    cases he
    exact ⟨w₁, hservices, .inr ⟨rfl, hremove⟩⟩

/-- The spec of `verify`: an account refused before its services are reached leaves everything as it
is; otherwise the services are gone through, and their secrets withdrawn when one is refused. -/
theorem verify_ok {act act' : AccountObject} {b : Bool} {w w' : World Text}
    (hr : (act.verify env).run w = .ok (b, act') w') :
    (b = false ∧ w' = w ∧ SameDetails act act' ∧ ¬ReachesServices env act) ∨
      ReachesServices env act ∧ ∃ w₁,
        ((prepared env act).verifyServices env).run w = .ok (b, act') w₁ ∧
        ((b = true ∧ w' = w₁) ∨ (b = false ∧ (act'.removeAllSecrets env).run w₁ = .ok () w')) := by
  by_cases h : ReachesServices env act
  · rw [verify_of_reaches h] at hr
    exact .inr ⟨h, verifyPrepared_ok hr⟩
  · obtain ⟨act₁, hrun, hdetails⟩ := run_verify_of_not_reaches h w
    rw [hrun] at hr
    cases hr
    exact .inl ⟨rfl, rfl, hdetails, h⟩

/-! ## Frames -/

variable {F : Frame (World Text)} {K : Set String}

/-- The request to remove the secrets of a service of an account is allowed. -/
def AllowsRemoval (env : Env Text) (F : Frame (World Text)) (id : Uuid) (svcName : String) : Prop :=
  uuidIsNull id = false → Within F (SecretManager.removeService env id svcName)

theorem within_removeSecrets {owner : Owner} {svc : AccountService}
    (h : AllowsRemoval env F owner.id svc.name) : Within F (svc.removeSecrets env owner) := by
  refine Within.bind_ok (within_derefAccount svc owner) fun account s s' hr => ?_
  obtain ⟨-, rfl, -⟩ := AccountService.derefAccount_ok hr
  exact within_ite (fun _ => within_pure _) fun hid => h (by simpa [Owner.isIdSet] using hid)

theorem within_verifyServices_of {act : AccountObject}
    (h : ∀ (name : String) (svc : AccountService), act.services[name]? = some svc →
      Within F (svc.verify env act.owner)) : Within F (act.verifyServices env) := by
  refine within_foldlM_of (fun state : Bool × AccountObject => SameDetails act state.2) ?_ ?_ rfl
  · rintro ⟨verified, act₁⟩ hdetails ⟨name, svc⟩ hkv
    simp only [verifyService]
    have howner : (if (env.pluginNamed name).isSome then act₁ else
        act₁.addError ("Unknown service '" ++ name ++ "'")).owner = act.owner := by
      rw [← SameDetails.owner_eq hdetails]
      split <;> rfl
    rw [howner]
    exact (h name svc (Std.ExtTreeMap.mem_toList_iff_getElem?_eq_some.1 hkv)).bind
      fun r => within_pure _
  · rintro state hdetails kv - s state' s' hr
    obtain ⟨_, _, -, -, hstep, -⟩ := verifyService_ok hr
    exact hdetails.trans hstep

theorem within_verifyServices (hF : Asking F) (hlack : TokensLack env K)
    (hwrite : ∀ plugin vResult aResult, Within F (env.callWrite plugin vResult aResult))
    {act : AccountObject} (hset : ∀ (name : String) (svc : AccountService),
      act.services[name]? = some svc → AllowsLinked env F K act.id svc.name) :
    Within F (act.verifyServices env) :=
  within_verifyServices_of fun name svc hget =>
    AccountService.within_verify hF hlack hwrite (hset name svc hget)

theorem within_removeAllSecrets {act : AccountObject} (h : ∀ (name : String) (svc : AccountService),
    act.services[name]? = some svc → AllowsRemoval env F act.id svc.name) :
    Within F (act.removeAllSecrets env) :=
  within_forM fun kv hkv => Within.bind (within_removeSecrets
    (h kv.1 kv.2 (Std.ExtTreeMap.mem_toList_iff_getElem?_eq_some.1 hkv))) fun _ => within_pure _

theorem services_prepared_name {act : AccountObject} {P : String → Prop}
    (h : ∀ (name : String) (svc : AccountService), act.services[name]? = some svc → P svc.name)
    (name : String) (svc : AccountService)
    (hget : (prepared env act).services[name]? = some svc) : P svc.name := by
  have hlinks := sameLinks_prepared env act name
  rw [hget, Option.map_some] at hlinks
  obtain ⟨svc₀, h₀, hlink⟩ := Option.map_eq_some_iff.1 hlinks.symm
  have hname : svc₀.name = svc.name := congrArg Prod.fst hlink
  exact hname ▸ h name svc₀ h₀

/-- What the verification of an account changes is what the requests about its id and the names of
its services change, and what the plugins' `write` changes. -/
theorem within_verify (hF : Asking F) (hlack : TokensLack env K)
    (hwrite : ∀ plugin vResult aResult, Within F (env.callWrite plugin vResult aResult))
    {act : AccountObject} (hset : ∀ (name : String) (svc : AccountService),
      act.services[name]? = some svc → AllowsLinked env F K act.id svc.name)
    (hremove : ∀ (name : String) (svc : AccountService),
      act.services[name]? = some svc → AllowsRemoval env F act.id svc.name) :
    Within F (act.verify env) := by
  by_cases h : ReachesServices env act
  · have hid : (prepared env act).id = act.id := congrArg Owner.id (sameDetails_prepared act).owner_eq
    rw [verify_of_reaches h]
    refine Within.bind_ok (within_verifyServices hF hlack hwrite ?_) ?_
    · rw [hid]
      exact services_prepared_name hset
    rintro ⟨verified, act₁⟩ s s' hr
    obtain ⟨hdetails, -, hout⟩ := verifyServices_ok hr
    refine within_ite (fun _ => Within.bind (within_removeAllSecrets fun name svc' hget => ?_)
      fun _ => within_pure _) fun _ => within_pure _
    obtain ⟨svc, hsvc, hlink, -⟩ := hout name svc' hget
    have hname : svc'.name = svc.name := congrArg Prod.fst hlink
    have hid₁ : act₁.id = act.id := (congrArg Owner.id hdetails.owner_eq).trans hid
    rw [hid₁, hname]
    exact services_prepared_name hremove name svc hsvc
  · intro w
    obtain ⟨act', hrun, -⟩ := run_verify_of_not_reaches h w
    rw [hrun]
    exact F.refl w

theorem calls_verify (act : AccountObject) : Within callsFrame (act.verify env) :=
  within_verify (K := ∅) quiet_callsFrame.asking (fun _ _ _ _ _ _ _ _ h => absurd h (by simp))
    (fun _ _ _ _ => List.prefix_append _ _) (fun _ _ _ _ _ _ => List.prefix_append _ _)
    fun _ _ _ _ => Within.bind (fun _ => List.prefix_append _ _) fun _ => within_pure _

theorem within_cleanup {oldAct newAccount : AccountObject}
    (h : ∀ (name : String) (svc : AccountService), oldAct.services[name]? = some svc →
      name ∉ newAccount.services → AllowsRemoval env F oldAct.id svc.name) :
    Within F (oldAct.cleanup env newAccount) := by
  refine Within.bind (within_forM fun kv hkv => within_ite (fun hnot => ?_) fun _ => within_pure _)
    fun _ => within_pure _
  refine Within.bind (within_removeSecrets
    (h kv.1 kv.2 (Std.ExtTreeMap.mem_toList_iff_getElem?_eq_some.1 hkv) ?_)) fun _ => within_pure _
  intro hmem
  rw [hasService, Std.ExtTreeMap.mem_iff_contains.1 hmem] at hnot
  exact absurd hnot (by decide)

theorem within_performServiceCustomRemoval
    (hremove : ∀ plugin id, Within F (env.callRemove plugin id)) (svc : AccountService) :
    Within F (svc.performServiceCustomRemoval env) := by
  rw [AccountService.performServiceCustomRemoval]
  cases svc.params[pluginIdParam]? with
  | none => exact within_pure _
  | some pluginId =>
    refine (within_derefPlugin svc).bind fun plugin =>
      ((hremove _ _).bind fun _ => within_pure _).bind fun result => ?_
    cases result with
    | ok removed => exact within_pure _
    | error what => exact within_pure _

theorem within_removeServices (hremove : ∀ plugin id, Within F (env.callRemove plugin id))
    (svcs : List AccountService) : Within F (removeServices env svcs) := by
  induction svcs with
  | nil => exact within_pure _
  | cons svc svcs ih =>
    exact (within_performServiceCustomRemoval hremove svc).bind fun removed =>
      within_ite (fun _ => ih) fun _ => within_pure _

theorem within_performAccountRemoval
    (hremove : ∀ plugin id, Within F (env.callRemove plugin id)) {act : AccountObject}
    (hdelete : Within F (SecretManager.removeAccount env act.id)) :
    Within F (act.performAccountRemoval env) := by
  refine (within_removeServices hremove _).bind fun r => ?_
  cases r with
  | some svc => exact within_pure _
  | none => exact hdelete.bind fun _ => within_ite (fun _ => within_pure _) fun _ => within_pure _

/-! ## Frames that let every secret and record change -/

/-- The frame is not about secrets and records. -/
structure Lenient (env : Env Text) (F : Frame (World Text)) : Prop extends Quiet F where
  setSecret : ∀ item, Within F (env.callSetSecret item)
  deleteSecret : ∀ attributes, Within F (env.callDeleteSecret attributes)
  write : ∀ plugin vResult aResult, Within F (env.callWrite plugin vResult aResult)
  remove : ∀ plugin id, Within F (env.callRemove plugin id)

/-- What a frame is about when it is neither about the secrets nor about the records. -/
def rest (w : World Text) : (String → StrMap Text) × StrMap AccountStatus × List Event :=
  (w.files, w.statDict, w.events)

theorem lenient_rest (env : Env Text) : Lenient env (Frame.eqOn rest) where
  record _ _ _ := rfl
  log _ _ := rfl
  setSecret _ _ := rfl
  deleteSecret _ _ := rfl
  write _ _ _ _ := rfl
  remove _ _ _ := rfl

theorem Lenient.verify (h : Lenient env F) (act : AccountObject) : Within F (act.verify env) :=
  within_verify (K := ∅) h.toQuiet (fun _ _ _ _ _ _ _ _ hk => absurd hk (by simp)) h.write
    (fun _ _ _ _ _ => h.setSecret _)
    fun _ _ _ _ => (h.deleteSecret _).bind fun _ => within_pure _

theorem Lenient.cleanup (h : Lenient env F) (oldAct newAccount : AccountObject) :
    Within F (oldAct.cleanup env newAccount) :=
  within_cleanup fun _ _ _ _ _ => (h.deleteSecret _).bind fun _ => within_pure _

theorem Lenient.performAccountRemoval (h : Lenient env F) (act : AccountObject) :
    Within F (act.performAccountRemoval env) :=
  within_performAccountRemoval h.remove ((h.deleteSecret _).bind fun _ => within_pure _)

end AccountObject

end PxAccounts
