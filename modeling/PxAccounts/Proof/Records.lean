import PxAccounts.Lib.Holding
import PxAccounts.Proof.Orphans
import PxAccounts.Proof.RecordIds
import PxAccounts.Proof.Removal

/-!
# The records of the plugins

A plugin with a storage of its own makes a record at the end of the verification of a service, before
it is known whether the other services are accepted.  The record is found again through the account
file only.  So it is lost when another service is refused, and when the file that names it is written
over.
-/

namespace PxAccounts

open Effect Run Holding AccountManager
open AccountParser (stored storedService)

variable {Text : Type} {env : Env Text} {custom : Set String}

/-! ## Records made and named -/

/-- What the plugins in `custom` do with records of their own, and the others do not. -/
structure OwnStorage (env : Env Text) (custom : Set String) : Prop where
  makes : ∀ n plugin vResult aResult records, plugin.title ∈ custom →
    ∃ id, env.write n plugin vResult aResult records =
      (some (.returned id), records ++ [{ plugin := plugin.title, id }])
  removes : ∀ n plugin id records, plugin.title ∈ custom →
    env.remove n plugin id records =
      (some (.returned true), records.filter (· ≠ { plugin := plugin.title, id }))
  makesNone : ∀ n plugin vResult aResult records, plugin.title ∉ custom →
    env.write n plugin vResult aResult records = (none, records)
  removesNone : ∀ n plugin id records, plugin.title ∉ custom →
    env.remove n plugin id records = (none, records)

/-- The record that a call made. -/
def Call.made (c : Call Text) : Option PluginRecord :=
  c.issued.map fun r => { plugin := r.1, id := r.2 }

/-- The records that calls made. -/
def made (cs : List (Call Text)) : List PluginRecord := cs.filterMap Call.made

/-- The records of plugins with a storage of their own. -/
def ownRecords (custom : Set String) (w : World Text) : Set PluginRecord :=
  {r | r ∈ w.records ∧ r.plugin ∈ custom}

/-- The records that an account file names. -/
def namedInText (env : Env Text) (file : Option Text) : Set PluginRecord :=
  {r | ∃ text acc, file = some text ∧ AccountParser.readText env text {} = .ok acc ∧
    NamesRecord acc r}

/-- The records named in the account file of an id in a directory. -/
def namedIn (env : Env Text) (w : World Text) (place : AccountParser × Uuid) : Set PluginRecord :=
  {r | place.1 ∈ env.parsers ∧
    r ∈ namedInText env (w.fileAt (place.1.accountPath env place.2))}

/-- Every record is named by exactly one service of exactly one stored account file. -/
def NoLeaks (env : Env Text) (custom : Set String) (w : World Text) : Prop :=
  HeldOnce (ownRecords custom w) (namedIn env w)

theorem made_append (cs cs' : List (Call Text)) : made (cs ++ cs') = made cs ++ made cs' :=
  List.filterMap_append

theorem made_of_unissued {cs : List (Call Text)} (h : ∀ c ∈ cs, c.issued = none) : made cs = [] :=
  List.filterMap_eq_nil_iff.2 fun c hc => by rw [Call.made, h c hc, Option.map_none]

theorem mem_made {cs : List (Call Text)} {r : PluginRecord} :
    r ∈ made cs ↔ ∃ c ∈ cs, c.issued = some (r.plugin, r.id) := by
  simp only [made, List.mem_filterMap, Call.made, Option.map_eq_some_iff]
  refine exists_congr fun c => and_congr_right fun _ => ⟨?_, fun h => ⟨_, h, rfl⟩⟩
  rintro ⟨r', h, rfl⟩
  exact h

theorem made_subset {w w₀ w₁ w' : World Text} {cs : List (Call Text)}
    (hcs : w₁.calls = w₀.calls ++ cs) (hbefore : w.calls <+: w₀.calls)
    (hafter : w₁.calls <+: w'.calls) : made cs ⊆ made (w.newCalls w') := by
  intro r hr
  obtain ⟨c, hc, hissued⟩ := mem_made.1 hr
  rw [← newCalls_eq hcs] at hc
  exact mem_made.2
    ⟨c, World.newCalls_mono_left hbefore (World.newCalls_mono_right hafter hc), hissued⟩

/-- The records are those there were and those that the calls made. -/
def making : Frame (World Text) where
  rel w w' := ∃ cs, w'.calls = w.calls ++ cs ∧ w'.records = w.records ++ made cs
  refl w := ⟨[], by simp [made]⟩
  trans := by
    rintro s t u ⟨cs, hcs, hmade⟩ ⟨cs', hcs', hmade'⟩
    exact ⟨cs ++ cs', by rw [hcs', hcs, List.append_assoc],
      by rw [hmade', hmade, made_append, List.append_assoc]⟩

theorem making_of_unissued {w w' : World Text} {cs : List (Call Text)}
    (hrecords : w'.records = w.records) (hcs : w'.calls = w.calls ++ cs)
    (h : ∀ c ∈ cs, c.issued = none) : making.rel w w' :=
  ⟨cs, hcs, by rw [made_of_unissued h, hrecords, List.append_nil]⟩

theorem issued_of_isQuery {c : Call Text} (h : c.IsQuery) : c.issued = none := by
  cases c <;> first | rfl | cases h

theorem quiet_making : Quiet (making : Frame (World Text)) where
  record w c hc := making_of_unissued rfl rfl (by simpa using issued_of_isQuery hc)
  log w lines := making_of_unissued rfl (List.append_nil _).symm (by simp)

theorem making_callWrite (h : OwnStorage env custom) (plugin : PluginContainer)
    (vResult : VerifyResult) (aResult : AuthResult) :
    Within making (env.callWrite plugin vResult aResult) := by
  intro w
  refine ⟨[.write plugin.title vResult aResult
    (env.write w.tick plugin vResult aResult w.records).1], rfl, ?_⟩
  change (env.write w.tick plugin vResult aResult w.records).2 = _
  by_cases hplugin : plugin.title ∈ custom
  · obtain ⟨id, hwrite⟩ := h.makes w.tick plugin vResult aResult w.records hplugin
    rw [hwrite]
    rfl
  · rw [h.makesNone w.tick plugin vResult aResult w.records hplugin]
    exact (List.append_nil _).symm

theorem making_callDeleteSecret (attributes : List (String × String)) :
    Within making (env.callDeleteSecret attributes) := fun _ =>
  making_of_unissued rfl rfl (by simp [Call.issued])

theorem making_callSetSecret (item : RPCSecretItem) : Within making (env.callSetSecret item) :=
  fun _ => making_of_unissued rfl rfl (by simp [Call.issued])

/-! ## The verification of a service -/

/-- A service that is accepted names the record that its plugin made, and a refused one made none.
-/
theorem made_of_service (h : OwnStorage env custom) {owner : Owner} {svc svc' : AccountService}
    {name : String} {b : Bool} {w w' : World Text} (hlinked : svc.LinkedAs env name)
    (hr : (svc.verify env owner).run w = .ok (b, svc') w') :
    ∃ cs, w'.calls = w.calls ++ cs ∧ w'.records = w.records ++ made cs ∧
      (b = false → made cs = []) ∧ (b = true → ∀ r : PluginRecord, r.plugin ∈ custom →
        (r ∈ made cs ↔ r.plugin = name ∧
          (storedService env name svc').params[pluginIdParam]? = some r.id)) := by
  have hwithin : Within making (svc.verify env owner) :=
    AccountService.within_verify (K := ∅) quiet_making.asking
      (fun _ _ _ _ _ _ _ _ h => absurd h (by simp)) (making_callWrite h)
      fun _ _ => making_callSetSecret _
  obtain ⟨cs, hcs, hmade⟩ := hwithin.rel_of_ok hr
  refine ⟨cs, hcs, hmade, ?_⟩
  rcases AccountService.verify_ok hr with ⟨rfl, -, hbefore⟩ |
    ⟨plugin, vResult, params, aResult, errs, w₁, rfl, hacc, hbefore, hwrite⟩
  · have hsame : w'.records = w.records :=
      hbefore (Frame.eqOn World.records) ⟨fun _ _ _ => rfl, fun _ _ => rfl⟩ fun _ _ => rfl
    refine ⟨fun _ => ?_, fun hb => absurd hb (by decide)⟩
    exact List.append_right_eq_self.1 (hmade.symm.trans hsame)
  · have hsame : w₁.records = w.records :=
      hbefore (Frame.eqOn World.records) ⟨fun _ _ _ => rfl, fun _ _ => rfl⟩ fun _ _ => rfl
    obtain ⟨plugin', hp, hrecords, hcase⟩ := AccountService.customWrite_ok hwrite
    have hlink := AccountService.link_verifiedAs svc params errs
    have htitle : plugin'.title = name := (hlinked.congr hlink).title_eq hp
    refine ⟨fun hb => absurd hb (by decide), fun _ r hr => ?_⟩
    rw [hmade, hsame] at hrecords
    by_cases hname : name ∈ custom
    · obtain ⟨id, hid⟩ := h.makes w₁.tick plugin' { vResult with params } aResult w.records
        (htitle ▸ hname)
      rw [hsame, hid] at hcase
      rw [hid] at hrecords
      rcases hcase with ⟨pluginId, hanswer, rfl⟩ | ⟨hnone, -⟩
      · cases hanswer
        have hparam : (storedService env name
            ((svc.verifiedAs params errs).withPluginId id)).params[pluginIdParam]? = some r.id ↔
            id = r.id := by
          rw [AccountParser.storedService_params]
          simp [AccountService.withPluginId, AccountService.isProtected, AccountService.clearService]
        rw [List.append_cancel_left hrecords, List.mem_singleton, hparam, htitle]
        cases r
        simp [eq_comm]
      · exact absurd rfl (hnone id)
    · rw [h.makesNone _ _ _ _ _ (htitle ▸ hname)] at hrecords
      rw [List.append_right_eq_self.1 hrecords]
      refine iff_of_false (by simp) fun hand => hname ?_
      rw [← hand.1]
      exact hr

/-! ## Refusals -/

/-- The answer of a plugin, the secret service or the file system that stops a call of the account
manager without an exception; a file write that is cut short is one that goes unnoticed. -/
def Call.refuses : Call Text → Bool
  | .verify _ _ (.returned result) => !result.verified
  | .verify _ _ _ => true
  | .authenticate _ _ (.returned result) => !result.authenticated
  | .authenticate _ _ _ => true
  | .setSecret _ reply => !(SecretManager.succeeded reply).1
  | .writeFile _ _ outcome => outcome ≠ .complete
  | _ => false

/-- A refusal was among the calls. -/
def Refused (w w' : World Text) : Prop := ∃ c ∈ w.newCalls w', c.refuses = true

theorem absorbs_refused : Absorbs callsFrame (Refused : World Text → World Text → Prop) where
  before := fun h ⟨c, hc, hrefuses⟩ => ⟨c, World.newCalls_mono_left h hc, hrefuses⟩
  after := fun ⟨c, hc, hrefuses⟩ h => ⟨c, World.newCalls_mono_right h hc, hrefuses⟩

theorem refused_record {w w' : World Text} {c : Call Text} (h : w'.calls = w.calls ++ [c])
    (hc : c.refuses = true) : Refused w w' :=
  ⟨c, by rw [newCalls_eq h]; exact List.mem_singleton_self c, hc⟩

section

variable {owner : Owner} {svc : AccountService} {plugin : PluginContainer}

theorem tells_pluginVerify (params : StrStrMap) :
    Tells (·.verified = false) Refused (plugin.verify env params) := by
  refine Tells.bind (B := fun answer => (.verify plugin.title params answer : Call Text).refuses = true)
    absorbs_refused (within_callVerify quiet_callsFrame.asking plugin params) ?_ ?_ ?_
  · intro w answer w' hr hrefuses
    obtain ⟨rfl, rfl⟩ := run_modifyGet_ok.1 hr
    exact refused_record rfl hrefuses
  · rintro answer -
    cases answer with
    | returned result => exact within_pure _
    | raised what => exact within_throw _
    | errorAlreadySet what =>
      cases plugin.type with
      | pythonPlugin => exact within_pure _
      | cppPlugin => exact within_throw _
  · intro answer hnot
    cases answer with
    | returned result => exact tells_pure (by simpa [Call.refuses] using hnot)
    | raised what => exact absurd rfl hnot
    | errorAlreadySet what => exact absurd rfl hnot

theorem tells_pluginAuthenticate (params : ServiceParamList) :
    Tells (·.authenticated = false) Refused (plugin.authenticate env params) := by
  refine Tells.bind
    (B := fun answer => (.authenticate plugin.title params answer : Call Text).refuses = true)
    absorbs_refused (within_callAuthenticate quiet_callsFrame.asking plugin params) ?_ ?_ ?_
  · intro w answer w' hr hrefuses
    obtain ⟨rfl, rfl⟩ := run_modifyGet_ok.1 hr
    exact refused_record rfl hrefuses
  · rintro answer -
    cases answer with
    | returned result => exact within_pure _
    | raised what => exact within_throw _
    | errorAlreadySet what =>
      cases plugin.type with
      | pythonPlugin => exact within_pure _
      | cppPlugin => exact within_throw _
  · intro answer hnot
    cases answer with
    | returned result => exact tells_pure (by simpa [Call.refuses] using hnot)
    | raised what => exact absurd rfl hnot
    | errorAlreadySet what => exact absurd rfl hnot

/-- The parameters of a service that has a plugin are only refused by the plugin. -/
theorem tells_verifyParams (hplugin : svc.plugin.isSome) :
    Tells (·.1 = none) Refused (svc.verifyParams env owner) := by
  have hq : Asking (callsFrame : Frame (World Text)) := quiet_callsFrame.asking
  obtain ⟨plugin, hp⟩ := Option.isSome_iff_exists.1 hplugin
  rw [AccountService.verifyParams, hp]
  refine (tells_pluginVerify _).bind absorbs_refused (within_pluginVerify hq _ _) ?_ ?_
  · intro result hnot
    rw [if_pos (by simp [hnot])]
    exact within_pure _
  · intro result hverified
    rw [if_neg (by simpa using hverified)]
    refine tells_bind_right absorbs_refused (within_derefAccount svc owner) fun account => ?_
    refine tells_bind_right absorbs_refused (within_search hq.searching _) fun _ => ?_
    refine tells_bind_right absorbs_refused
      (within_mapM fun param _ => within_loadSecret hq.searching _ _ param) fun params => ?_
    refine tells_bind_right absorbs_refused (within_glog hq.searching _ _) fun _ => ?_
    refine tells_bind_right absorbs_refused
      (within_forM fun param _ => within_glog hq.searching _ _) fun _ => ?_
    exact tells_pure (by simp)

theorem tells_authenticate (vResult : VerifyResult) :
    Tells (·.1 = none) Refused (svc.authenticate env vResult) := by
  have hq : Asking (callsFrame : Frame (World Text)) := quiet_callsFrame.asking
  refine tells_bind_right absorbs_refused (within_derefPlugin svc) fun plugin => ?_
  refine (tells_pluginAuthenticate _).bind absorbs_refused (within_pluginAuthenticate hq _ _) ?_ ?_
  · intro result hnot
    dsimp only
    rw [if_pos (by simp [hnot])]
    exact within_pure _
  · intro result hauthenticated
    dsimp only
    rw [if_neg (by simpa using hauthenticated)]
    refine tells_bind_right absorbs_refused (within_glog hq.searching _ _) fun _ => ?_
    refine tells_bind_right absorbs_refused (within_forM fun token _ => ?_) fun _ =>
      tells_pure (by simp)
    exact (within_glog hq.searching _ _).bind fun _ =>
      within_forM fun attrib _ => within_glog hq.searching _ _

theorem calls_callSetSecret (item : RPCSecretItem) :
    Within callsFrame (env.callSetSecret item) := fun _ => List.prefix_append _ _

theorem tells_setSecret (item : SecretItem) :
    Tells (· = false) Refused (SecretManager.setSecret env item) := by
  have hq : Searching (callsFrame : Frame (World Text)) := quiet_callsFrame.asking.searching
  refine tells_bind_right absorbs_refused (within_glog hq _ _) fun _ => ?_
  refine Tells.bind (B := fun reply => (SecretManager.succeeded reply).1 = false)
    absorbs_refused (calls_callSetSecret _) ?_ ?_ ?_
  · intro w reply w' hr hnot
    obtain ⟨rfl, rfl⟩ := run_modifyGet_ok.1 hr
    exact refused_record rfl (by simp [Call.refuses, hnot])
  · rintro reply -
    exact (within_logUnreachable hq reply).bind fun _ => within_ite
      (fun _ => (within_glog hq _ _).bind fun _ => within_pure _) fun _ => within_pure _
  · intro reply hsucceeded
    refine tells_bind_right absorbs_refused (within_logUnreachable hq reply) fun _ => ?_
    rw [Bool.not_eq_false] at hsucceeded
    simp only [hsucceeded]
    exact tells_pure (by simp)

theorem tells_saveItems (items : List SecretItem) :
    Tells (· = false) Refused (AccountService.saveItems env items) := by
  have hq : Searching (callsFrame : Frame (World Text)) := quiet_callsFrame.asking.searching
  induction items with
  | nil => exact tells_pure (by simp)
  | cons item items ih =>
    refine tells_bind_right absorbs_refused (within_glog hq _ _) fun _ => ?_
    refine (tells_setSecret item).bind absorbs_refused
      (within_setSecret hq (calls_callSetSecret _)) ?_ ?_
    · rintro saved rfl
      exact (within_glog hq _ _).bind fun _ => within_pure _
    · intro saved hsaved
      rw [Bool.not_eq_false] at hsaved
      rw [if_pos hsaved]
      exact ih

theorem tells_saveProtectedParams (aResult : AuthResult) :
    Tells (·.1 = false) Refused (svc.saveProtectedParams env owner aResult) := by
  have hq : Searching (callsFrame : Frame (World Text)) := quiet_callsFrame.asking.searching
  refine tells_bind_right absorbs_refused (within_glog hq _ _) fun _ => ?_
  refine tells_bind_right absorbs_refused
    (within_foldlM (fun state token _ => within_collectStep hq owner state token) _) fun state => ?_
  refine (tells_saveItems _).bind absorbs_refused
    (within_saveItems hq fun item _ => calls_callSetSecret _) ?_ ?_
  · rintro saved rfl
    exact within_pure _
  · intro saved hsaved
    rw [Bool.not_eq_false] at hsaved
    rw [if_pos hsaved]
    exact tells_pure (by simp)

/-- A service with a plugin is only refused by an answer from outside. -/
theorem tells_verify (hplugin : svc.plugin.isSome) :
    Tells (·.1 = false) Refused (svc.verify env owner) := by
  have hq : Asking (callsFrame : Frame (World Text)) := quiet_callsFrame.asking
  have hsave : ∀ (aResult : AuthResult) (svc : AccountService),
      Within callsFrame (svc.saveProtectedParams env owner aResult) := fun aResult svc =>
    within_saveProtectedParams (K := ∅) hq.searching (fun _ _ _ hkey => absurd hkey (by simp))
      fun _ _ => calls_callSetSecret _
  have hwrite : ∀ vResult aResult (svc : AccountService),
      Within callsFrame (svc.customWrite env vResult aResult) := fun vResult aResult svc =>
    AccountService.within_customWrite hq.searching (fun _ _ _ _ => List.prefix_append _ _) _ _ _
  have hparams : Tells (·.1 = none) Refused
      (({ svc with errors := [] } : AccountService).verifyParams env owner) :=
    tells_verifyParams hplugin
  refine hparams.bind absorbs_refused (within_verifyParams hq _ _) ?_ ?_
  · rintro ⟨r, svc₁⟩ rfl
    exact (within_glog hq.searching _ _).bind fun _ => within_pure _
  rintro ⟨_ | vResult, svc₁⟩ hsome
  · exact absurd rfl hsome
  refine (tells_authenticate vResult).bind absorbs_refused (within_authenticate hq _ _) ?_ ?_
  · rintro ⟨r, svc₂⟩ rfl
    exact within_pure _
  rintro ⟨_ | aResult, svc₂⟩ hsome
  · exact absurd rfl hsome
  refine (tells_saveProtectedParams aResult).bind absorbs_refused (hsave _ _) ?_ ?_
  · rintro ⟨saved, svc₃⟩ rfl
    exact within_pure _
  rintro ⟨_ | _, svc₃⟩ hsaved
  · exact absurd rfl hsaved
  · exact tells_bind_right absorbs_refused (hwrite _ _ _) fun _ => tells_pure (by simp)

end

/-! ## The verification of an account -/

theorem namesRecord_stored {act : AccountObject} {r : PluginRecord} :
    NamesRecord (stored env act) r ↔ ∃ svc, act.services[r.plugin]? = some svc ∧
      (storedService env r.plugin svc).params[pluginIdParam]? = some r.id := by
  simp only [NamesRecord, AccountParser.stored_services_getElem?, Option.map_eq_some_iff]
  constructor
  · rintro ⟨_, ⟨svc, hsvc, rfl⟩, hid⟩
    exact ⟨svc, hsvc, hid⟩
  · rintro ⟨svc, hsvc, hid⟩
    exact ⟨_, ⟨svc, hsvc, rfl⟩, hid⟩

/-- What the loop over the services has made when `l` is left: a record for each service done,
unless there was a refusal. -/
structure LoopMade (env : Env Text) (custom : Set String) (w : World Text)
    (l : List (String × AccountService)) (state : Bool × AccountObject) (s : World Text) : Prop where
  nodup : (l.map Prod.fst).Nodup
  linked : ∀ kv ∈ l, kv.2.LinkedAs env kv.1
  made : ∃ cs, s.calls = w.calls ++ cs ∧ (state.1 = true → ∀ r : PluginRecord, r.plugin ∈ custom →
    (r ∈ made cs ↔ r.plugin ∉ l.map Prod.fst ∧ NamesRecord (stored env state.2) r))
  refused : state.1 = false → Refused w s

theorem LoopMade.step (h : OwnStorage env custom) {w : World Text} {kv : String × AccountService}
    {l : List (String × AccountService)} {state state' : Bool × AccountObject} {s s' : World Text}
    (hloop : LoopMade env custom w (kv :: l) state s)
    (hr : (AccountObject.verifyService env state kv).run s = .ok state' s') :
    LoopMade env custom w l state' s' := by
  obtain ⟨name, svc⟩ := kv
  obtain ⟨accepted, svc', hverify, hb, -, hservices⟩ := AccountObject.verifyService_ok hr
  have hlinked : svc.LinkedAs env name := hloop.linked (name, svc) (by simp)
  rw [hlinked.registered, Bool.and_true] at hb
  obtain ⟨cs, hcs, hmade⟩ := hloop.made
  obtain ⟨cs', hcs', -, -, hmade'⟩ := made_of_service h hlinked hverify
  have hnodup := List.nodup_cons.1 hloop.nodup
  have hcalls : w.calls <+: s.calls := by
    rw [hcs]
    exact List.prefix_append _ _
  have hcalls' : s.calls <+: s'.calls := by
    rw [hcs']
    exact List.prefix_append _ _
  refine ⟨hnodup.2, fun kv' hkv' => hloop.linked kv' (by simp [hkv']),
    ⟨cs ++ cs', by rw [hcs', hcs, List.append_assoc], fun hstate r hcustom => ?_⟩, fun hstate => ?_⟩
  · rw [hb, Bool.and_eq_true] at hstate
    rw [made_append, List.mem_append, hmade hstate.1 r hcustom, hmade' hstate.2 r hcustom,
      namesRecord_stored, namesRecord_stored, hservices]
    by_cases hname : r.plugin = name
    · subst hname
      rw [Std.ExtTreeMap.getElem?_insert_self]
      simp [hnodup.1]
    · rw [TreeMap.getElem?_insert_of_ne (Ne.symm hname)]
      simp [hname]
  · rw [hb, Bool.and_eq_false_iff] at hstate
    rcases hstate with hbefore | hrefused
    · exact absorbs_refused.after (hloop.refused hbefore) hcalls'
    · refine absorbs_refused.before hcalls (tells_verify ?_ s _ s' hverify hrefused)
      rw [hlinked.plugin_eq]
      exact hlinked.registered

theorem making_verify (h : OwnStorage env custom) (act : AccountObject) :
    Within making (act.verify env) :=
  AccountObject.within_verify (K := ∅) quiet_making.asking
    (fun _ _ _ _ _ _ _ _ hkey => absurd hkey (by simp)) (making_callWrite h)
    (fun _ _ _ _ _ => making_callSetSecret _)
    fun _ _ _ _ => (making_callDeleteSecret _).bind fun _ => within_pure _

/-- An account that is accepted names the records made for it, and one that is not was refused from
outside, unless no record was made. -/
theorem made_of_verify (h : OwnStorage env custom) {act act' : AccountObject} {b : Bool}
    {w w' : World Text} (hinit : AllInited env act.services)
    (hr : (act.verify env).run w = .ok (b, act') w') :
    ∃ cs, w'.calls = w.calls ++ cs ∧ w'.records = w.records ++ made cs ∧
      (b = false → made cs = [] ∨ Refused w w') ∧ (b = true → ∀ r : PluginRecord,
        r.plugin ∈ custom → (r ∈ made cs ↔ NamesRecord (stored env act') r)) := by
  obtain ⟨cs, hcs, hmade⟩ := (making_verify h act).rel_of_ok hr
  refine ⟨cs, hcs, hmade, ?_⟩
  rcases AccountObject.verify_ok hr with ⟨rfl, rfl, -, -⟩ | ⟨-, w₁, hservices, hend⟩
  · obtain rfl : cs = [] := List.append_right_eq_self.1 hcs.symm
    exact ⟨fun _ => .inl rfl, fun hb => absurd hb (by decide)⟩
  have hstart : LoopMade env custom w (AccountObject.prepared env act).services.toList
      (true, AccountObject.prepared env act) w := by
    refine ⟨TreeMap.nodup_keys_toList _, fun kv hkv => ?_, ⟨[], (List.append_nil _).symm,
      fun _ r _ => iff_of_false (by simp [made]) ?_⟩, fun hb => absurd hb (by simp)⟩
    · exact hinit.congr (AccountObject.sameLinks_prepared env act) kv.1 kv.2
        (Std.ExtTreeMap.mem_toList_iff_getElem?_eq_some.1 hkv)
    · rintro ⟨hnot, hnames⟩
      obtain ⟨svc, hsvc, -⟩ := namesRecord_stored.1 hnames
      exact hnot (List.mem_map.2 ⟨_, Std.ExtTreeMap.mem_toList_iff_getElem?_eq_some.2 hsvc, rfl⟩)
  have hloop : LoopMade env custom w [] (b, act') w₁ :=
    foldlM_ok_induction (LoopMade env custom w)
      (fun kv l state s state' s' hloop hr => hloop.step h hr) _ hstart hservices
  constructor
  · rintro rfl
    obtain ⟨-, hremove⟩ := hend.resolve_left fun hand => absurd hand.1 (by decide)
    have hcalls : w₁.calls <+: w'.calls :=
      (AccountObject.within_removeAllSecrets fun _ _ _ _ =>
        Within.bind (fun _ => List.prefix_append _ _) fun _ => within_pure _ :
        Within callsFrame (act'.removeAllSecrets env)).rel_of_ok hremove
    exact .inr (absorbs_refused.after (hloop.refused rfl) hcalls)
  · rintro rfl r hcustom
    obtain ⟨-, rfl⟩ := hend.resolve_right fun hand => absurd hand.1 (by decide)
    obtain ⟨cs', hcs', hmade'⟩ := hloop.made
    obtain rfl : cs = cs' := List.append_cancel_left (hcs.symm.trans hcs')
    rw [hmade' rfl r hcustom]
    simp

/-! ## The calls of a run -/

/-- A call whose new records have ids that no record and no account file has. -/
def Op.RecordingCall (env : Env Text) (w : World Text) (call : Op × Bool) (w' : World Text) :
    Prop :=
  Op.RequestedCall env w call w' ∧ ∀ r ∈ made (w.newCalls w'), r ∉ w.records ∧
    ∀ place, r ∉ namedIn env w place

/-- The call makes no record that it does not get to name in a file, and writes over no file that
names one. -/
structure Op.KeepsRecords (env : Env Text) (custom : Set String) (op : Op) (w w' : World Text) :
    Prop where
  accepted : made (w.newCalls w') ≠ [] → ¬op.EditsNull ∧ ¬Refused w w'
  free : ∀ path data outcome, .writeFile path data outcome ∈ w.newCalls w' →
    outcome ≠ .notOpened → ∀ r ∈ namedInText env (w.fileAt path), r ∉ ownRecords custom w
  cut : ∀ path data count, .writeFile path data (.cutShort count) ∈ w.newCalls w' →
    ∀ r ∈ namedInText env (some (env.yaml.cut data count)), r ∉ ownRecords custom w

/-- A call under these conditions. -/
def Op.KeepingCall (env : Env Text) (custom : Set String) (w : World Text) (call : Op × Bool)
    (w' : World Text) : Prop :=
  Op.RecordingCall env w call w' ∧ call.1.KeepsRecords env custom w w'

theorem namedIn_congr {w w' : World Text} (h : w'.files = w.files) :
    namedIn env w' = namedIn env w := by
  funext place
  simp only [namedIn, World.fileAt_congr h]

theorem NoLeaks.congr {w w' : World Text} (h : NoLeaks env custom w) (hfiles : w'.files = w.files)
    (hrecords : ∀ r ∈ w'.records, r ∈ w.records) : NoLeaks env custom w' := by
  rw [NoLeaks, namedIn_congr hfiles]
  exact h.mono fun r hr => ⟨hrecords r hr.1, hr.2⟩

theorem mem_namedIn {w : World Text} {place : AccountParser × Uuid} {r : PluginRecord} :
    r ∈ namedIn env w place ↔ place.1 ∈ env.parsers ∧
      r ∈ namedInText env (w.fileAt (place.1.accountPath env place.2)) := Iff.rfl

theorem accountPath_ne_of_place {p : AccountParser} (hp : p ∈ env.parsers) {id : Uuid}
    {place : AccountParser × Uuid} (hplace : place.1 ∈ env.parsers) (hne : place ≠ (p, id)) :
    place.1.accountPath env place.2 ≠ p.accountPath env id := by
  intro hpath
  obtain ⟨hdir, hid⟩ := AccountParser.accountPath_inj hpath
  exact hne (Prod.ext (path_injective hplace hp hdir) hid)

theorem namedIn_written {w : World Text} {p : AccountParser} (hp : p ∈ env.parsers) (id : Uuid)
    (data : Text) : namedIn env (w.written env (p.accountPath env id) data) =
      Function.update (namedIn env w) (p, id) (namedInText env (env.afterWrite
        (env.writeFile w.tick (p.accountPath env id) data) data
        (w.fileAt (p.accountPath env id)))) := by
  funext place
  ext r
  by_cases hplace : place = (p, id)
  · subst hplace
    rw [Function.update_self, mem_namedIn, World.fileAt_written_self]
    exact and_iff_right hp
  · rw [Function.update_of_ne hplace, mem_namedIn, mem_namedIn]
    refine and_congr_right fun hmem => ?_
    rw [World.fileAt_written_of_ne _ _ (accountPath_ne_of_place hp hmem hplace)]

theorem namedIn_erased {w : World Text} {p : AccountParser} (hp : p ∈ env.parsers) (id : Uuid) :
    namedIn env (w.erased (p.accountPath env id)) = Function.update (namedIn env w) (p, id) ∅ := by
  funext place
  ext r
  by_cases hplace : place = (p, id)
  · subst hplace
    rw [Function.update_self, mem_namedIn, World.fileAt_erased_self]
    simp [namedInText]
  · rw [Function.update_of_ne hplace, mem_namedIn, mem_namedIn]
    refine and_congr_right fun hmem => ?_
    rw [World.fileAt_erased_of_ne _ (accountPath_ne_of_place hp hmem hplace)]

/-- A complete file names the records of the account written. -/
theorem namedInText_document {act : AccountObject}
    (hreg : ∀ svcName ∈ act.services, (env.pluginNamed svcName).isSome) (r : PluginRecord) :
    r ∈ namedInText env (some (documentText env act)) ↔ NamesRecord (stored env act) r := by
  constructor
  · rintro ⟨text, acc, htext, hread, hnames⟩
    cases htext
    rw [readText_document hreg] at hread
    cases hread
    exact hnames
  · exact fun hnames => ⟨_, _, rfl, readText_document hreg, hnames⟩

/-! ## Calls that save an account -/

/-- Neither files nor records change. -/
def settled : Frame (World Text) where
  rel w w' := w.calls <+: w'.calls ∧ w'.files = w.files ∧ w'.records = w.records
  refl _ := ⟨List.prefix_refl _, rfl, rfl⟩
  trans := fun ⟨hcalls, hfiles, hrecords⟩ ⟨hcalls', hfiles', hrecords'⟩ =>
    ⟨hcalls.trans hcalls', hfiles'.trans hfiles, hrecords'.trans hrecords⟩

theorem quiet_settled : Quiet (settled : Frame (World Text)) where
  record _ _ _ := ⟨List.prefix_append _ _, rfl, rfl⟩
  log _ _ := ⟨List.prefix_refl _, rfl, rfl⟩

theorem settled_published (w : World Text) (event : String) (params : StrStrMap) :
    settled.rel w (w.published env event params) := by
  refine ⟨?_, World.files_published _ _ _, World.records_published _ _ _⟩
  rw [World.calls_published]
  exact List.prefix_append _ _

theorem settled_setStatus {id : Uuid} {stat : AccountStatus} {b : Bool} {w w' : World Text}
    (hr : (setStatus env id stat).run w = .ok b w') : settled.rel w w' :=
  rel_of_setStatus quiet_settled (fun _ _ => ⟨List.prefix_refl _, rfl, rfl⟩)
    (fun _ _ _ => ⟨List.prefix_refl _, rfl, rfl⟩) settled_published hr

theorem settled_cleanup (oldAct newAccount : AccountObject) :
    Within settled (oldAct.cleanup env newAccount) :=
  AccountObject.within_cleanup fun _ _ _ _ _ =>
    Within.bind (fun _ => ⟨List.prefix_append _ _, rfl, rfl⟩) fun _ => within_pure _

section Save

variable {act act' : AccountObject} {w w₀ w₁ w' : World Text} {op : Op}

/-- A verification that comes to nothing made no record. -/
theorem noLeaks_of_unsaved (hown : OwnStorage env custom) (h : NoLeaks env custom w)
    (hkeep : op.KeepsRecords env custom w w') (hinit : AllInited env act.services)
    (hbefore : settled.rel w w₀) {b : Bool} (hverify : (act.verify env).run w₀ = .ok (b, act') w₁)
    (hfailed : b = false ∨ op.EditsNull) (hafter : settled.rel w₁ w') : NoLeaks env custom w' := by
  obtain ⟨cs, hcs, hmade, hrefused, -⟩ := made_of_verify hown hinit hverify
  have hnone : made cs = [] := by
    by_contra hsome
    have haccepted := hkeep.accepted fun he =>
      hsome (List.eq_nil_of_subset_nil (he ▸ made_subset hcs hbefore.1 hafter.1))
    rcases hfailed with rfl | hnull
    · exact haccepted.2 (absorbs_refused.before hbefore.1
        (absorbs_refused.after ((hrefused rfl).resolve_left hsome) hafter.1))
    · exact haccepted.1 hnull
  have hfiles : w₁.files = w₀.files := congrArg Prod.fst (rest_of_verify hverify)
  refine h.congr (hafter.2.1.trans (hfiles.trans hbefore.2.1)) fun r hr => ?_
  rwa [hafter.2.2, hmade, hnone, List.append_nil, hbefore.2.2] at hr

/-- The account file names the records made, and what it named before is out of use. -/
theorem noLeaks_of_saved (hown : OwnStorage env custom) (h : NoLeaks env custom w)
    (hfresh : ∀ r ∈ made (w.newCalls w'), r ∉ w.records ∧ ∀ place, r ∉ namedIn env w place)
    (hkeep : op.KeepsRecords env custom w w') (hinit : AllInited env act.services)
    (hbefore : settled.rel w w₀) (hverify : (act.verify env).run w₀ = .ok (true, act') w₁)
    {p : AccountParser} (hp : p ∈ env.parsers)
    (hafter : settled.rel (w₁.written env (p.accountPath env act'.id) (documentText env act')) w') :
    NoLeaks env custom w' := by
  obtain ⟨cs, hcs, hmade, -, hnames⟩ := made_of_verify hown hinit hverify
  obtain ⟨hcalls₀, hfiles₀, hrecords₀⟩ := hbefore
  obtain ⟨hcalls, hfiles, hrecords⟩ := hafter
  rw [World.records_written] at hrecords
  have hfiles₁ : w₁.files = w.files :=
    (congrArg Prod.fst (rest_of_verify hverify) : w₁.files = w₀.files).trans hfiles₀
  have hcalls₁ : w.calls <+: w₁.calls := hcalls₀.trans (by rw [hcs]; exact List.prefix_append _ _)
  have hwrite : .writeFile (p.accountPath env act'.id) (documentText env act')
      (env.writeFile w₁.tick (p.accountPath env act'.id) (documentText env act')) ∈
        w.newCalls w' :=
    World.newCalls_mono_left hcalls₁ (World.mem_newCalls_of_prefix hcalls)
  have hsub : made cs ⊆ made (w.newCalls w') :=
    made_subset hcs hcalls₀ ((List.prefix_append _ _).trans hcalls)
  have hused : ownRecords custom w' =
      ownRecords custom w ∪ {r | r ∈ made cs ∧ r.plugin ∈ custom} := by
    ext r
    simp only [ownRecords, hrecords, hmade, hrecords₀, List.mem_append]
    exact or_and_right
  rw [NoLeaks, namedIn_congr hfiles, namedIn_written hp, hused, World.fileAt_congr hfiles₁,
    namedIn_congr hfiles₁]
  have hcomplete : made cs ≠ [] → env.writeFile w₁.tick (p.accountPath env act'.id)
      (documentText env act') = .complete := by
    intro hsome
    by_contra hnot
    have hrefused : Refused w w' := ⟨_, hwrite, by simpa [Call.refuses] using hnot⟩
    exact (hkeep.accepted fun he => hsome (List.eq_nil_of_subset_nil (he ▸ hsub))).2 hrefused
  have hfree : ∀ outcome, .writeFile (p.accountPath env act'.id) (documentText env act') outcome ∈
      w.newCalls w' → outcome ≠ .notOpened →
      ∀ r ∈ namedIn env w (p, act'.id), r ∉ ownRecords custom w := fun outcome hcall hopened r hr =>
    hkeep.free _ _ _ hcall hopened r (mem_namedIn.1 hr).2
  generalize env.writeFile w₁.tick (p.accountPath env act'.id) (documentText env act') = outcome
    at hwrite hcomplete ⊢
  cases outcome with
  | notOpened =>
    have hsame : namedInText env (w.fileAt (p.accountPath env act'.id)) =
        namedIn env w (p, act'.id) := by
      ext r
      exact (and_iff_right hp).symm
    obtain hnone : made cs = [] := not_not.1 fun hsome => by cases hcomplete hsome
    simp only [Env.afterWrite, hsame, Function.update_eq_self, hnone]
    exact h.mono (by simp)
  | cutShort count =>
    obtain hnone : made cs = [] := not_not.1 fun hsome => by cases hcomplete hsome
    refine HeldOnce.replace h _ (hfree _ hwrite (by simp)) (hkeep.cut _ _ _ hwrite) ?_ ?_
    · rintro r ⟨hr, -⟩
      rw [hnone] at hr
      cases hr
    · rintro r ⟨hr, -⟩
      rw [hnone] at hr
      cases hr
  | complete =>
    refine HeldOnce.replace h _ (hfree _ hwrite (by simp)) ?_ ?_ ?_
    · rintro r hr ⟨hused, hcustom⟩
      have hr' := (namedInText_document (registered_of_verify hverify) r).1 hr
      exact (hfresh r (hsub ((hnames rfl r hcustom).2 hr'))).1 hused
    · rintro r ⟨hr, hcustom⟩
      exact (namedInText_document (registered_of_verify hverify) r).2 ((hnames rfl r hcustom).1 hr)
    · rintro r ⟨hr, -⟩
      exact (hfresh r (hsub hr)).2

end Save

/-! ## The steps of a run -/

theorem noLeaks_of_create (hown : OwnStorage env custom) {act act' : AccountObject} {b : Bool}
    {w w' : World Text} (h : NoLeaks env custom w) (hreq : (Op.create act).Requested env w)
    (hfresh : ∀ r ∈ made (w.newCalls w'), r ∉ w.records ∧ ∀ place, r ∉ namedIn env w place)
    (hkeep : (Op.create act).KeepsRecords env custom w w')
    (hr : (createAccount env act).run w = .ok (b, act') w') : NoLeaks env custom w' := by
  obtain ⟨hdec, hnull, -⟩ := hreq
  have hinit : AllInited env ({ act with id := env.uuidGenerate w.tick } : AccountObject).services :=
    hdec.allInited
  have hgenerate : settled.rel w (w.record (.uuidGenerate (env.uuidGenerate w.tick))) :=
    quiet_settled.record _ _ trivial
  rcases createAccount_ok hr with ⟨-, errs, rfl⟩ | ⟨p, hfind, hcase⟩
  · exact h.congr rfl fun r hr => hr
  cases hcase with
  | limit => exact h.congr rfl fun r hr => hr
  | refused _ hverify =>
    exact noLeaks_of_unsaved hown h hkeep hinit hgenerate hverify (.inl rfl)
      ⟨List.prefix_refl _, rfl, rfl⟩
  | unwritten _ hverify hwhy => exact absurd hwhy (not_unwritten hnull hfind hverify)
  | created _ hverify _ _ hstatus =>
    exact noLeaks_of_saved hown h hfresh hkeep hinit hgenerate hverify
      (findParser_some hfind).1 (settled.trans (settled_setStatus hstatus) (settled_published _ _ _))

theorem noLeaks_of_modify (hown : OwnStorage env custom) {id : Uuid} {act act' : AccountObject}
    {b : Bool} {w w' : World Text} (h : NoLeaks env custom w) (hdec : Decoded env act)
    (hfresh : ∀ r ∈ made (w.newCalls w'), r ∉ w.records ∧ ∀ place, r ∉ namedIn env w place)
    (hkeep : (Op.modify id act).KeepsRecords env custom w w')
    (hr : (modifyAccount env id act).run w = .ok (b, act') w') : NoLeaks env custom w' := by
  have hinit : AllInited env ({ act with id } : AccountObject).services := hdec.allInited
  rcases modifyAccount_ok hr with ⟨-, w₁, errs, rfl, hsilent⟩ |
    ⟨q, acc, oldAct, w₁, p, hok, hfind, hcase⟩
  · exact h.congr (hsilent.files :) fun r hr => hsilent.records ▸ hr
  have hread : settled.rel w w₁ := hok.silent _ quiet_settled
  cases hcase with
  | refused hverify =>
    exact noLeaks_of_unsaved hown h hkeep hinit hread hverify (.inl rfl)
      ⟨List.prefix_refl _, rfl, rfl⟩
  | unwritten hverify hwhy =>
    refine noLeaks_of_unsaved hown h hkeep hinit hread hverify (.inr ?_)
      ⟨List.prefix_refl _, rfl, rfl⟩
    by_contra hnull
    have hid : ({ act with id } : AccountObject).id ≠ Uuid.null := hnull
    exact not_unwritten hid hfind hverify hwhy
  | modified hverify _ _ hstatus hclean =>
    refine noLeaks_of_saved hown h hfresh hkeep hinit hread hverify
      (findParser_some hfind).1 (settled.trans (settled_setStatus hstatus) ?_)
    exact settled.trans ((settled_cleanup _ _).rel_of_ok hclean) (settled_published _ _ _)

/-! ## Deletion -/

/-- No record is added. -/
def noMore : Frame (World Text) where
  rel w w' := ∀ r ∈ w'.records, r ∈ w.records
  refl _ _ h := h
  trans h h' r hr := h r (h' r hr)

theorem noMore_callRemove (hown : OwnStorage env custom) (plugin : PluginContainer) (id : String) :
    Within noMore (env.callRemove plugin id) := by
  intro w r hr
  change r ∈ (env.remove w.tick plugin id w.records).2 at hr
  by_cases hplugin : plugin.title ∈ custom
  · rw [hown.removes _ _ _ _ hplugin] at hr
    exact (List.mem_filter.1 hr).1
  · rwa [hown.removesNone _ _ _ _ hplugin] at hr

/-- The record that a service names is removed. -/
theorem unnamed_of_removal (hown : OwnStorage env custom) {svc : AccountService} {name : String}
    {b : Bool} {w w' : World Text} (hlinked : svc.LinkedAs env name) (hname : name ∈ custom)
    (hr : (svc.performServiceCustomRemoval env).run w = .ok b w') :
    ∀ r ∈ w'.records, r.plugin = name → svc.params[pluginIdParam]? ≠ some r.id := by
  intro r hr' hplugin hparam
  rw [AccountService.performServiceCustomRemoval, hparam] at hr
  obtain ⟨plugin, w₁, hderef, hr⟩ := run_bind_ok.1 hr
  obtain ⟨hp, rfl⟩ := AccountService.derefPlugin_ok hderef
  have htitle := hlinked.title_eq hp
  obtain ⟨result, w₂, hremove, hr⟩ := run_bind_ok.1 hr
  obtain ⟨answer, w₃, hcall, hresult⟩ := run_bind_ok.1 hremove
  obtain ⟨-, rfl⟩ := run_modifyGet_ok.1 hcall
  obtain ⟨-, rfl⟩ := run_pure_ok.1 hresult
  have hrecords : w'.records = (env.remove w.tick plugin r.id w.records).2 := by
    cases result with
    | ok removed => exact congrArg World.records (run_pure_ok.1 hr).2.symm
    | error what => exact congrArg World.records (run_pure_ok.1 hr).2.symm
  rw [hrecords, hown.removes _ _ _ _ (htitle ▸ hname)] at hr'
  have hne := (List.mem_filter.1 hr').2
  rw [decide_eq_true_iff, htitle, ← hplugin] at hne
  exact hne rfl

theorem noMore_removeServices (hown : OwnStorage env custom) (svcs : List AccountService) :
    Within noMore (AccountObject.removeServices env svcs) :=
  AccountObject.within_removeServices (noMore_callRemove hown) svcs

theorem unnamed_of_removals (hown : OwnStorage env custom) {l : List (String × AccountService)}
    (hlinked : ∀ kv ∈ l, kv.2.LinkedAs env kv.1) {w w' : World Text}
    (hr : (AccountObject.removeServices env (l.map Prod.snd)).run w = .ok none w') :
    ∀ kv ∈ l, kv.1 ∈ custom → ∀ r ∈ w'.records, r.plugin = kv.1 →
      kv.2.params[pluginIdParam]? ≠ some r.id := by
  induction l generalizing w with
  | nil => simp
  | cons kv l ih =>
    obtain ⟨removed, w₁, hfirst, hr⟩ := run_bind_ok.1 hr
    split at hr
    · have hrest := (noMore_removeServices hown _).rel_of_ok hr
      rw [List.forall_mem_cons]
      refine ⟨fun hname r hr' => ?_, ih (fun kv' h' => hlinked kv' (by simp [h'])) hr⟩
      exact unnamed_of_removal hown (hlinked kv (by simp)) hname hfirst r (hrest r hr')
    · cases (run_pure_ok.1 hr).1

theorem noMore_performAccountRemoval (hown : OwnStorage env custom) (act : AccountObject) :
    Within noMore (act.performAccountRemoval env) :=
  AccountObject.within_performAccountRemoval (noMore_callRemove hown)
    (Within.bind (fun _ _ h => h) fun _ => within_pure _)

/-- The records that an account names are removed with it. -/
theorem unnamed_of_performAccountRemoval (hown : OwnStorage env custom) {act act' : AccountObject}
    (hinit : AllInited env act.services) {w w' : World Text}
    (hr : (act.performAccountRemoval env).run w = .ok (true, act') w') :
    ∀ r ∈ w'.records, r.plugin ∈ custom → ¬NamesRecord act r := by
  obtain ⟨refused, w₁, hservices, hr⟩ := run_bind_ok.1 hr
  cases refused with
  | some svc => cases (run_pure_ok.1 hr).1
  | none =>
    obtain ⟨removed, w₂, hdelete, hr⟩ := run_bind_ok.1 hr
    have hmore : noMore.rel w₁ w₂ :=
      (Within.bind (fun _ _ h => h) fun _ => within_pure _ :
        Within noMore (SecretManager.removeAccount env act.id)).rel_of_ok hdelete
    have hsame : w' = w₂ := by
      cases removed <;> exact (run_pure_ok.1 hr).2.symm
    rintro r hr' hcustom ⟨svc, hsvc, hid⟩
    rw [hsame] at hr'
    refine unnamed_of_removals hown (fun kv hkv => ?_) hservices (r.plugin, svc) ?_ hcustom r
      (hmore r hr') rfl hid
    · exact hinit kv.1 kv.2 (Std.ExtTreeMap.mem_toList_iff_getElem?_eq_some.1 hkv)
    · exact Std.ExtTreeMap.mem_toList_iff_getElem?_eq_some.2 hsvc

theorem noLeaks_of_delete (hown : OwnStorage env custom) {id : Uuid} {b : Bool} {w w' : World Text}
    (h : NoLeaks env custom w) (hr : (deleteAccount env id).run w = .ok b w') :
    NoLeaks env custom w' := by
  rcases deleteAccount_ok hr with ⟨-, errs, rfl⟩ | ⟨p, act, hfind, hread, hcase⟩
  · exact h.congr rfl fun r hr => hr
  have hless := noMore_performAccountRemoval hown act
  cases hcase with
  | kept hremoval =>
    exact h.congr (congrArg Prod.fst (rest_of_removal hremoval) :) (hless.rel_of_ok hremoval :)
  | unremoved hremoval hremove =>
    have hfiles : _ = w.files := congrArg Prod.fst (rest_of_removal hremoval)
    rcases AccountParser.remove_false hremove with rfl | rfl
    · exact h.congr hfiles (hless.rel_of_ok hremoval :)
    · exact h.congr hfiles (hless.rel_of_ok hremoval :)
  | @deleted act₁ w₁ w₂ hremoval hremove =>
    have hp : p ∈ env.parsers := (findParser_some hfind).1
    have hfiles₁ : w₁.files = w.files := congrArg Prod.fst (rest_of_removal hremoval)
    obtain ⟨-, -, rfl⟩ := AccountParser.remove_true hremove
    have hnamed := unnamed_of_performAccountRemoval hown (allInited_of_read hread) hremoval
    have hfiles : ∀ stat event params, (World.published env { (w₁.erased (p.accountPath env id)).record
        (.removeFile (p.accountPath env id) true) with statDict := stat } event params).files =
        (w₁.erased (p.accountPath env id)).files := fun _ _ _ => World.files_published _ _ _
    rw [NoLeaks, namedIn_congr (hfiles _ _ _), namedIn_erased hp, namedIn_congr hfiles₁]
    refine (HeldOnce.clear h (p, id)).mono fun r hr => ?_
    obtain ⟨hr, hcustom⟩ := hr
    rw [World.records_published] at hr
    refine ⟨⟨hless.rel_of_ok hremoval r hr, hcustom⟩, fun hmem => hnamed r hr hcustom ?_⟩
    obtain ⟨text, acc, hfile, htext, hnames⟩ := (mem_namedIn.1 hmem).2
    cases (AccountParser.read_ok_iff.2 ⟨text, hfile, htext⟩).symm.trans hread
    exact hnames

/-- One call keeps every record named once. -/
theorem noLeaks_of_call (hown : OwnStorage env custom) {w w' : World Text} {call : Op × Bool}
    (h : NoLeaks env custom w) (hcall : Op.KeepingCall env custom w call w') :
    NoLeaks env custom w' := by
  obtain ⟨op, b⟩ := call
  obtain ⟨⟨⟨hreq, hr⟩, hfresh⟩, hkeep⟩ := hcall
  cases op with
  | create act =>
    obtain ⟨act', hr⟩ := Op.run_create_ok.1 hr
    exact noLeaks_of_create hown h hreq hfresh hkeep hr
  | modify id act =>
    obtain ⟨act', hr⟩ := Op.run_modify_ok.1 hr
    exact noLeaks_of_modify hown h hreq hfresh hkeep hr
  | delete id => exact noLeaks_of_delete hown h hr
  | setStatus id stat =>
    obtain ⟨-, hfiles, hrecords⟩ := settled_setStatus hr
    exact h.congr hfiles fun r hr => hrecords ▸ hr

/-- After every run of calls that keep the records they make, and write over no file that names one,
every record is named by exactly one service of exactly one stored account file. -/
theorem records_named_once (env : Env Text) (custom : Set String) (hown : OwnStorage env custom)
    (w₀ w : World Text) (calls : List (Op × Bool)) (hstart : NoLeaks env custom w₀)
    (hrun : Runs (Op.KeepingCall env custom) w₀ calls w) : NoLeaks env custom w :=
  hrun.invariant (P := NoLeaks env custom) (fun _ _ _ h hcall => noLeaks_of_call hown h hcall) hstart

/-- Plugins that keep a record for each service, and remove those they are asked for. -/
def storingEnv : Env YamlText :=
  { recordingEnv with
    remove := fun _ plugin id records =>
      (some (.returned true), records.filter (· ≠ { plugin := plugin.title, id })) }

theorem ownStorage_storingEnv : OwnStorage storingEnv Set.univ where
  makes n _ _ _ _ _ := ⟨toString n, rfl⟩
  removes _ _ _ _ _ := rfl
  makesNone _ _ _ _ _ h := absurd trivial h
  removesNone _ _ _ _ h := absurd trivial h

theorem not_mem_namedIn_of_empty {w : World Text} (h : ∀ dir, w.files dir = ∅) (r : PluginRecord)
    (place : AccountParser × Uuid) : r ∉ namedIn env w place := by
  rintro ⟨-, text, acc, hfile, -⟩
  rw [World.fileAt, h, Std.ExtTreeMap.getElem?_empty] at hfile
  cases hfile

/-- The first account is created, with a record. -/
def recordWorld : World YamlText :=
  final (((Op.create (requestedMail storingEnv)).run storingEnv).run { files := fun _ => ∅ })

theorem keepingCall_create : Op.KeepingCall storingEnv Set.univ { files := fun _ => ∅ }
    (.create (requestedMail storingEnv), true) recordWorld := by
  have hcall : ((Op.create (requestedMail storingEnv)).run storingEnv).run { files := fun _ => ∅ } =
      .ok true recordWorld := eq_ok_of_result? (by decide +kernel)
  have hfresh : ¬Stored storingEnv { files := fun _ => ∅ } 1 := by decide +kernel
  have hcalls : ∀ c ∈ World.newCalls { files := fun _ => ∅ } recordWorld,
      c.refuses = false ∧ c.cutsFile = false := by decide +kernel
  refine ⟨⟨⟨⟨decoded_requestedMail storingEnv.toAnswers, by decide, hfresh⟩, hcall⟩, fun r _ =>
    ⟨List.not_mem_nil, not_mem_namedIn_of_empty (fun _ => rfl) r⟩⟩, ?_⟩
  refine ⟨fun _ => ⟨id, ?_⟩, fun _ _ _ _ _ _ _ hr => ?_, fun _ _ _ _ _ _ hr => ?_⟩
  · rintro ⟨c, hc, hrefuses⟩
    rw [(hcalls c hc).1] at hrefuses
    cases hrefuses
  · exact absurd hr.1 List.not_mem_nil
  · exact absurd hr.1 List.not_mem_nil

theorem records_named_once_storing : NoLeaks storingEnv Set.univ recordWorld :=
  records_named_once storingEnv Set.univ ownStorage_storingEnv { files := fun _ => ∅ } recordWorld
    [(.create (requestedMail storingEnv), true)] (fun _ hr => absurd hr.1 List.not_mem_nil)
    (.single keepingCall_create)

/-- No file in the account directories names the record. -/
theorem not_mem_namedIn_of_texts {w : World Text} {r : PluginRecord}
    (h : ∀ p ∈ env.parsers, ∀ kv ∈ (w.files p.path).toList,
      ((AccountParser.readText env kv.2 {}).toOption.all fun acc =>
        !(acc.services[r.plugin]?).any fun svc => svc.params[pluginIdParam]? == some r.id) = true)
    (place : AccountParser × Uuid) : r ∉ namedIn env w place := by
  rintro ⟨hp, text, acc, hfile, hread, svc, hsvc, hid⟩
  have hlack := h place.1 hp (_, text) (Std.ExtTreeMap.mem_toList_iff_getElem?_eq_some.2 hfile)
  simp [hread, Except.toOption, hsvc, hid] at hlack

/-- The record of an account that is modified stays, and no file names it any more. -/
theorem modification_leaks_record : ¬∀ (env : Env YamlText) (custom : Set String)
    (w₀ w : World YamlText) (calls : List (Op × Bool)), OwnStorage env custom →
      NoLeaks env custom w₀ → Runs (Op.RecordingCall env) w₀ calls w →
      (∀ call ∈ calls, call.2 = true) → NoLeaks env custom w := by
  intro h
  have hrun : result? (((Op.modify 1 (requestedMail storingEnv)).run storingEnv).run recordWorld) =
      some true ∧ made (World.newCalls recordWorld (final
        (((Op.modify 1 (requestedMail storingEnv)).run storingEnv).run recordWorld))) =
          [{ plugin := "mail", id := "12" }] ∧ { plugin := "mail", id := "4" } ∈ (final
        (((Op.modify 1 (requestedMail storingEnv)).run storingEnv).run recordWorld)).records := by
    decide +kernel
  obtain ⟨hresult, hmade, hlost⟩ := hrun
  have hcall := eq_ok_of_result? hresult
  have hnew : { plugin := "mail", id := "12" } ∉ recordWorld.records := by decide +kernel
  have hunnamed : ∀ place, { plugin := "mail", id := "12" } ∉ namedIn storingEnv recordWorld place :=
    not_mem_namedIn_of_texts (by decide +kernel)
  have hlack : ∀ place, { plugin := "mail", id := "4" } ∉ namedIn storingEnv (final
      (((Op.modify 1 (requestedMail storingEnv)).run storingEnv).run recordWorld)) place :=
    not_mem_namedIn_of_texts (by decide +kernel)
  have hsecond : Op.RecordingCall storingEnv recordWorld (.modify 1 (requestedMail storingEnv), true)
      (final (((Op.modify 1 (requestedMail storingEnv)).run storingEnv).run recordWorld)) := by
    refine ⟨⟨decoded_requestedMail storingEnv.toAnswers, hcall⟩, fun r hr => ?_⟩
    rw [hmade, List.mem_singleton] at hr
    subst hr
    exact ⟨hnew, hunnamed⟩
  have hleak := h storingEnv Set.univ { files := fun _ => ∅ } _ _ ownStorage_storingEnv
    (fun _ hr => absurd hr.1 List.not_mem_nil)
    (.snoc (.single keepingCall_create.1) hsecond) (by simp)
  obtain ⟨place, hplace, -⟩ := hleak { plugin := "mail", id := "4" } ⟨hlost, trivial⟩
  exact hlack place hplace

end PxAccounts
