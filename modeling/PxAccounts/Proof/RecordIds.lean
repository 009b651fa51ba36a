import PxAccounts.Proof.Changes
import PxAccounts.Proof.Demands
import PxAccounts.Proof.Refinement

/-!
# Where record ids come from

The id of a plugin's record is a parameter of the service like those of the client.  It goes through
the account file and back to the plugin's `read` and `remove`, so what was not put there by the plugin's
`write` is handed to the plugin all the same.
-/

namespace PxAccounts

open Effect AccountManager

variable {Text : Type} {env : Env Text}

/-! ## Ids issued and handed over -/

/-- The id that a call hands to the `read` or `remove` of a plugin. -/
def Call.handed : Call Text → Option (String × String)
  | .read plugin id (some _) => some (plugin, id)
  | .remove plugin id (some _) => some (plugin, id)
  | _ => none

/-- The id that the `write` of a plugin returned. -/
def Call.issued : Call Text → Option (String × String)
  | .write plugin _ _ (some (.returned id)) => some (plugin, id)
  | _ => none

/-- The ids issued by calls about an account: for the account, for the service, the id. -/
def issuedBy (id : Uuid) (cs : List (Call Text)) : List (Uuid × String × String) :=
  (cs.filterMap Call.issued).map fun r => (id, r)

/-- Every id that one of the calls hands over was issued before, for the same account and service.
-/
def Justified (id : Uuid) : List (Uuid × String × String) → List (Call Text) → Prop
  | _, [] => True
  | issued, c :: cs =>
    (∀ r ∈ c.handed, (id, r) ∈ issued) ∧ Justified id (issued ++ issuedBy id [c]) cs

instance decidableJustified (id : Uuid) : ∀ (issued : List (Uuid × String × String))
    (cs : List (Call Text)), Decidable (Justified id issued cs)
  | _, [] => inferInstanceAs (Decidable True)
  | issued, c :: cs =>
    letI := decidableJustified id (issued ++ issuedBy id [c]) cs
    inferInstanceAs (Decidable ((∀ r ∈ c.handed, (id, r) ∈ issued) ∧
      Justified id (issued ++ issuedBy id [c]) cs))

theorem issuedBy_append (id : Uuid) (cs cs' : List (Call Text)) :
    issuedBy id (cs ++ cs') = issuedBy id cs ++ issuedBy id cs' := by
  rw [issuedBy, List.filterMap_append, List.map_append]
  rfl

theorem mem_issuedBy {id : Uuid} {cs : List (Call Text)} {c : Call Text} {r : String × String}
    (hc : c ∈ cs) (h : c.issued = some r) : (id, r) ∈ issuedBy id cs :=
  List.mem_map_of_mem (List.mem_filterMap.2 ⟨c, hc, h⟩)

theorem justified_append {id : Uuid} {issued : List (Uuid × String × String)}
    {cs cs' : List (Call Text)} : Justified id issued (cs ++ cs') ↔
      Justified id issued cs ∧ Justified id (issued ++ issuedBy id cs) cs' := by
  induction cs generalizing issued with
  | nil => simp [Justified, issuedBy]
  | cons c cs ih =>
    have hcons : issuedBy id (c :: cs) = issuedBy id [c] ++ issuedBy id cs :=
      issuedBy_append id [c] cs
    rw [List.cons_append, Justified, Justified, ih, and_assoc, hcons, List.append_assoc]

/-- Ids issued before the first of the calls may be handed over by all of them. -/
theorem justified_of_handed {id : Uuid} {issued : List (Uuid × String × String)}
    {cs : List (Call Text)} (h : ∀ c ∈ cs, ∀ r ∈ c.handed, (id, r) ∈ issued) :
    Justified id issued cs := by
  induction cs generalizing issued with
  | nil => trivial
  | cons c cs ih =>
    exact ⟨h c (by simp), ih fun c' hc' r hr =>
      List.mem_append_left _ (h c' (by simp [hc']) r hr)⟩

/-! ## What is kept in a file -/

/-- A file write that is cut short. -/
def Call.cutsFile : Call Text → Bool
  | .writeFile _ _ (.cutShort _) => true
  | _ => false

/-- A file write that leaves the whole text. -/
def Call.fillsFile : Call Text → Bool
  | .writeFile _ _ .complete => true
  | _ => false

/-- A `write` of a plugin that returns no id, although the parameters that go into the file have
one. -/
def Call.leavesId : Call Text → Bool
  | .write _ _ _ (some (.returned _)) => false
  | .write _ vResult _ _ => (unprotectedParams vResult.params pluginIdParam).isSome
  | _ => false

/-- Only ids that were issued get into an account file. -/
structure KeepsIssued (cs : List (Call Text)) : Prop where
  uncut : ∀ c ∈ cs, c.cutsFile = false
  plain : (∃ c ∈ cs, c.fillsFile = true) → ∀ c ∈ cs, c.leavesId = false

theorem KeepsIssued.of_append {cs cs' : List (Call Text)} (h : KeepsIssued (cs ++ cs')) :
    KeepsIssued cs ∧ KeepsIssued cs' := by
  constructor
  · exact ⟨fun c hc => h.uncut c (List.mem_append_left _ hc), fun ⟨c₀, hc₀, hfills⟩ c hc =>
      h.plain ⟨c₀, List.mem_append_left _ hc₀, hfills⟩ c (List.mem_append_left _ hc)⟩
  · exact ⟨fun c hc => h.uncut c (List.mem_append_right _ hc), fun ⟨c₀, hc₀, hfills⟩ c hc =>
      h.plain ⟨c₀, List.mem_append_right _ hc₀, hfills⟩ c (List.mem_append_right _ hc)⟩

/-- The record ids in the account files were issued for the accounts and services they stand in. -/
structure StoredIds (env : Env Text) (issued : List (Uuid × String × String)) (w : World Text) :
    Prop where
  inner : InnerIds env w
  issued : ∀ p ∈ env.parsers, ∀ id acc, p.read env w id {} = .ok acc →
    ∀ (name : String) (svc : AccountService), acc.services[name]? = some svc →
      ∀ rid, svc.params[pluginIdParam]? = some rid → (id, name, rid) ∈ issued

theorem StoredIds.mono {issued issued' : List (Uuid × String × String)} {w : World Text}
    (h : StoredIds env issued w) (hsub : issued ⊆ issued') : StoredIds env issued' w :=
  ⟨h.inner, fun p hp id acc hread name svc hsvc rid hrid =>
    hsub (h.issued p hp id acc hread name svc hsvc rid hrid)⟩

theorem StoredIds.of_reads {issued : List (Uuid × String × String)} {w w' : World Text}
    (h : StoredIds env issued w) (hreads : ∀ (p : AccountParser) id acc,
      p.read env w' id {} = .ok acc → p.read env w id {} = .ok acc) : StoredIds env issued w' :=
  ⟨fun p hp id acc hread => h.inner p hp id acc (hreads p id acc hread),
    fun p hp id acc hread => h.issued p hp id acc (hreads p id acc hread)⟩

theorem StoredIds.congr {issued : List (Uuid × String × String)} {w w' : World Text}
    (h : StoredIds env issued w) (hfiles : ∀ path, w'.fileAt path = w.fileAt path) :
    StoredIds env issued w' :=
  h.of_reads fun p id acc hread => by rwa [AccountParser.read_congr (hfiles _)] at hread

/-! ## The frame of an operation about an account -/

/-- The calls made justify the ids they hand over, and the files hold issued ids in the end if they
did at first, as long as only issued ids get into a file. -/
def tracing (env : Env Text) (id : Uuid) : Frame (World Text) where
  rel w w' := ∃ cs, w'.calls = w.calls ++ cs ∧ ∀ issued, StoredIds env issued w → KeepsIssued cs →
    Justified id issued cs ∧ StoredIds env (issued ++ issuedBy id cs) w'
  refl w := ⟨[], by simp, fun issued h _ => ⟨trivial, h.mono (by simp)⟩⟩
  trans := by
    rintro w₁ w₂ w₃ ⟨cs, hcs, h⟩ ⟨cs', hcs', h'⟩
    refine ⟨cs ++ cs', by rw [hcs', hcs, List.append_assoc], fun issued hstored hkeeps => ?_⟩
    obtain ⟨hjust, hstored₂⟩ := h issued hstored hkeeps.of_append.1
    obtain ⟨hjust', hstored₃⟩ := h' _ hstored₂ hkeeps.of_append.2
    rw [justified_append, issuedBy_append, ← List.append_assoc]
    exact ⟨⟨hjust, hjust'⟩, hstored₃⟩

variable {id : Uuid}

/-- Calls that leave the files alone and hand over what stands in them. -/
theorem tracing_of_files {w w' : World Text} {cs : List (Call Text)} (hfiles : w'.files = w.files)
    (hcs : w'.calls = w.calls ++ cs) (h : ∀ issued, StoredIds env issued w →
      ∀ c ∈ cs, ∀ r ∈ c.handed, (id, r) ∈ issued) : (tracing env id).rel w w' :=
  ⟨cs, hcs, fun issued hstored _ => ⟨justified_of_handed (h issued hstored),
    (hstored.congr (World.fileAt_congr hfiles)).mono (List.subset_append_left _ _)⟩⟩

theorem tracing_of_unhanded {w w' : World Text} {cs : List (Call Text)} (hfiles : w'.files = w.files)
    (hcs : w'.calls = w.calls ++ cs) (h : ∀ c ∈ cs, c.handed = none) : (tracing env id).rel w w' :=
  tracing_of_files hfiles hcs fun issued _ c hc r hr => by
    rw [h c hc] at hr
    cases hr

/-! ## Verification -/

theorem handed_of_question {c : Call Text} (h : c.IsQuestion) : c.handed = none := by
  cases c <;> first | rfl | cases h

theorem asking_tracing (env : Env Text) (id : Uuid) : Asking (tracing env id) where
  record _ c hc := tracing_of_unhanded rfl rfl (by simpa using handed_of_question hc)
  log _ _ := tracing_of_unhanded rfl (List.append_nil _).symm (by simp)

theorem tracing_callDeleteSecret (attributes : List (String × String)) :
    Within (tracing env id) (env.callDeleteSecret attributes) := fun _ =>
  tracing_of_unhanded rfl rfl (by simp [Call.handed])

/-- A verification hands over no id. -/
theorem tracing_verify (act : AccountObject) : Within (tracing env id) (act.verify env) :=
  AccountObject.within_verify (K := ∅) (asking_tracing env id)
    (fun _ _ _ _ _ _ _ _ h => absurd h (by simp))
    (fun _ _ _ _ => tracing_of_unhanded rfl rfl (by simp [Call.handed]))
    (fun _ _ _ _ _ _ => tracing_of_unhanded rfl rfl (by simp [Call.handed]))
    fun _ _ _ _ => (tracing_callDeleteSecret _).bind fun _ => within_pure _

/-! ## Custom reads and removals -/

/-- The calls hand over only ids from `S`. -/
def handsOver (S : Set (String × String)) : Frame (World Text) :=
  callsOf fun c => ∀ r ∈ c.handed, r ∈ S

/-- The record id of a service, if it has one, is in `S` for its plugin. -/
def IdIn (S : Set (String × String)) (svc : AccountService) : Prop :=
  ∀ rid, svc.params[pluginIdParam]? = some rid →
    ∀ plugin, svc.plugin = some plugin → (plugin.title, rid) ∈ S

variable {S : Set (String × String)}

theorem handsOver_record {w w' : World Text} {c : Call Text} (hcalls : w'.calls = w.calls ++ [c])
    (h : ∀ r ∈ c.handed, r ∈ S) : (handsOver S).rel w w' := callsOf_record hcalls h

theorem handsOver_callRead {plugin : PluginContainer} {rid : String} (h : (plugin.title, rid) ∈ S) :
    Within (handsOver S) (env.callRead plugin rid) := by
  refine fun w => handsOver_record rfl fun r hr => ?_
  cases hread : env.read w.tick plugin rid with
  | none => simp [Call.handed, hread] at hr
  | some answer =>
    obtain rfl : (plugin.title, rid) = r := by simpa [Call.handed, hread] using hr
    exact h

theorem handsOver_callRemove {plugin : PluginContainer} {rid : String}
    (h : (plugin.title, rid) ∈ S) : Within (handsOver S) (env.callRemove plugin rid) := by
  refine fun w => handsOver_record rfl fun r hr => ?_
  cases hremove : (env.remove w.tick plugin rid w.records).1 with
  | none => simp [Call.handed, hremove] at hr
  | some answer =>
    obtain rfl : (plugin.title, rid) = r := by simpa [Call.handed, hremove] using hr
    exact h

theorem handsOver_performCustomRead {svc : AccountService} (h : IdIn S svc) :
    Within (handsOver S) (svc.performCustomRead env) := by
  rw [AccountService.performCustomRead]
  cases hparam : svc.params[pluginIdParam]? with
  | none => exact within_pure _
  | some rid =>
    refine (within_derefPlugin svc).bind_ok fun plugin w w' hderef => ?_
    have hmem := h rid hparam plugin (AccountService.derefPlugin_ok hderef).1
    refine ((handsOver_callRead hmem).bind fun _ => within_pure _).bind fun result => ?_
    cases result with
    | ok params => exact within_pure _
    | error what => exact within_pure _

theorem handsOver_performServiceCustomRemoval {svc : AccountService} (h : IdIn S svc) :
    Within (handsOver S) (svc.performServiceCustomRemoval env) := by
  rw [AccountService.performServiceCustomRemoval]
  cases hparam : svc.params[pluginIdParam]? with
  | none => exact within_pure _
  | some rid =>
    refine (within_derefPlugin svc).bind_ok fun plugin w w' hderef => ?_
    have hmem := h rid hparam plugin (AccountService.derefPlugin_ok hderef).1
    refine ((handsOver_callRemove hmem).bind fun _ => within_pure _).bind fun result => ?_
    cases result with
    | ok removed => exact within_pure _
    | error what => exact within_pure _

theorem handsOver_removeServices {svcs : List AccountService} (h : ∀ svc ∈ svcs, IdIn S svc) :
    Within (handsOver S) (AccountObject.removeServices env svcs) := by
  induction svcs with
  | nil => exact within_pure _
  | cons svc svcs ih =>
    refine (handsOver_performServiceCustomRemoval (h svc (by simp))).bind fun removed => ?_
    exact within_ite (fun _ => ih fun svc' h' => h svc' (by simp [h'])) fun _ => within_pure _

/-- The record ids of the services are in `S`. -/
def IdsIn (S : Set (String × String)) (services : StrMap AccountService) : Prop :=
  ∀ kv ∈ services.toList, IdIn S kv.2

theorem handsOver_readServices {acc : AccountObject} (h : IdsIn S acc.services) :
    Within (handsOver S) (readServices env acc) :=
  within_foldlM (fun _ kv hkv => (handsOver_performCustomRead (h kv hkv)).bind
    fun _ => within_pure _) _

theorem handsOver_performAccountRemoval {acc : AccountObject} (h : IdsIn S acc.services) :
    Within (handsOver S) (acc.performAccountRemoval env) := by
  refine (handsOver_removeServices fun svc hsvc => ?_).bind fun r => ?_
  · obtain ⟨kv, hkv, rfl⟩ := List.mem_map.1 hsvc
    exact h kv hkv
  · cases r with
    | some svc => exact within_pure _
    | none =>
      have hdelete : Within (handsOver S) (SecretManager.removeAccount env acc.id) :=
        Within.bind (fun _ => handsOver_record rfl (by simp [Call.handed])) fun _ => within_pure _
      exact hdelete.bind fun _ => within_ite (fun _ => within_pure _) fun _ => within_pure _

/-- What is read from the file of an account has the ids issued for the account. -/
theorem StoredIds.idsIn {issued : List (Uuid × String × String)} {w : World Text}
    (h : StoredIds env issued w) {p : AccountParser} (hp : p ∈ env.parsers) {acc : AccountObject}
    (hread : p.read env w id {} = .ok acc) : IdsIn {r | (id, r) ∈ issued} acc.services := by
  rintro ⟨name, svc⟩ hkv rid hrid plugin hplugin
  have hsvc : acc.services[name]? = some svc :=
    Std.ExtTreeMap.mem_toList_iff_getElem?_eq_some.1 hkv
  have hmem := h.issued p hp id acc hread name svc hsvc rid hrid
  rwa [← (allInited_of_read hread name svc hsvc).title_eq hplugin] at hmem

/-- A program that hands over what stands in the file of the account, and leaves the files alone. -/
theorem tracing_of_handsOver {α : Type} {m : M Text α} {w : World Text} {p : AccountParser}
    (hp : p ∈ env.parsers) {acc : AccountObject} (hread : p.read env w id {} = .ok acc)
    (hfiles : Within (Frame.eqOn World.files) m)
    (hands : ∀ S, IdsIn S acc.services → Within (handsOver S) m) :
    (tracing env id).rel w (final (m.run w)) := by
  obtain ⟨cs, hcs, -⟩ := hands Set.univ (fun _ _ _ _ _ _ => trivial) w
  refine tracing_of_files (hfiles w) hcs fun issued hstored c hc r hr => ?_
  obtain ⟨cs', hcs', h⟩ := hands _ (hstored.idsIn hp hread) w
  obtain rfl : cs' = cs := List.append_cancel_left (hcs'.symm.trans hcs)
  exact h c hc r hr

/-! ## Operations that write no file -/

theorem lenient_files (env : Env Text) : AccountObject.Lenient env (Frame.eqOn World.files) where
  record _ _ _ := rfl
  log _ _ := rfl
  setSecret _ _ := rfl
  deleteSecret _ _ := rfl
  write _ _ _ _ := rfl
  remove _ _ _ := rfl

theorem tracing_of_sameCalls {w w' : World Text} (hfiles : w'.files = w.files)
    (hcalls : w'.calls = w.calls) : (tracing env id).rel w w' :=
  tracing_of_unhanded hfiles (hcalls.trans (List.append_nil _).symm) (by simp)

theorem tracing_erased {w : World Text} {path : AccountPath} : (tracing env id).rel w
    ((w.erased path).record (.removeFile path true)) := by
  refine ⟨[.removeFile path true], rfl, fun issued hstored _ =>
    ⟨justified_of_handed (by simp [Call.handed]), ?_⟩⟩
  have herased : StoredIds env issued ((w.erased path).record (.removeFile path true)) :=
    (hstored.of_reads fun p id' acc => read_of_erased : StoredIds env issued (w.erased path)).congr
      fun _ => rfl
  exact herased.mono (List.subset_append_left _ _)

theorem bookkeeping_tracing (env : Env Text) (id : Uuid) : Bookkeeping env (tracing env id) where
  errors _ _ := tracing_of_sameCalls rfl rfl
  statDict _ _ := tracing_of_sameCalls rfl rfl
  emit _ _ _ _ := tracing_of_unhanded rfl rfl (by simp [Call.handed])
  erase _ _ _ _ _ _ := tracing_erased
  keep _ _ := tracing_of_unhanded rfl rfl (by simp [Call.handed])

theorem tracing_addErrorList (errs : StringList) :
    Within (tracing env id) (addErrorList errs : M Text Unit) :=
  (bookkeeping_tracing env id).addErrorList errs

theorem tracing_readAccount (id : Uuid) : Within (tracing env id) (readAccount env id) := by
  intro w
  refine rel_bind (fun e s' h => by cases h) fun _ _ hget => ?_
  cases hget
  cases hfind : findParser env w id false with
  | none => exact ((tracing_addErrorList _).bind fun _ => within_pure _) w
  | some p =>
    refine rel_bind (fun e s' h => by cases h) fun _ _ hget => ?_
    cases hget
    cases hread : p.read env w id {} with
    | error errs =>
      exact ((tracing_addErrorList _).bind fun _ => (tracing_addErrorList _).bind
        fun _ => within_pure _) w
    | ok acc =>
      exact tracing_of_handsOver (findParser_some hfind).1 hread
        ((within_readServices (lenient_files env).toQuiet acc).bind fun _ => within_pure _)
        fun S hids => (handsOver_readServices hids).bind fun _ => within_pure _

theorem tracing_setStatus (id : Uuid) (stat : AccountStatus) :
    Within (tracing env id) (setStatus env id stat) :=
  (bookkeeping_tracing env id).setStatus (tracing_readAccount id) stat

theorem tracing_deleteAccount (id : Uuid) : Within (tracing env id) (deleteAccount env id) :=
  fun _ => (bookkeeping_tracing env id).deleteAccount fun _ hp act hread =>
    tracing_of_handsOver hp hread ((lenient_files env).performAccountRemoval act)
      fun _ hids => handsOver_performAccountRemoval hids

/-! ## An account that is saved -/

/-- The custom write asks the plugin to write. -/
theorem mem_newCalls_of_customWrite {vResult : VerifyResult} {aResult : AuthResult}
    {svc svc' : AccountService} {plugin : PluginContainer} {w w' : World Text}
    (hr : (svc.customWrite env vResult aResult).run w = .ok svc' w')
    (hplugin : svc.plugin = some plugin) :
    .write plugin.title vResult aResult (env.write w.tick plugin vResult aResult w.records).1 ∈
      w.newCalls w' := by
  simp only [AccountService.customWrite] at hr
  obtain ⟨plugin', w₁, hderef, hr⟩ := run_bind_ok.1 hr
  obtain ⟨hp, rfl⟩ := AccountService.derefPlugin_ok hderef
  cases hplugin.symm.trans hp
  obtain ⟨result, w₁, hwrite, hr⟩ := run_bind_ok.1 hr
  have hw₁ : w₁.calls = (w.record (.write plugin.title vResult aResult
      (env.write w.tick plugin vResult aResult w.records).1)).calls := by
    simp only [PluginContainer.write, run_bind_ok, run_pure_ok, Env.callWrite,
      run_modifyGet_ok] at hwrite
    obtain ⟨answer, s, ⟨rfl, rfl⟩, -, rfl⟩ := hwrite
    rfl
  refine World.mem_newCalls_of_prefix ?_
  rw [← hw₁]
  have hquiet : Quiet (callsFrame : Frame (World Text)) := quiet_callsFrame
  have hlog := within_glog hquiet.asking.searching
  cases result with
  | ok pluginId => exact ((hlog _ _).bind fun _ => within_pure _).rel_of_ok hr
  | error errMsg =>
    exact (within_ite (fun _ => (hlog _ _).bind fun _ => within_pure _)
      fun _ => within_pure _).rel_of_ok hr

/-- The record id that the file keeps of a service was issued in the verification, unless a plugin's
`write` returned none and left one. -/
theorem issued_of_verify {act act' : AccountObject} {w w' : World Text}
    (hr : (act.verify env).run w = .ok (true, act') w') (hinit : AllInited env act.services)
    (hplain : ∀ c ∈ w.newCalls w', c.leavesId = false) {name : String} {svc' : AccountService}
    (hsvc' : act'.services[name]? = some svc') {rid : String}
    (hrid : (AccountParser.storedService env name svc').params[pluginIdParam]? = some rid) :
    ∃ c ∈ w.newCalls w', c.issued = some (name, rid) := by
  obtain ⟨svc, plugin, vResult, params, aResult, errs, s₁, s', hby⟩ :=
    writtenBy_of_verify hr hinit hsvc'
  have hplugin : (svc.verifiedAs params errs).plugin = some plugin :=
    (congrArg (·.2.2.1) (AccountService.link_verifiedAs svc params errs)).trans hby.plugin_eq
  have hcall := World.newCalls_mono_right hby.after (World.newCalls_mono_left hby.before
    (mem_newCalls_of_customWrite hby.run_eq hplugin))
  obtain ⟨plugin', hp, -, hcase⟩ := AccountService.customWrite_ok hby.run_eq
  cases hplugin.symm.trans hp
  rcases hcase with ⟨pluginId, hanswer, rfl⟩ | ⟨hnone, rfl⟩
  · refine ⟨_, hcall, ?_⟩
    have hid : rid = pluginId := by
      have hval := ((AccountParser.storedService_params _ _ _ _).1 hrid).1
      simpa [AccountService.withPluginId] using hval.symm
    rw [hanswer, hby.title_eq, hid]
    rfl
  · have hleaves := hplain _ hcall
    rw [storedService_verifiedAs] at hrid
    rcases hanswer : (env.write s₁.tick plugin { vResult with params } aResult s₁.records).1 with
      _ | (pluginId | what | what)
    · simp [Call.leavesId, hanswer, hrid] at hleaves
    · exact absurd hanswer (hnone pluginId)
    · simp [Call.leavesId, hanswer, hrid] at hleaves
    · simp [Call.leavesId, hanswer, hrid] at hleaves

theorem StoredIds.written {issued : List (Uuid × String × String)} {w : World Text}
    {p : AccountParser} {act : AccountObject} (h : StoredIds env issued w)
    (hreg : ∀ svcName ∈ act.services, (env.pluginNamed svcName).isSome)
    (hcomplete : env.writeFile w.tick (p.accountPath env act.id) (documentText env act) = .complete)
    (hids : ∀ (name : String) (svc : AccountService), act.services[name]? = some svc → ∀ rid,
      (AccountParser.storedService env name svc).params[pluginIdParam]? = some rid →
        (act.id, name, rid) ∈ issued) :
    StoredIds env issued (w.written env (p.accountPath env act.id) (documentText env act)) where
  inner q hq id' acc hread := by
    rcases read_written hreg hcomplete hread with ⟨rfl, rfl⟩ | hold
    · rfl
    · exact h.inner q hq id' acc hold
  issued q hq id' acc hread name svc hsvc rid hrid := by
    rcases read_written hreg hcomplete hread with ⟨rfl, rfl⟩ | hold
    · rw [AccountParser.stored_services_getElem?] at hsvc
      obtain ⟨svc', hsvc', rfl⟩ := Option.map_eq_some_iff.1 hsvc
      exact hids name svc' hsvc' rid hrid
    · exact h.issued q hq id' acc hold name svc hsvc rid hrid

/-- A verification that succeeded, followed by the write of the file. -/
theorem tracing_written {act act' : AccountObject} {w w₁ : World Text} {p : AccountParser}
    (hinit : AllInited env act.services)
    (hverify : (act.verify env).run w = .ok (true, act') w₁) :
    (tracing env act.id).rel w
      (w₁.written env (p.accountPath env act'.id) (documentText env act')) := by
  have hwithin : Within (tracing env act.id) (act.verify env) := tracing_verify act
  obtain ⟨cs, hcs, h⟩ := hwithin.rel_of_ok hverify
  refine ⟨cs ++ [.writeFile (p.accountPath env act'.id) (documentText env act')
    (env.writeFile w₁.tick (p.accountPath env act'.id) (documentText env act'))],
    by rw [World.calls_written, hcs, List.append_assoc], fun issued hstored hkeeps => ?_⟩
  obtain ⟨hjust, hstored₁⟩ := h issued hstored hkeeps.of_append.1
  refine ⟨justified_append.2 ⟨hjust, justified_of_handed (by simp [Call.handed])⟩, ?_⟩
  rw [issuedBy_append, ← List.append_assoc]
  refine StoredIds.mono ?_ (List.subset_append_left _ _)
  cases houtcome : env.writeFile w₁.tick (p.accountPath env act'.id) (documentText env act') with
  | notOpened =>
    refine hstored₁.congr fun path => ?_
    by_cases hpath : path = p.accountPath env act'.id
    · rw [hpath, World.fileAt_written_self, houtcome]
      rfl
    · exact World.fileAt_written_of_ne _ _ hpath
  | cutShort count =>
    have huncut := hkeeps.uncut _ (List.mem_append_right _ (List.mem_singleton_self _))
    simp [Call.cutsFile, houtcome] at huncut
  | complete =>
    refine hstored₁.written (registered_of_verify hverify) houtcome fun name svc' hsvc' rid hrid => ?_
    have hplain := hkeeps.plain ⟨_, List.mem_append_right _ (List.mem_singleton_self _), by
      simp [Call.fillsFile, houtcome]⟩
    rw [← newCalls_eq hcs] at hplain ⊢
    obtain ⟨c, hc, hissued⟩ := issued_of_verify hverify hinit
      (fun c hc => hplain c (List.mem_append_left _ hc)) hsvc' hrid
    rw [id_of_verify hverify]
    exact List.mem_append_right _ (mem_issuedBy hc hissued)

theorem verifyNewAccount_true {act act' : AccountObject} {w w' : World Text}
    (hr : (verifyNewAccount env act).run w = .ok (true, act') w') :
    (act.verify env).run w = .ok (true, act') w' := by
  simp only [verifyNewAccount, verifyAccountCreationLimits] at hr
  obtain ⟨allowed, w₁, hlimits, hr⟩ := run_bind_ok.1 hr
  obtain ⟨w₀, w₂, hget, hcheck⟩ := run_bind_ok.1 hlimits
  cases hget
  rcases checkLimits_ok hcheck with ⟨rfl, rfl⟩ | ⟨rfl, -⟩
  · exact hr
  · rw [if_neg (by simp), run_pure_ok] at hr
    cases hr.1

theorem tracing_verifyNewAccount (act : AccountObject) :
    Within (tracing env id) (verifyNewAccount env act) :=
  (within_get.bind fun _ => within_checkLimits
    (fun w _ => (bookkeeping_tracing env id).errors w _) _ _).bind
      fun _ => within_ite (fun _ => tracing_verify act) fun _ => within_pure _

theorem tracing_createAccount {act : AccountObject} (hinit : AllInited env act.services)
    (w : World Text) :
    (tracing env (env.uuidGenerate w.tick)).rel w (final ((createAccount env act).run w)) := by
  refine (bookkeeping_tracing env _).createAccount
    (tracing_of_unhanded rfl rfl (by simp [Call.handed])) tracing_verifyNewAccount ?_
    (tracing_setStatus _ _)
  have hinit' : AllInited env ({ act with id := env.uuidGenerate w.tick } : AccountObject).services :=
    hinit
  exact fun p _ _ act' w₁ hr => tracing_written hinit' (verifyNewAccount_true hr)

theorem tracing_modifyAccount {act : AccountObject} (hinit : AllInited env act.services)
    {w : World Text} (hinner : InnerIds env w) (id : Uuid) :
    (tracing env id).rel w (final ((modifyAccount env id act).run w)) := by
  refine (bookkeeping_tracing env id).modifyAccount (tracing_readAccount id) (tracing_verify _) ?_ ?_
    fun oldAct act' => AccountObject.within_cleanup fun _ _ _ _ _ =>
      (tracing_callDeleteSecret _).bind fun _ => within_pure _
  · have hinit' : AllInited env ({ act with id } : AccountObject).services := hinit
    exact fun q acc oldAct w₁ p act' w₂ _ _ hr => tracing_written hinit' hr
  · intro q acc oldAct w₁ hok
    have holdid : oldAct.id = id :=
      hok.id_eq.trans (hinner q (findParser_some hok.parser_eq).1 id acc hok.read_eq)
    rw [holdid]
    exact tracing_setStatus id _

/-! ## Requests -/

/-- The account that a request is about. -/
def Request.account (env : Env Text) (w : World Text) : Request → Uuid
  | .add _ => env.uuidGenerate w.tick
  | .get id | .setStatus id _ | .getStatus id | .edit id _ | .remove id =>
    (env.uuidFromString (cStr (id.getD ""))).2
  | .list .. => Uuid.null

/-- The state after a request, whether it was answered or raised. -/
def Request.after (env : Env Text) (w : World Text) (req : Request) : World Text :=
  final ((RPCHandler.handle env req).run w)

section

variable {F : Frame (World Text)}

theorem within_kjAssert (condition : Bool) (description : String) :
    Within F (kjAssert condition description : M Text Unit) :=
  within_ite (fun _ => within_pure _) fun _ => within_throw _

theorem within_requestId (id : Option String) (notSet invalid : String) :
    Within F (RPCHandler.requestId env id notSet invalid) := by
  cases id with
  | none => exact within_throw _
  | some strId => exact (within_kjAssert _ _).bind fun _ => within_pure _

theorem within_requestAccount (account : RPCAccount) :
    Within F (RPCHandler.requestAccount env account) := by
  rw [RPCHandler.requestAccount]
  cases RPCHandler.rpc2act env account with
  | some act => exact within_pure _
  | none => exact within_throw _

theorem requestId_ok {strId : Option String} {notSet invalid : String} {w w' : World Text}
    (hr : (RPCHandler.requestId env strId notSet invalid).run w = .ok id w') :
    id = (env.uuidFromString (cStr (strId.getD ""))).2 ∧ w' = w := by
  cases strId with
  | none => cases hr
  | some strId =>
    rw [Option.getD_some]
    rcases hparse : env.uuidFromString (cStr strId) with ⟨parsed, accountId⟩
    simp only [RPCHandler.requestId, hparse] at hr
    obtain ⟨_, w₁, hassert, hr⟩ := run_bind_ok.1 hr
    obtain ⟨rfl, rfl⟩ := run_pure_ok.1 hr
    rw [kjAssert] at hassert
    split at hassert
    · exact ⟨rfl, (run_pure_ok.1 hassert).2.symm⟩
    · cases hassert

/-- A request that names an account. -/
theorem rel_requestId {α : Type} {strId : Option String} {notSet invalid : String} {w : World Text}
    {k : Uuid → M Text α}
    (hk : F.rel w (final ((k (env.uuidFromString (cStr (strId.getD ""))).2).run w))) :
    F.rel w (final ((RPCHandler.requestId env strId notSet invalid >>= k).run w)) := by
  refine rel_bind (fun e s' hr => (within_requestId _ _ _).rel_of_error hr) fun id w' hr => ?_
  obtain ⟨rfl, rfl⟩ := requestId_ok hr
  exact hk

end

theorem tracing_resetErrors : Within (tracing env id) (resetErrors : M Text Unit) :=
  (bookkeeping_tracing env id).resetErrors

theorem tracing_handle (req : Request) {w : World Text} (hinner : InnerIds env w) :
    (tracing env (req.account env w)).rel w (req.after env w) := by
  cases req with
  | list providerFilter serviceFilter =>
    exact (tracing_resetErrors.bind fun _ => within_get.bind fun _ => within_pure _ :
      Within _ (RPCHandler.list env providerFilter serviceFilter)) w
  | get strId =>
    refine rel_requestId ((tracing_resetErrors.bind fun _ => (tracing_readAccount _).bind
      fun r => ?_) w)
    cases r with
    | none => exact within_get.bind fun _ => within_throw _
    | some act => exact within_pure _
  | setStatus strId stat =>
    exact rel_requestId ((tracing_resetErrors.bind fun _ => (tracing_setStatus _ _).bind
      fun _ => (within_kjAssert _ _).bind fun _ => within_pure _) w)
  | getStatus strId =>
    exact rel_requestId ((tracing_resetErrors.bind fun _ => within_get.bind
      fun _ => within_pure _) w)
  | add account =>
    cases account with
    | none => exact within_throw _ w
    | some account =>
      refine rel_bind (fun e s' hr => (within_requestAccount _).rel_of_error hr) fun act w' hr => ?_
      obtain ⟨hdecoded, rfl⟩ := requestAccount_ok hr
      refine rel_bind (fun e s' h => by cases h) fun _ w' hreset => ?_
      cases hreset
      refine (tracing env _).trans ((bookkeeping_tracing env _).errors w []) ?_
      exact rel_bind_within (tracing_createAccount hdecoded.allInited { w with errors := [] })
        fun _ => within_get.bind fun _ => (within_kjAssert _ _).bind fun _ => within_pure _
  | edit strId account =>
    cases strId with
    | none => exact within_throw _ w
    | some strId =>
      cases account with
      | none => exact within_throw _ w
      | some account =>
        refine rel_requestId (rel_bind
          (fun e s' hr => (within_requestAccount _).rel_of_error hr) fun act w' hr => ?_)
        obtain ⟨hdecoded, rfl⟩ := requestAccount_ok hr
        refine rel_bind (fun e s' h => by cases h) fun _ w' hreset => ?_
        cases hreset
        refine (tracing env _).trans ((bookkeeping_tracing env _).errors w []) ?_
        exact rel_bind_within (tracing_modifyAccount (w := { w with errors := [] })
          hdecoded.allInited (hinner.congr rfl) _)
          fun _ => (within_kjAssert _ _).bind fun _ => within_get.bind fun _ => within_pure _
  | remove strId =>
    exact rel_requestId ((tracing_resetErrors.bind fun _ => (tracing_deleteAccount _).bind
      fun _ => (within_kjAssert _ _).bind fun _ => within_pure _) w)

/-- In requests handled one after the other, however each ends, every id handed to a plugin for a
service of an account was returned by the plugin's `write` for that service of that account. -/
def IdsJustified (env : Env Text) :
    List (Uuid × String × String) → World Text → List Request → Prop
  | _, _, [] => True
  | issued, w, req :: reqs =>
    Justified (req.account env w) issued (w.newCalls (req.after env w)) ∧
      IdsJustified env
        (issued ++ issuedBy (req.account env w) (w.newCalls (req.after env w)))
        (req.after env w) reqs

/-- In every request only issued ids get into an account file. -/
def AllKeepIssued (env : Env Text) : World Text → List Request → Prop
  | _, [] => True
  | w, req :: reqs =>
    KeepsIssued (w.newCalls (req.after env w)) ∧ AllKeepIssued env (req.after env w) reqs

theorem idsJustified_of_stored {issued : List (Uuid × String × String)} {w : World Text}
    {reqs : List Request} (hstored : StoredIds env issued w) (hkeep : AllKeepIssued env w reqs) :
    IdsJustified env issued w reqs := by
  induction reqs generalizing issued w with
  | nil => trivial
  | cons req reqs ih =>
    obtain ⟨cs, hcs, h⟩ := tracing_handle req hstored.inner
    obtain ⟨hkeeps, hrest⟩ := hkeep
    rw [newCalls_eq hcs] at hkeeps
    obtain ⟨hjust, hstored'⟩ := h issued hstored hkeeps
    rw [IdsJustified, newCalls_eq hcs]
    exact ⟨hjust, ih hstored' hrest⟩

/-- Record ids are never forged as long as the parameters that a `write` of a plugin leaves in the
file hold none. -/
theorem record_ids_justified (env : Env Text) (w : World Text) (hempty : ∀ dir, w.files dir = ∅)
    (reqs : List Request) (hkeep : AllKeepIssued env w reqs) : IdsJustified env [] w reqs := by
  refine idsJustified_of_stored ⟨(tidy_of_empty hempty).inner, fun p _ id acc hread => ?_⟩ hkeep
  obtain ⟨text, hfile, -⟩ := AccountParser.read_ok_iff.1 hread
  rw [World.fileAt, hempty, Std.ExtTreeMap.getElem?_empty] at hfile
  cases hfile

/-- A plugin that keeps one record for each service, and gives it the number of the call. -/
def recordingEnv : Env YamlText :=
  { referenceConfig, referenceAnswers with
    read := fun _ _ _ => some (.returned ((∅ : StrStrMap).insert "user" "ann"))
    write := fun n plugin _ _ records =>
      (some (.returned (toString n)), records ++ [{ plugin := plugin.title, id := toString n }])
    remove := fun _ plugin id records =>
      (some (.returned true), records.erase { plugin := plugin.title, id }) }

/-- An account is added, read and removed, and the plugin gets the id back that it gave to the
record. -/
theorem record_ids_justified_recording :
    IdsJustified recordingEnv [] { files := fun _ => ∅ } [.add (some mailRequest),
      .get (some (recordingEnv.uuidAsString 1)), .remove (some (recordingEnv.uuidAsString 1))] :=
  record_ids_justified recordingEnv { files := fun _ => ∅ } (fun _ => rfl) _
    ⟨⟨by decide +kernel, fun _ => by decide +kernel⟩, ⟨by decide +kernel, fun _ => by decide +kernel⟩,
      ⟨by decide +kernel, fun _ => by decide +kernel⟩, trivial⟩

/-- The `verify` of every plugin passes the keys through that it received. -/
def PassesKeys (env : Env Text) : Prop :=
  ∀ n plugin params result, env.verify n plugin params = .returned result →
    ∀ key : String, key ∈ result.params.map ServiceParam.key ↔ key ∈ params

/-- A plugin whose `write` raises, which reads a record that is asked for. -/
def forgettingEnv : Env YamlText :=
  { recordingEnv with write := fun _ _ _ _ records => (some (.raised "disk full"), records) }

/-- A service with a record id of the client's own. -/
def forgedRequest : RPCAccount :=
  { mailRequest with services := [{ name := "mail", params := [(pluginIdParam, "forged")] }] }

theorem passesKeys_forgettingEnv : PassesKeys forgettingEnv := by
  intro n plugin params result h key
  cases h
  rw [List.map_map, ← Std.ExtTreeMap.mem_keys, ← Std.ExtTreeMap.map_fst_toList_eq_keys]
  rfl

/-- The id of the client is handed to the plugin when the status of the new account is set. -/
theorem forged_id_is_read : PassesKeys forgettingEnv ∧
    ¬IdsJustified forgettingEnv [] { files := fun _ => ∅ } [.add (some forgedRequest)] := by
  have hforged : ¬Justified
      ((Request.add (some forgedRequest)).account forgettingEnv { files := fun _ => ∅ }) []
      (World.newCalls { files := fun _ => ∅ } ((Request.add (some forgedRequest)).after forgettingEnv
        { files := fun _ => ∅ })) := by decide +kernel
  refine ⟨passesKeys_forgettingEnv, ?_⟩
  rw [IdsJustified, not_and_or]
  exact .inl hforged

end PxAccounts
