import PxAccounts.Lib.Run
import PxAccounts.Proof.Exceptions

/-!
# The service refines a map of accounts

With plugins that keep nothing of their own, the directories behave as one map from ids to accounts:
a successful creation or modification puts the details of the account and the parameters that the
plugins returned without the protected flag into the map, a deletion takes the account out, and a
call that fails leaves the map alone.
-/

namespace PxAccounts

open Effect Run AccountManager
open AccountObject (rest lenient_rest)

variable {Text : Type} {env : Env Text}

/-! ## The map -/

/-- What the map keeps of an account: its details, and the parameters of each of its services. -/
structure AccountEntry where
  title : String
  provider : String
  isActive : Bool
  settings : StrStrMap
  services : String → Option (String → Option String)

abbrev AccountMap := Uuid → Option AccountEntry

/-- The entry that an account is seen as. -/
def AccountEntry.of (act : AccountObject) : AccountEntry where
  title := act.title
  provider := act.provider
  isActive := act.isActive
  settings := act.settings
  services name := act.services[name]?.map fun svc key => svc.params[key]?

/-- The last parameter with this key. -/
def lastParam (params : ServiceParamList) (key : String) : Option ServiceParam :=
  params.reverse.find? fun p => p.key == key

/-- The parameters without the protected flag; the last entry of a key decides. -/
def unprotectedParams (params : ServiceParamList) (key : String) : Option String :=
  ((lastParam params key).filter fun p => !p.isProtected).map ServiceParam.val

/-- A service of the entry has the unprotected parameters of an answer that its plugin gave in these
calls. -/
def Verified (calls : List (Call Text)) (svcName : String) (params : String → Option String) :
    Prop :=
  ∃ given result, Call.verify svcName given (.returned result) ∈ calls ∧
    result.verified = true ∧ params = unprotectedParams result.params

/-- The entry that a save of `act` puts into the map. -/
structure AccountEntry.SavedFrom (act : AccountObject) (calls : List (Call Text))
    (entry : AccountEntry) : Prop where
  title : entry.title = act.title
  provider : entry.provider = act.provider
  isActive : entry.isActive = act.isActive
  settings : entry.settings = act.settings
  names : ∀ name : String, (entry.services name).isSome ↔ name ∈ act.services
  services : ∀ name params, entry.services name = some params → Verified calls name params

/-- One call, with its result unless an exception ended it, and what it asked for outside. -/
structure Performed (Text : Type) where
  op : Op
  result : Option Bool
  calls : List (Call Text)

/-- What a call makes of the map. -/
inductive AccountMap.Step : AccountMap → Performed Text → AccountMap → Prop
  | failed {m : AccountMap} {op : Op} {result : Option Bool} {calls : List (Call Text)} :
      result ≠ some true → Step m ⟨op, result, calls⟩ m
  | created {m : AccountMap} {act : AccountObject} {calls : List (Call Text)} {id : Uuid}
      {entry : AccountEntry} : .uuidGenerate id ∈ calls → m id = none → entry.SavedFrom act calls →
      Step m ⟨.create act, some true, calls⟩ (Function.update m id (some entry))
  | modified {m : AccountMap} {id : Uuid} {act : AccountObject} {calls : List (Call Text)}
      {entry : AccountEntry} : (m id).isSome → entry.SavedFrom act calls →
      Step m ⟨.modify id act, some true, calls⟩ (Function.update m id (some entry))
  | deleted {m : AccountMap} {id : Uuid} {calls : List (Call Text)} : (m id).isSome →
      Step m ⟨.delete id, some true, calls⟩ (Function.update m id none)
  | statusSet {m : AccountMap} {id : Uuid} {stat : AccountStatus} {calls : List (Call Text)} :
      (m id).isSome → Step m ⟨.setStatus id stat, some true, calls⟩ m

/-- The map that `readAccount` shows. -/
def Shows (env : Env Text) (w : World Text) (m : AccountMap) : Prop :=
  ∀ id, ∃ r w', (readAccount env id).run w = .ok r w' ∧ r.map AccountEntry.of = m id

/-! ## Plugins without custom storage -/

/-- No plugin defines `read`, `write` or `remove`: a call of one of them raises. -/
structure NoCustomStorage (env : Env Text) : Prop where
  read : ∀ n plugin id params, env.read n plugin id ≠ some (.returned params)
  write : ∀ n plugin vResult aResult records pluginId,
    (env.write n plugin vResult aResult records).1 ≠ some (.returned pluginId)
  remove : ∀ n plugin id records removed,
    (env.remove n plugin id records).1 ≠ some (.returned removed)

theorem run_performCustomRead (hno : NoCustomStorage env) {name : String} {svc : AccountService}
    (hlinked : svc.LinkedAs env name) (w : World Text) :
    ∃ w', (svc.performCustomRead env).run w = .ok svc w' := by
  rw [AccountService.performCustomRead]
  cases svc.params[pluginIdParam]? with
  | none => exact ⟨w, rfl⟩
  | some pluginId =>
    obtain ⟨plugin, hplugin⟩ := Option.isSome_iff_exists.1 hlinked.registered
    have hderef : svc.derefPlugin.run w = .ok plugin w := by
      rw [AccountService.derefPlugin, hlinked.plugin_eq, hplugin]
      rfl
    obtain ⟨what, hwhat⟩ : ∃ what,
        plugin.optionalResult "read not found" (env.read w.tick plugin pluginId) = .error what := by
      cases hres : plugin.optionalResult "read not found" (env.read w.tick plugin pluginId) with
      | error what => exact ⟨what, rfl⟩
      | ok params =>
        exact absurd ((AccountService.optionalResult_ok_iff plugin _).1 hres) (hno.read _ _ _ _)
    have hread : (plugin.read env pluginId).run w = .ok (.error what)
        (w.record (.read plugin.title pluginId (env.read w.tick plugin pluginId))) := by
      rw [← hwhat]
      rfl
    refine ⟨_, run_bind_ok.2 ⟨plugin, w, hderef, run_bind_ok.2 ⟨_, _, hread, rfl⟩⟩⟩

/-- The turn of `readServices` for one service. -/
def readTurn (env : Env Text) (account : AccountObject) (kv : String × AccountService) :
    M Text AccountObject := do
  let svc ← kv.2.performCustomRead env
  return { account with services := account.services.insert kv.1 svc }

theorem run_readServices (hno : NoCustomStorage env) {acc : AccountObject}
    (hall : AllInited env acc.services) (w : World Text) :
    ∃ w', (readServices env acc).run w = .ok acc w' := by
  have hloop : ∀ (l : List (String × AccountService)) (w : World Text),
      (∀ kv ∈ l, acc.services[kv.1]? = some kv.2) →
      ∃ w', (l.foldlM (readTurn env) acc).run w = .ok acc w' := by
    intro l
    induction l with
    | nil => exact fun w _ => ⟨w, rfl⟩
    | cons kv l ih =>
      intro w hl
      have hkv := hl kv (by simp)
      obtain ⟨w₁, hread⟩ := run_performCustomRead hno (hall kv.1 kv.2 hkv) w
      obtain ⟨w₂, hrest⟩ := ih w₁ fun kv' h' => hl kv' (by simp [h'])
      refine ⟨w₂, ?_⟩
      rw [List.foldlM_cons]
      refine run_bind_ok.2 ⟨acc, w₁, run_bind_ok.2 ⟨kv.2, w₁, hread, ?_⟩, hrest⟩
      rw [TreeMap.insert_of_getElem? hkv]
      rfl
  exact hloop _ w fun kv hkv => Std.ExtTreeMap.mem_toList_iff_getElem?_eq_some.1 hkv

/-- The entry in the file that `readAccount` finds. -/
def entryAt (env : Env Text) (w : World Text) : AccountMap := fun id =>
  (findParser env w id false).bind fun p =>
    (p.read env w id {}).toOption.map AccountEntry.of

theorem shows_entryAt (hno : NoCustomStorage env) (w : World Text) : Shows env w (entryAt env w) := by
  intro id
  cases hfind : findParser env w id false with
  | none =>
    refine ⟨none, w.addErrors ["Could not find suitable parser."], ?_, ?_⟩
    · simp only [readAccount]
      refine run_bind_ok.2 ⟨w, w, rfl, ?_⟩
      rw [hfind]
      rfl
    · rw [entryAt, hfind]
      rfl
  | some p =>
    cases hread : p.read env w id {} with
    | error errs =>
      refine ⟨none, (w.addErrors ["Error on reading account file: '" ++ env.uuidAsString id ++
        "'."]).addErrors errs, ?_, ?_⟩
      · simp only [readAccount]
        refine run_bind_ok.2 ⟨w, w, rfl, ?_⟩
        simp only [hfind]
        refine run_bind_ok.2 ⟨w, w, rfl, ?_⟩
        rw [hread]
        rfl
      · rw [entryAt, hfind, Option.bind_some, hread]
        rfl
    | ok acc =>
      obtain ⟨w', hrun⟩ := run_readServices hno (allInited_of_read hread) w
      refine ⟨some acc, w', ?_, ?_⟩
      · simp only [readAccount]
        refine run_bind_ok.2 ⟨w, w, rfl, ?_⟩
        simp only [hfind]
        refine run_bind_ok.2 ⟨w, w, rfl, ?_⟩
        simp only [hread]
        exact run_bind_ok.2 ⟨acc, w', hrun, rfl⟩
      · rw [entryAt, hfind, Option.bind_some, hread]
        rfl

/-! ## The parameters of a verified service -/

theorem assigned_getElem? {β : Type} (f : ServiceParam → β) (params : ServiceParamList)
    (key : String) :
    (AccountService.assigned f params)[key]? = (lastParam params key).map f := by
  induction params using List.reverseRecOn with
  | nil => exact Std.ExtTreeMap.getElem?_empty
  | append_singleton l p ih =>
    have hinsert : AccountService.assigned f (l ++ [p]) =
        (AccountService.assigned f l).insert p.key (f p) := by
      rw [AccountService.assigned, List.map_append, TreeMap.insertAll_append]
      rfl
    rw [hinsert, lastParam, List.reverse_append, List.reverse_singleton, List.singleton_append,
      List.find?_cons]
    by_cases hk : p.key = key
    · subst hk
      rw [Std.ExtTreeMap.getElem?_insert_self, beq_self_eq_true]
      rfl
    · rw [TreeMap.getElem?_insert_of_ne hk, ih, beq_eq_false_iff_ne.2 hk, lastParam]

/-- Loading saved secrets leaves the unprotected parameters as the plugin returned them. -/
theorem unprotectedParams_loaded {ps qs : ServiceParamList}
    (h : List.Forall₂ AccountService.Loaded ps qs) (key : String) :
    unprotectedParams qs key = unprotectedParams ps key := by
  have hfind : ∀ {ps qs : ServiceParamList}, List.Forall₂ AccountService.Loaded ps qs →
      ((qs.find? fun p => p.key == key).filter fun p => !p.isProtected).map ServiceParam.val =
        ((ps.find? fun p => p.key == key).filter fun p => !p.isProtected).map ServiceParam.val := by
    intro ps qs h
    induction h with
    | nil => rfl
    | @cons p q ps qs hpq _ ih =>
      rw [List.find?_cons, List.find?_cons, hpq.key]
      cases hk : p.key == key with
      | false => exact ih
      | true =>
        simp only [Option.filter_some, hpq.isProtected]
        cases hprot : p.isProtected with
        | false => simp [hpq.val hprot]
        | true => simp
  rw [unprotectedParams, unprotectedParams, lastParam, lastParam]
  exact hfind (List.forall₂_reverse_iff.2 h)

/-- The file keeps the unprotected parameters of a service that was verified. -/
theorem storedService_verifiedAs (name : String) (svc : AccountService) (params : ServiceParamList)
    (errs : StringList) (key : String) :
    (AccountParser.storedService env name (svc.verifiedAs params errs)).params[key]? =
      unprotectedParams params key := by
  have hparams : (svc.verifiedAs params errs).params[key]? =
      (lastParam params key).map ServiceParam.val := by
    rw [AccountService.verifiedAs, AccountService.applyVerification_eq]
    exact assigned_getElem? _ _ _
  have hprotected : (svc.verifiedAs params errs).isProtected key =
      ((lastParam params key).map ServiceParam.isProtected).getD false := by
    rw [AccountService.isProtected, AccountService.verifiedAs, AccountService.applyVerification_eq,
      ← assigned_getElem?]
    exact Std.ExtTreeMap.getD_eq_getD_getElem?
  refine Option.ext fun val => ?_
  rw [AccountParser.storedService_params, hparams, hprotected, unprotectedParams]
  cases lastParam params key with
  | none => simp
  | some p => cases hp : p.isProtected <;> simp [hp]

/-- The verification of one service of an account that was accepted, which ended in the custom write
of its plugin. -/
structure WrittenBy (env : Env Text) (act : AccountObject) (name : String) (svc' : AccountService)
    (w w' : World Text) (svc : AccountService) (plugin : PluginContainer) (vResult : VerifyResult)
    (params : ServiceParamList) (aResult : AuthResult) (errs : StringList) (s₁ s' : World Text) :
    Prop where
  svc_eq : (AccountObject.prepared env act).services[name]? = some svc
  title_eq : plugin.title = name
  plugin_eq : svc.plugin = some plugin
  verified : vResult.verified = true
  called : .verify name svc.params (.returned vResult) ∈ w.newCalls w'
  loaded : List.Forall₂ AccountService.Loaded vResult.params params
  before : w.calls <+: s₁.calls
  after : s'.calls <+: w'.calls
  run_eq : ((svc.verifiedAs params errs).customWrite env { vResult with params } aResult).run s₁ =
    .ok svc' s'

theorem writtenBy_of_verify {act act' : AccountObject} {w w' : World Text}
    (hr : (act.verify env).run w = .ok (true, act') w') (hinit : AllInited env act.services)
    {name : String} {svc' : AccountService} (hsvc' : act'.services[name]? = some svc') :
    ∃ svc plugin vResult params aResult errs s₁ s',
      WrittenBy env act name svc' w w' svc plugin vResult params aResult errs s₁ s' := by
  rcases AccountObject.verify_ok hr with ⟨hb, -⟩ | ⟨-, w₁, hservices, hend⟩
  · cases hb
  have hw₁ : w' = w₁ := (hend.resolve_right fun h => by cases h.1).2
  subst hw₁
  obtain ⟨-, -, hout⟩ := AccountObject.verifyServices_ok hservices
  obtain ⟨svc, hsvc, hlink, hdone⟩ := hout name svc' hsvc'
  obtain ⟨hreg, s, s', hs, hs', hrun⟩ := hdone rfl
  have hlinked := (hinit.congr (AccountObject.sameLinks_prepared env act)) name svc hsvc
  rcases AccountService.verify_ok hrun with ⟨hb, -⟩ |
    ⟨plugin, vResult, params, aResult, errs, s₁, -, hacc, hbefore, hwrite⟩
  · cases hb
  have htitle : plugin.title = name := hlinked.title_eq hacc.plugin_eq
  have hbefore' : s.calls <+: s₁.calls :=
    hbefore _ quiet_callsFrame fun _ _ => List.prefix_append _ _
  have hafter : s₁.calls <+: s'.calls :=
    (AccountService.within_customWrite quiet_callsFrame.asking.searching
      (fun _ _ _ _ => List.prefix_append _ _) _ _ _).rel_of_ok hwrite
  refine ⟨svc, plugin, vResult, params, aResult, errs, s₁, s', hsvc, htitle, hacc.plugin_eq,
    hacc.verified, ?_, hacc.loaded, hs.trans hbefore', hs', hwrite⟩
  rw [← htitle]
  exact World.newCalls_mono_right (hafter.trans hs') (World.newCalls_mono_left hs hacc.called)

/-- What the file keeps of an account that was verified is an entry for the map. -/
theorem savedFrom_of_verify (hno : NoCustomStorage env) {act act' : AccountObject}
    {w w₁ w₂ w' : World Text} (hr : (act.verify env).run w₁ = .ok (true, act') w₂)
    (hinit : AllInited env act.services) (hbefore : w.calls <+: w₁.calls)
    (hafter : w₂.calls <+: w'.calls) :
    (AccountEntry.of (AccountParser.stored env act')).SavedFrom act (w.newCalls w') := by
  have hdetails : act' = { act with services := act'.services, errors := act'.errors } :=
    details_of_verify hr
  obtain ⟨-, hnames⟩ := services_of_verify (reaches_of_verified hr) hr hinit
  have hservice : ∀ name : String, (AccountEntry.of (AccountParser.stored env act')).services name =
      act'.services[name]?.map fun svc key =>
        (AccountParser.storedService env name svc).params[key]? := by
    intro name
    show ((AccountParser.stored env act').services[name]?).map _ = _
    rw [AccountParser.stored_services_getElem?, Option.map_map]
    rfl
  refine ⟨?_, ?_, ?_, ?_, fun name => ?_, fun name params hget => ?_⟩
  · exact (congrArg AccountObject.title hdetails :)
  · exact (congrArg AccountObject.provider hdetails :)
  · exact (congrArg AccountObject.isActive hdetails :)
  · exact (congrArg AccountObject.settings hdetails :)
  · rw [hservice, Option.isSome_map, ← Std.ExtTreeMap.mem_iff_isSome_getElem?, hnames]
  · rw [hservice] at hget
    obtain ⟨svc', hsvc', hparams⟩ := Option.map_eq_some_iff.1 hget
    obtain ⟨svc, plugin, vResult, loaded, aResult, errs, s₁, s', hby⟩ :=
      writtenBy_of_verify hr hinit hsvc'
    obtain ⟨_, -, -, ⟨pluginId, hwritten, -⟩ | ⟨-, rfl⟩⟩ := AccountService.customWrite_ok hby.run_eq
    · exact absurd hwritten (hno.write _ _ _ _ _ _)
    refine ⟨svc.params, vResult, ?_, hby.verified, ?_⟩
    · exact World.newCalls_mono_right hafter (World.newCalls_mono_left hbefore hby.called)
    · rw [← hparams]
      funext key
      rw [storedService_verifiedAs, unprotectedParams_loaded hby.loaded]

/-! ## The map after each change -/

theorem entryAt_congr {w w' : World Text} (h : w'.files = w.files) : entryAt env w' = entryAt env w := by
  funext id
  rw [entryAt, entryAt, findParser_of_files h]
  refine congrArg _ (funext fun p => ?_)
  rw [AccountParser.read_congr (World.fileAt_congr h _)]

theorem entryAt_of_read {w : World Text} {id : Uuid} {p : AccountParser} {acc : AccountObject}
    (hfind : findParser env w id false = some p) (hread : p.read env w id {} = .ok acc) :
    entryAt env w id = some (AccountEntry.of acc) := by
  rw [entryAt, hfind, Option.bind_some, hread]
  rfl

/-- Whatever is shown of an account is in a file of that account. -/
theorem stored_of_entryAt {w : World Text} {id : Uuid} (h : (entryAt env w id).isSome) :
    ∃ p ∈ env.parsers, (w.fileAt (p.accountPath env id)).isSome := by
  obtain ⟨entry, hentry⟩ := Option.isSome_iff_exists.1 h
  obtain ⟨p, hfind, hp⟩ := Option.bind_eq_some_iff.1 hentry
  cases hread : p.read env w id {} with
  | error errs =>
    rw [hread] at hp
    cases hp
  | ok acc => exact ⟨p, (findParser_some hfind).1, isSome_of_read hread⟩

theorem SavedVia.entryAt_eq {p : AccountParser} {act' : AccountObject} {event : String}
    {w w₁ w₂ w' : World Text} {b : Bool} (h : SavedVia env p act' event w w₁ w₂ w' b)
    (hd : Dependable env) : entryAt env w' = Function.update (entryAt env w) act'.id
      (some (AccountEntry.of (AccountParser.stored env act'))) := by
  have hfile : (w₁.written env (p.accountPath env act'.id) (documentText env act')).fileAt
      (p.accountPath env act'.id) = some (documentText env act') := fileAt_written_complete hd _
  rw [entryAt_congr h.files_eq, ← entryAt_congr h.files₁]
  funext id
  by_cases hid : id = act'.id
  · subst hid
    rw [Function.update_self]
    refine entryAt_of_read (findParser_written h.notNull h.routed (by rw [hfile]; rfl)) ?_
    exact AccountParser.read_ok_iff.2 ⟨_, hfile, readText_document h.registered⟩
  · rw [Function.update_of_ne hid, entryAt, entryAt, findParser_congr fun q _ =>
      AccountParser.hasAccount_written_of_ne rfl hid]
    refine congrArg _ (funext fun q => ?_)
    rw [AccountParser.read_congr (World.fileAt_written_of_ne _ _ (accountPath_ne hid))]

theorem entryAt_erased {w : World Text} (htidy : Tidy env w) {p : AccountParser} {id : Uuid}
    (hp : p ∈ env.parsers) (hex : (w.fileAt (p.accountPath env id)).isSome) :
    entryAt env (w.erased (p.accountPath env id)) = Function.update (entryAt env w) id none := by
  funext id'
  by_cases hid : id' = id
  · subst hid
    rw [Function.update_self, ← Option.not_isSome_iff_eq_none]
    intro hsome
    exact ((stored_erased htidy hp hex id').1 (stored_of_entryAt hsome)).1 rfl
  · rw [Function.update_of_ne hid, entryAt, entryAt, findParser_congr fun q _ =>
      AccountParser.hasAccount_erased_of_ne rfl hid]
    refine congrArg _ (funext fun q => ?_)
    rw [AccountParser.read_congr (World.fileAt_erased_of_ne _ (accountPath_ne hid))]

/-! ## Runs -/

/-- A call made as `RPCHandler` makes it, however it ends. -/
structure Performs (env : Env Text) (w : World Text) (call : Performed Text) (w' : World Text) :
    Prop where
  requested : call.op.Requested env w
  ends : call.op.Ends env w call.result w'
  calls : call.calls = w.newCalls w'

/-- One call of the service is one step of the map. -/
theorem step_of_call (hno : NoCustomStorage env) (hd : Dependable env)
    (hinit : env.eventManagerInited = true) {w w' : World Text} {call : Performed Text}
    (htidy : Tidy env w) (hcall : Performs env w call w') :
    AccountMap.Step (entryAt env w) call (entryAt env w') ∧ Tidy env w' := by
  obtain ⟨op, result, calls⟩ := call
  obtain ⟨hreq, hends, hcalls⟩ := hcall
  dsimp only at hreq hends hcalls
  subst hcalls
  have hfailed : ∀ (op : Op) (result : Option Bool), result ≠ some true → rest w' = rest w →
      AccountMap.Step (entryAt env w) ⟨op, result, w.newCalls w'⟩ (entryAt env w') ∧ Tidy env w' := by
    intro op result hresult h
    have hfiles : w'.files = w.files := congrArg Prod.fst h
    rw [entryAt_congr hfiles]
    exact ⟨.failed hresult, htidy.congr hfiles⟩
  cases hends with
  | raised hr => exact hfailed _ _ nofun (Op.rest_of_raised hinit hr)
  | returned hr =>
  cases op with
  | create act =>
    obtain ⟨act', hr⟩ := Op.run_create_ok.1 hr
    obtain ⟨hdec, -, hfresh⟩ := hreq
    rcases create_cases hr with ⟨rfl, h⟩ | ⟨rfl, hid, p, w₁, w₂, sb, hverify, hvia⟩
    · exact hfailed _ _ (by decide) h
    have hgrow := (AccountObject.calls_verify _).rel_of_ok hverify
    have hsaved := savedFrom_of_verify hno hverify hdec.allInited
      (List.prefix_append w.calls _) hvia.calls_prefix
    rw [hvia.entryAt_eq hd, hid]
    refine ⟨.created ?_ ?_ ⟨hsaved.title, hsaved.provider, hsaved.isActive, hsaved.settings,
      hsaved.names, hsaved.services⟩, ?_⟩
    · exact World.mem_newCalls_of_prefix (hgrow.trans hvia.calls_prefix)
    · rw [← Option.not_isSome_iff_eq_none]
      exact fun h => hfresh (stored_of_entryAt h)
    · exact hvia.tidy hd htidy fun q hq hex => absurd ⟨q, hq, hid ▸ hex⟩ hfresh
  | modify id act =>
    obtain ⟨act', hr⟩ := Op.run_modify_ok.1 hr
    rcases modify_cases htidy.inner hr with ⟨rfl, h⟩ |
      ⟨rfl, hid, p, acc, oldAct, w₀, w₁, w₂, sb, hok, hverify, hvia⟩
    · exact hfailed _ _ (by decide) h
    have hdec : Decoded env act := hreq
    have hsaved := savedFrom_of_verify hno hverify hdec.allInited
      (hok.silent _ quiet_callsFrame) hvia.calls_prefix
    rw [hvia.entryAt_eq hd, hid]
    refine ⟨.modified ?_ ⟨hsaved.title, hsaved.provider, hsaved.isActive, hsaved.settings,
      hsaved.names, hsaved.services⟩, ?_⟩
    · rw [entryAt_of_read hok.parser_eq hok.read_eq]
      rfl
    · refine hvia.tidy hd htidy fun q hq hex => ?_
      exact htidy.unique q hq p hvia.routed.mem _ hex (hid ▸ isSome_of_read hok.read_eq)
  | delete id =>
    rcases delete_cases htidy.inner hr with ⟨rfl, h⟩ | ⟨rfl, p, act, w₁, hfind, hread, hid, hrest, rfl⟩
    · exact hfailed _ _ (by decide) h
    have hp := (findParser_some hfind).1
    have hfiles : (w₁.published env "account_delete" (EventManager.accountParams env act)).files =
        (w.erased (p.accountPath env id)).files :=
      (w₁.files_published _ _).trans (congrArg Prod.fst hrest)
    rw [entryAt_congr hfiles, entryAt_erased htidy hp (isSome_of_read hread)]
    refine ⟨.deleted ?_, (htidy.erased _).congr hfiles⟩
    rw [entryAt_of_read (findParser_false_of_true hfind) hread]
    rfl
  | setStatus id stat =>
    have hfiles := (setStatus_writesNothing hr).1
    rcases setStatus_ok hr with ⟨rfl, -, errs, rfl⟩ | ⟨p, acc, act, w₁, rfl, hok, rfl⟩
    · exact hfailed _ _ (by decide) rfl
    · rw [entryAt_congr hfiles]
      refine ⟨.statusSet ?_, htidy.congr hfiles⟩
      rw [entryAt_of_read hok.parser_eq hok.read_eq]
      rfl

/-- Directories in which every file is named by a uuid in lower case, reads as the account with that
id, and no uuid is in two of them. -/
structure Canonical (env : Env Text) (w : World Text) : Prop extends Tidy env w where
  named : ∀ p ∈ env.parsers, ∀ name ∈ w.files p.path, ∃ id, name = AccountParser.accountFile env id
  readable : ∀ p ∈ env.parsers, ∀ id, (w.fileAt (p.accountPath env id)).isSome →
    ∃ acc, p.read env w id {} = .ok acc

/-- What is in the map at first: the accounts that have a file. -/
theorem entryAt_isSome_iff {w : World Text} (h : Canonical env w) {id : Uuid}
    (hid : id ≠ Uuid.null) : (entryAt env w id).isSome ↔ Stored env w id := by
  refine ⟨stored_of_entryAt, ?_⟩
  rintro ⟨p, hp, hex⟩
  have hnull : uuidIsNull id = false := by simpa [uuidIsNull] using hid
  obtain ⟨acc, hread⟩ := h.readable p hp id hex
  have hfound : (findParser env w id false).isSome := by
    rw [findParser, List.find?_isSome]
    refine ⟨p, hp, ?_⟩
    rw [AccountParser.hasAccount_of_isSome hex]
    rfl
  obtain ⟨q, hq⟩ := Option.isSome_iff_exists.1 hfound
  obtain ⟨hqmem, -, hhas⟩ := findParser_some hq
  -- The directory found has a file under the id, which by its name is the account file.
  have hex' : (w.fileAt (q.accountPath env id)).isSome := by
    obtain ⟨actFile, hmem, -, hstem⟩ :=
      AccountParser.hasAccount_iff.1 (hhas.resolve_right (by rw [hnull]; decide))
    obtain ⟨id', rfl⟩ := h.named q hqmem actFile hmem
    rw [AccountParser.fileStem_accountFile, AccountParser.uuidFromString_uuidAsString] at hstem
    cases hstem
    exact Std.ExtTreeMap.isSome_getElem?_iff_mem.2 hmem
  rw [h.unique q hqmem p hp id hex' hex] at hq
  rw [entryAt_of_read hq hread]
  rfl

/-- For every run of calls, however each ends, there is a run of the map, with the same calls and
results, between the maps that `readAccount` shows before and after; at first the map has the
accounts with a file. -/
theorem service_refines_map (env : Env Text) (hno : NoCustomStorage env) (hd : Dependable env)
    (hinit : env.eventManagerInited = true) (w₀ w : World Text) (calls : List (Performed Text))
    (hstart : Canonical env w₀) (hrun : Runs (Performs env) w₀ calls w) :
    ∃ m₀ m, Shows env w₀ m₀ ∧ (∀ id, id ≠ Uuid.null → ((m₀ id).isSome ↔ Stored env w₀ id)) ∧
      Runs AccountMap.Step m₀ calls m ∧ Shows env w m := by
  obtain ⟨m, hruns, rfl, -⟩ := hrun.refines
    (R := fun w m => m = entryAt env w ∧ Tidy env w)
    (fun s m call t hm hcall => by
      obtain ⟨rfl, htidy⟩ := hm
      obtain ⟨hstep, htidy'⟩ := step_of_call hno hd hinit htidy hcall
      exact ⟨_, hstep, rfl, htidy'⟩)
    (m := entryAt env w₀) ⟨rfl, hstart.toTidy⟩
  exact ⟨_, _, shows_entryAt hno w₀, fun id => entryAt_isSome_iff hstart, hruns, shows_entryAt hno w⟩

theorem reference_noCustomStorage : NoCustomStorage referenceEnv where
  read _ _ _ _ h := by cases h
  write _ _ _ _ _ _ h := by cases h
  remove _ _ _ _ _ h := by cases h

/-- The map after the creation of an account by the reference service. -/
theorem service_refines_map_reference : ∃ w m₀ m,
    ((Op.create (requestedMail referenceEnv)).run referenceEnv).run { files := fun _ => ∅ } =
      .ok true w ∧
    Runs AccountMap.Step m₀ [⟨.create (requestedMail referenceEnv), some true,
      World.newCalls { files := fun _ => ∅ } w⟩] m ∧
    (m 1).map AccountEntry.title = some "Mail" := by
  have hcall : ((Op.create (requestedMail referenceEnv)).run referenceEnv).run
      { files := fun _ => ∅ } = .ok true _ := eq_ok_of_result? (by decide +kernel)
  have hfresh : ¬Stored referenceEnv { files := fun _ => ∅ } 1 := by decide +kernel
  have hempty : ∀ dir : String, (∅ : StrMap YamlText)[dir]? = none := fun dir =>
    Std.ExtTreeMap.getElem?_empty
  obtain ⟨m₀, m, -, -, hruns, hshows⟩ := service_refines_map referenceEnv
    reference_noCustomStorage
    ⟨fun _ _ _ => rfl, fun _ _ => rfl⟩ rfl { files := fun _ => ∅ } _
    [⟨.create (requestedMail referenceEnv), some true, _⟩]
    ⟨tidy_of_empty fun _ => rfl, fun p _ name hmem => absurd hmem Std.ExtTreeMap.not_mem_empty,
      fun p _ id hex => by rw [World.fileAt, hempty] at hex; cases hex⟩
    (.single ⟨⟨decoded_requestedMail referenceAnswers, by decide, hfresh⟩, .returned hcall, rfl⟩)
  have htitle : (result? ((readAccount referenceEnv 1).run (final
      (((Op.create (requestedMail referenceEnv)).run referenceEnv).run
        { files := fun _ => ∅ })))).map (·.map AccountObject.title) = some (some "Mail") := by
    decide +kernel
  generalize final (((Op.create (requestedMail referenceEnv)).run referenceEnv).run
    { files := fun _ => ∅ }) = w at hcall hruns hshows htitle
  refine ⟨w, m₀, m, hcall, hruns, ?_⟩
  obtain ⟨r, w', hread, hr⟩ := hshows 1
  rw [hread] at htitle
  rw [← hr, Option.map_map]
  exact Option.some.inj htitle

end PxAccounts
