import PxAccounts.Model.RPCHandler
import PxAccounts.Proof.Stored

/-!
# Services as they are decoded and read

A service comes out of a request or an account file only after `init`, so that it carries the name
it is stored under, its account and its plugin.
-/

namespace PxAccounts

open Effect AccountManager

variable {Text : Type} {env : Env Text}

/-- The service has been initialised under this name, with a registered plugin. -/
structure AccountService.LinkedAs (env : Env Text) (name : String) (svc : AccountService) :
    Prop where
  name_eq : svc.name = name
  accountSet : svc.accountSet = true
  plugin_eq : svc.plugin = env.pluginNamed name
  registered : (env.pluginNamed name).isSome

/-- Every service has been initialised under the name it is stored under. -/
def AllInited (env : Env Text) (services : StrMap AccountService) : Prop :=
  ∀ (name : String) (svc : AccountService), services[name]? = some svc → svc.LinkedAs env name

theorem title_of_pluginNamed {name : String} {plugin : PluginContainer}
    (h : env.pluginNamed name = some plugin) : plugin.title = name := by
  obtain ⟨kv, hfind, rfl⟩ := Option.map_eq_some_iff.1 h
  have htitle := List.find?_some hfind
  exact beq_iff_eq.1 htitle

theorem AccountService.LinkedAs.title_eq {name : String} {svc : AccountService}
    {plugin : PluginContainer} (h : svc.LinkedAs env name) (hplugin : svc.plugin = some plugin) :
    plugin.title = name := title_of_pluginNamed (h.plugin_eq.symm.trans hplugin)

theorem AccountService.LinkedAs.congr {name : String} {svc svc' : AccountService}
    (h : svc.LinkedAs env name) (hlink : svc'.link = svc.link) : svc'.LinkedAs env name where
  name_eq := (congrArg (·.1) hlink : svc'.name = svc.name).trans h.name_eq
  accountSet := (congrArg (·.2.1) hlink : svc'.accountSet = svc.accountSet).trans h.accountSet
  plugin_eq := (congrArg (·.2.2.1) hlink : svc'.plugin = svc.plugin).trans h.plugin_eq
  registered := h.registered

theorem linkedAs_init {svc : AccountService} {name : String}
    (h : (svc.init env name).inited = true) : (svc.init env name).LinkedAs env name where
  name_eq := rfl
  accountSet := rfl
  plugin_eq := rfl
  registered := h

theorem allInited_empty : AllInited env ∅ := fun name svc h => by
  rw [Std.ExtTreeMap.getElem?_empty] at h
  cases h

theorem AllInited.insert {services : StrMap AccountService} (h : AllInited env services)
    {name : String} {svc : AccountService} (hsvc : svc.LinkedAs env name) :
    AllInited env (services.insert name svc) := by
  intro name' svc' hget
  by_cases hn : name = name'
  · subst hn
    rw [Std.ExtTreeMap.getElem?_insert_self] at hget
    cases hget
    exact hsvc
  · rw [TreeMap.getElem?_insert_of_ne hn] at hget
    exact h name' svc' hget

/-- Services that go on with their links are initialised as before. -/
theorem AllInited.congr {services services' : StrMap AccountService} (h : AllInited env services)
    (hlinks : ∀ name : String, services'[name]?.map AccountService.link =
      services[name]?.map AccountService.link) : AllInited env services' := by
  intro name svc' hget
  have hlink := hlinks name
  rw [hget, Option.map_some] at hlink
  obtain ⟨svc, hsvc, hl⟩ := Option.map_eq_some_iff.1 hlink.symm
  exact (h name svc hsvc).congr hl.symm

/-! ## Requests -/

/-- The account comes out of a request. -/
def Decoded (env : Env Text) (act : AccountObject) : Prop :=
  ∃ rpc, RPCHandler.rpc2act env rpc = some act

theorem Decoded.allInited {act : AccountObject} (h : Decoded env act) :
    AllInited env act.services := by
  obtain ⟨rpc, hrpc⟩ := h
  simp only [RPCHandler.rpc2act] at hrpc
  obtain ⟨services, hfold, hact⟩ := Option.bind_eq_some_iff.1 hrpc
  cases hact
  refine option_foldlM_induction (AllInited env) (fun services svc services' hall hstep => ?_) _
    ?_ hfold
  · simp only [RPCHandler.decodeService] at hstep
    split at hstep
    next hinited =>
      cases hstep
      exact hall.insert ((linkedAs_init hinited).congr rfl)
    next => cases hstep
  · split <;> exact allInited_empty

/-- Accounts come out of requests, and a generated id is fresh. -/
def Op.Requested (env : Env Text) (w : World Text) : Op → Prop
  | .create act => Decoded env act ∧ env.uuidGenerate w.tick ≠ Uuid.null ∧
      ¬Stored env w (env.uuidGenerate w.tick)
  | .modify _ act => Decoded env act
  | .delete _ => True
  | .setStatus _ _ => True

/-- A call under these conditions, with its result. -/
def Op.RequestedCall (env : Env Text) (w : World Text) (call : Op × Bool) (w' : World Text) :
    Prop :=
  call.1.Requested env w ∧ (call.1.run env).run w = .ok call.2 w'

/-! ## Account files -/

theorem readParams_link {node : Option Node} {svc svc' : AccountService}
    (h : AccountParser.readParams env node svc = .ok svc') : svc'.link = svc.link := by
  refine except_foldlM_induction (fun s => s.link = svc.link) (fun s p s' hs hstep => ?_) _ rfl h
  obtain ⟨entry, -, hstep⟩ := except_bind_ok.1 hstep
  cases hstep
  exact hs

theorem readService_allInited {services services' : StrMap AccountService} {it : IterValue}
    (h : AllInited env services) (hr : AccountParser.readService env services it = .ok services') :
    AllInited env services' := by
  simp only [AccountParser.readService] at hr
  obtain ⟨name, -, hr⟩ := except_bind_ok.1 hr
  split at hr
  next => cases hr
  next hinited =>
    rw [Bool.not_eq_true', Bool.not_eq_false] at hinited
    obtain ⟨svc, hparams, hr⟩ := except_bind_ok.1 hr
    cases hr
    exact h.insert ((linkedAs_init hinited).congr (readParams_link hparams))

theorem readDocument_allInited {cfg : Node} {acc : AccountObject}
    (h : AccountParser.readDocument env cfg {} = .ok acc) : AllInited env acc.services := by
  simp only [AccountParser.readDocument] at h
  obtain ⟨details, -, h⟩ := except_bind_ok.1 h
  cases details with
  | none =>
    cases h
    exact allInited_empty
  | some details =>
    simp only [except_bind_ok] at h
    obtain ⟨_, -, _, -, _, -, _, -, _, -, _, -, _, -, _, -, _, -, _, -, _, -, services, hservices, h⟩ := h
    cases h
    refine except_foldlM_induction (AllInited env) (fun services it services' hall hstep => ?_) _
      allInited_empty hservices
    exact except_foldlM_induction (AllInited env) (fun _ _ _ hb hs => readService_allInited hb hs) _
      hall hstep

/-- The services of an account that was read carry their names. -/
theorem allInited_of_read {w : World Text} {p : AccountParser} {id : Uuid} {acc : AccountObject}
    (h : p.read env w id {} = .ok acc) : AllInited env acc.services := by
  obtain ⟨text, -, htext⟩ := AccountParser.read_ok_iff.1 h
  rw [AccountParser.readText] at htext
  split at htext
  · cases htext
  · exact readDocument_allInited htext

theorem AccountManager.ReadOk.allInited {w w' : World Text} {id : Uuid} {p : AccountParser}
    {acc act : AccountObject} (h : ReadOk env w id p acc act w') : AllInited env act.services :=
  (allInited_of_read h.read_eq).congr h.back.links

/-! ## Custom reads -/

/-- A service with its plugin is read back whatever the plugin does. -/
theorem raises_performCustomRead_of_linked {E : Exn → Prop} {name : String} {svc : AccountService}
    (h : svc.LinkedAs env name) : Raises E (svc.performCustomRead env) := by
  rw [AccountService.performCustomRead]
  cases svc.params[pluginIdParam]? with
  | none => exact raises_pure _
  | some pluginId =>
    have hderef : Raises E (svc.derefPlugin : M Text PluginContainer) := by
      obtain ⟨plugin, hplugin⟩ := Option.isSome_iff_exists.1 h.registered
      rw [AccountService.derefPlugin, h.plugin_eq, hplugin]
      exact raises_pure _
    refine hderef.bind fun plugin => ((raises_modifyGet _).bind fun _ => raises_pure _).bind
      fun result => ?_
    cases result with
    | ok params => exact raises_pure _
    | error what => exact raises_pure _

theorem raises_readServices {E : Exn → Prop} {acc : AccountObject}
    (h : AllInited env acc.services) : Raises E (readServices env acc) :=
  raises_foldlM (fun _ kv hkv => (raises_performCustomRead_of_linked
    (h kv.1 kv.2 (Std.ExtTreeMap.mem_toList_iff_getElem?_eq_some.1 hkv))).bind
      fun _ => raises_pure _) _

/-- An account whose file can be read is read. -/
theorem exists_readOk {w : World Text} {id : Uuid} {p : AccountParser} {acc : AccountObject}
    (hfind : findParser env w id false = some p) (hread : p.read env w id {} = .ok acc) :
    ∃ act w', ReadOk env w id p acc act w' := by
  obtain ⟨act, w', hrun⟩ := (raises_readServices (allInited_of_read hread)).returns w
  exact ⟨act, w', hfind, hread, hrun⟩

/-! ## Verified accounts -/

theorem reaches_of_verified {act act' : AccountObject} {w w' : World Text}
    (hr : (act.verify env).run w = .ok (true, act') w') :
    AccountObject.ReachesServices env act := by
  rcases AccountObject.verify_ok hr with ⟨hb, -⟩ | ⟨hreach, -⟩
  · cases hb
  · exact hreach

/-- The services that come out of a verification are those that went in, with their links. -/
theorem services_of_verifyServices {act act' : AccountObject} {b : Bool} {w w' : World Text}
    (hr : ((AccountObject.prepared env act).verifyServices env).run w = .ok (b, act') w')
    (hinit : AllInited env act.services) :
    AllInited env act'.services ∧ ∀ name : String, name ∈ act'.services ↔ name ∈ act.services := by
  obtain ⟨-, hnames, hout⟩ := AccountObject.verifyServices_ok hr
  have hprepared := hinit.congr (AccountObject.sameLinks_prepared env act)
  refine ⟨fun name svc' hget => ?_, fun name => ?_⟩
  · obtain ⟨svc, hsvc, hlink, -⟩ := hout name svc' hget
    exact (hprepared name svc hsvc).congr hlink
  · have hlink := AccountObject.sameLinks_prepared env act name
    rw [hnames, Std.ExtTreeMap.mem_iff_isSome_getElem?, Std.ExtTreeMap.mem_iff_isSome_getElem?]
    rw [← Option.isSome_map (f := AccountService.link), hlink, Option.isSome_map]

theorem services_of_verify {act act' : AccountObject} {b : Bool} {w w' : World Text}
    (hreach : AccountObject.ReachesServices env act)
    (hr : (act.verify env).run w = .ok (b, act') w') (hinit : AllInited env act.services) :
    AllInited env act'.services ∧ ∀ name : String, name ∈ act'.services ↔ name ∈ act.services := by
  rcases AccountObject.verify_ok hr with ⟨-, -, -, hnot⟩ | ⟨-, w₁, hservices, -⟩
  · exact absurd hreach hnot
  · exact services_of_verifyServices hservices hinit

/-! ## A request -/

/-- A request for an account with one service. -/
def mailRequest : RPCAccount where
  title := "Mail"
  provider := ""
  active := true
  settings := []
  services := [{ name := "mail", params := [("user", "ann")] }]

/-- The account in the request. -/
def requestedMail (env : Env YamlText) : AccountObject :=
  (RPCHandler.rpc2act env mailRequest).getD {}

theorem decoded_requestedMail (answers : Answers YamlText) :
    Decoded { referenceConfig, answers with }
      (requestedMail { referenceConfig, answers with }) := by
  have hsome : (RPCHandler.rpc2act { referenceConfig, answers with } mailRequest).isSome := by
    show (RPCHandler.rpc2act referenceEnv mailRequest).isSome
    decide +kernel
  obtain ⟨act, hact⟩ := Option.isSome_iff_exists.1 hsome
  refine ⟨mailRequest, ?_⟩
  rw [requestedMail, hact]
  rfl

end PxAccounts
