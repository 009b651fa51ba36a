import PxAccounts.Model.Reference
import PxAccounts.Proof.Changes
import PxAccounts.Proof.TwoRuns

/-!
# Event delivery

Two services that differ only in what becomes of the events go through the same files, statuses,
secrets and results, as long as no event is emitted without an event manager.
-/

namespace PxAccounts

open Effect AccountManager

variable {Text : Type} {env : Env Text}

/-- What becomes of events: whether `EventManager::Init` succeeded, and each dial and send. -/
structure EventService where
  inited : Bool
  emit : ℕ → Event → Delivery

/-- The same surroundings with another event service. -/
def Env.withEvents (env : Env Text) (service : EventService) : Env Text :=
  { env with eventManagerInited := service.inited, emit := service.emit }

def Call.IsEmit : Call Text → Prop
  | .emit .. => True
  | _ => False

/-- The call without what became of the event. -/
def Call.muted : Call Text → Call Text
  | .emit event _ => .emit event .sent
  | c => c

@[simp] theorem Call.muted_comp_muted :
    Call.muted ∘ Call.muted = (Call.muted : Call Text → Call Text) := by
  funext c
  cases c <;> rfl

namespace World

/-- The state without the events and what became of them. -/
def muted (w : World Text) : World Text := { w with events := [], calls := w.calls.map Call.muted }

@[simp] theorem tick_muted (w : World Text) : w.muted.tick = w.tick := by simp [muted, tick]

@[simp] theorem muted_muted (w : World Text) : w.muted.muted = w.muted := by simp [muted]

theorem muted_record (w : World Text) (c : Call Text) :
    (w.record c).muted = w.muted.record c.muted := by
  simp [muted, record]

/-- The states differ at most in the events and in what became of them. -/
def Alike (w w' : World Text) : Prop := w.muted = w'.muted

end World

/-- States that are alike; lost when, without an event manager, an event was emitted after the first
`n` calls. -/
def inStep (inited : Bool) (n : ℕ) : Coupling (World Text) (World Text) where
  rel w w' := w.Alike w' ∧ n ≤ w.tick
  lost w _ := inited = false ∧ ∃ c ∈ w.calls.drop n, c.IsEmit

/-- The events so far make no difference to the program. -/
abbrev Blind {α : Type} (inited : Bool) (n : ℕ) (m : M Text α) : Prop :=
  Couples (inStep inited n) Eq m m

/-- The two event services make no difference to the program. -/
abbrev Agree {α : Type} (env : Env Text) (first second : EventService) (n : ℕ)
    (m : Env Text → M Text α) : Prop :=
  Couples (inStep second.inited n) Eq (m (env.withEvents first)) (m (env.withEvents second))

variable {inited : Bool} {n : ℕ} {first second : EventService}

theorem lost_of_prefix {w w' t t' : World Text} (hgrow : w.calls <+: w'.calls)
    (h : (inStep inited n).lost w t) : (inStep inited n).lost w' t' := by
  obtain ⟨hinited, c, hc, hemit⟩ := h
  obtain ⟨cs, hcs⟩ := hgrow
  refine ⟨hinited, c, ?_, hemit⟩
  rw [← hcs, List.drop_append]
  exact List.mem_append_left _ hc

theorem lost_of_emit {w w' t : World Text} {event : Event} {delivery : Delivery}
    (hcalls : w'.calls = w.calls ++ [.emit event delivery]) (hn : n ≤ w.tick) :
    (inStep false n).lost w' t := by
  refine ⟨rfl, .emit event delivery, ?_, trivial⟩
  rw [hcalls, List.drop_append_of_le_length hn]
  exact List.mem_append_right _ (List.mem_singleton_self _)

/-! ## Small steps -/

theorem blind_modifyGet {α : Type} {f : World Text → α × World Text}
    (h : ∀ w, (f w.muted).1 = (f w).1 ∧ (f w.muted).2.muted = (f w).2.muted)
    (hgrow : ∀ w, w.calls <+: (f w).2.calls) : Blind inited n (modifyGet f : M Text α) := by
  refine couples_modifyGet (fun w w' hw => .inl ⟨?_, ?_, ?_⟩)
    (fun w _ hw => lost_of_prefix (hgrow w) hw) fun _ _ hw => hw
  · rw [← (h w).1, ← (h w').1, hw.1]
  · show (f w).2.muted = (f w').2.muted
    rw [← (h w).2, ← (h w').2, hw.1]
  · exact hw.2.trans (hgrow w).length_le

theorem blind_record {α : Type} {f : World Text → α × World Text} {g : World Text → World Text}
    {c : World Text → Call Text} (hf : ∀ w, (f w).2 = (g w).record (c w))
    (h : ∀ w, (f w.muted).1 = (f w).1 ∧ (g w.muted).muted = (g w).muted ∧
      (c w.muted).muted = (c w).muted)
    (hcalls : ∀ w, (g w).calls = w.calls) : Blind inited n (modifyGet f : M Text α) := by
  refine blind_modifyGet (fun w => ⟨(h w).1, ?_⟩) fun w => ?_
  · rw [hf, hf, World.muted_record, World.muted_record, (h w).2.1, (h w).2.2]
  · rw [hf, World.record, hcalls]
    exact List.prefix_append _ _

theorem blind_modify {f : World Text → World Text} (h : ∀ w, (f w.muted).muted = (f w).muted)
    (hcalls : ∀ w, (f w).calls = w.calls) : Blind inited n (modify f : M Text Unit) :=
  blind_modifyGet (fun w => ⟨rfl, h w⟩) fun w => by
    show w.calls <+: (f w).calls
    rw [hcalls]

theorem blind_glog (level : LogLevel) (parts : List String) :
    Blind inited n (glog level parts : M Text Unit) :=
  blind_modify (fun w => by simp [World.muted]) fun w => rfl

theorem blind_addErrorList (errs : StringList) :
    Blind inited n (addErrorList errs : M Text Unit) :=
  blind_modify (fun w => by simp [World.muted]) fun w => rfl

theorem blind_callUuidGenerate : Agree env first second n fun env => env.callUuidGenerate :=
  blind_record (fun w => rfl) (fun w => by simp) fun w => rfl

theorem blind_callVerify (plugin : PluginContainer) (params : StrStrMap) :
    Agree env first second n fun env => env.callVerify plugin params :=
  blind_record (fun w => rfl) (fun w => by simp) fun w => rfl

theorem blind_callAuthenticate (plugin : PluginContainer) (params : ServiceParamList) :
    Agree env first second n fun env => env.callAuthenticate plugin params :=
  blind_record (fun w => rfl) (fun w => by simp) fun w => rfl

theorem blind_callRead (plugin : PluginContainer) (id : String) :
    Agree env first second n fun env => env.callRead plugin id :=
  blind_record (fun w => rfl) (fun w => by simp) fun w => rfl

theorem blind_callWrite (plugin : PluginContainer) (vResult : VerifyResult) (aResult : AuthResult) :
    Agree env first second n fun env => env.callWrite plugin vResult aResult :=
  blind_record (fun w => rfl) (fun w => by simp [World.muted, World.tick]) fun w => rfl

theorem blind_callRemove (plugin : PluginContainer) (id : String) :
    Agree env first second n fun env => env.callRemove plugin id :=
  blind_record (fun w => rfl) (fun w => by simp [World.muted, World.tick]) fun w => rfl

theorem blind_callSetSecret (item : RPCSecretItem) :
    Agree env first second n fun env => env.callSetSecret item :=
  blind_record (fun w => rfl) (fun w => by simp [World.muted, World.tick]) fun w => rfl

theorem blind_callSearch (attributes : List (String × String)) :
    Agree env first second n fun env => env.callSearch attributes :=
  blind_record (fun w => rfl) (fun w => by simp [World.muted, World.tick]) fun w => rfl

theorem blind_callDeleteSecret (attributes : List (String × String)) :
    Agree env first second n fun env => env.callDeleteSecret attributes :=
  blind_record (fun w => rfl) (fun w => by simp [World.muted, World.tick]) fun w => rfl

theorem blind_callWriteFile (path : AccountPath) (data : Text) :
    Agree env first second n fun env => env.callWriteFile path data :=
  blind_record (fun w => rfl) (fun w => by simp [World.muted, World.tick, World.setDir]) fun w => rfl

theorem blind_callRemoveFile (path : AccountPath) :
    Agree env first second n fun env => env.callRemoveFile path :=
  blind_record (fun w => rfl) (fun w => by
    simp [World.muted, World.tick, World.setDir, World.fileAt]
    split <;> simp) fun w => by split <;> rfl

theorem couples_get_bind {α β : Type} {B : α → β → Prop} {f : World Text → M Text α}
    {f' : World Text → M Text β}
    (h : ∀ w w' : World Text, w.Alike w' → Couples (inStep inited n) B (f w) (f' w')) :
    Couples (inStep inited n) B (get >>= f : M Text α) (get >>= f') :=
  couples_get.bind_of (fun w w' hw => (h w w' hw.1).run) (fun w => (h w w rfl).left)
    fun w => (h w w rfl).right

/-- The program that goes on depends on nothing in which like states differ. -/
theorem blind_get {α : Type} {f : World Text → M Text α} (hf : ∀ w, f w.muted = f w)
    (h : ∀ w, Blind inited n (f w)) : Blind inited n (get >>= f : M Text α) :=
  couples_get_bind fun w w' hw => by
    have hsame : f w' = f w := by rw [← hf w', ← hf w, hw]
    rw [hsame]
    exact h w

/-! ## Verification of a service -/

theorem blind_logUnreachable {α : Type} (reply : RpcReply α) :
    Blind inited n (SecretManager.logUnreachable reply : M Text Unit) := by
  cases reply with
  | unreachable description => exact blind_glog _ _
  | exception description => exact couples_pure rfl
  | result a => exact couples_pure rfl

theorem blind_search (attributes : StrStrMap) :
    Agree env first second n fun env => SecretManager.search env attributes := by
  refine (blind_glog _ _).bind fun _ => (blind_callSearch _).bind fun reply =>
    (blind_logUnreachable reply).bind fun _ => ?_
  cases reply with
  | unreachable description =>
    exact (blind_glog _ _).bind fun _ => (blind_glog _ _).bind fun _ => couples_pure rfl
  | exception description => exact (blind_glog _ _).bind fun _ => couples_pure rfl
  | result items =>
    refine (couples_forM fun item _ => couples_ite (fun _ => blind_glog _ _)
      fun _ => couples_pure rfl).bind fun _ => (blind_glog _ _).bind fun _ => ?_
    exact (couples_forM fun secret _ => blind_glog _ _).bind fun _ => couples_pure rfl

theorem blind_loadSecret (svcName : String) (savedSecrets : List SecretItemPtr)
    (param : ServiceParam) :
    Blind inited n (AccountService.loadSecret svcName savedSecrets param : M Text ServiceParam) := by
  rw [AccountService.loadSecret]
  refine couples_ite (fun _ => ?_) fun _ => couples_pure rfl
  cases savedSecrets.foldlM (AccountService.matchSecret svcName param.key) param.val with
  | error e => exact couples_throw _
  | ok val =>
    exact couples_ite (fun _ => (blind_glog _ _).bind fun _ => couples_pure rfl)
      fun _ => (blind_glog _ _).bind fun _ => couples_pure rfl

theorem blind_verifyParams (svc : AccountService) (owner : Owner) :
    Agree env first second n fun env => svc.verifyParams env owner := by
  unfold AccountService.verifyParams
  cases svc.plugin with
  | none => exact (blind_glog _ _).bind fun _ => couples_pure rfl
  | some plugin =>
    refine Couples.bind ?_ fun vResult => couples_ite (fun _ => couples_pure rfl) fun _ => ?_
    · rw [verify_eq, verify_eq]
      exact (blind_callVerify plugin _).bind fun answer =>
        couples_passOn (fun _ => rfl) plugin _ (similar_refl (fun _ => rfl) answer)
    refine (couples_derefAccount rfl owner).bind fun account =>
      (blind_search _).bind fun savedSecrets =>
        (couples_mapM fun param _ => blind_loadSecret _ _ param).bind fun params => ?_
    exact (blind_glog _ _).bind fun _ => (couples_forM fun param _ => blind_glog _ _).bind
      fun _ => couples_pure rfl

theorem blind_authenticate (svc : AccountService) (vResult : VerifyResult) :
    Agree env first second n fun env => svc.authenticate env vResult := by
  refine (couples_derefPlugin rfl).bind fun plugin => Couples.bind ?_ fun aResult =>
    couples_ite (fun _ => couples_pure rfl) fun _ => (blind_glog _ _).bind fun _ => ?_
  · rw [authenticate_eq, authenticate_eq]
    exact (blind_callAuthenticate plugin _).bind fun answer =>
      couples_passOn (fun _ => rfl) plugin _ (similar_refl (fun _ => rfl) answer)
  · refine (couples_forM fun token _ => (blind_glog _ _).bind fun _ => ?_).bind
      fun _ => couples_pure rfl
    exact couples_forM fun attrib _ => blind_glog _ _

theorem blind_setSecret (item : SecretItem) :
    Agree env first second n fun env => SecretManager.setSecret env item := by
  refine (blind_glog _ _).bind fun _ => (blind_callSetSecret _).bind fun reply =>
    (blind_logUnreachable reply).bind fun _ => ?_
  exact couples_ite (fun _ => (blind_glog _ _).bind fun _ => couples_pure rfl)
    fun _ => couples_pure rfl

theorem blind_saveItems (items : List SecretItem) :
    Agree env first second n fun env => AccountService.saveItems env items := by
  induction items with
  | nil => exact couples_pure rfl
  | cons item items ih =>
    exact (blind_glog _ _).bind fun _ => (blind_setSecret item).bind fun saved =>
      couples_ite (fun _ => ih) fun _ => (blind_glog _ _).bind fun _ => couples_pure rfl

theorem blind_collectStep (owner : Owner) (state : StrMap SecretItem × AccountService)
    (token : SecretToken) :
    Agree env first second n fun env => AccountService.collectStep env owner state token := by
  obtain ⟨secretDict, svc⟩ := state
  unfold AccountService.collectStep
  cases token.attributes["schema"]? with
  | none => exact (blind_glog _ _).bind fun _ => couples_pure rfl
  | some schema =>
    exact (blind_glog _ _).bind fun _ => (couples_derefAccount rfl owner).bind
      fun _ => couples_pure rfl

theorem blind_saveProtectedParams (svc : AccountService) (owner : Owner) (aResult : AuthResult) :
    Agree env first second n fun env => svc.saveProtectedParams env owner aResult :=
  (blind_glog _ _).bind fun _ =>
    (couples_foldlM (fun state token _ => blind_collectStep owner state token) _).bind fun _ =>
      (blind_saveItems _).bind fun _ => couples_ite (fun _ => couples_pure rfl)
        fun _ => couples_pure rfl

theorem blind_customWrite (svc : AccountService) (vResult : VerifyResult) (aResult : AuthResult) :
    Agree env first second n fun env => svc.customWrite env vResult aResult := by
  refine (couples_derefPlugin rfl).bind fun plugin =>
    Couples.bind ((blind_callWrite plugin _ _).bind fun _ => couples_pure rfl) fun result => ?_
  cases result with
  | ok pluginId => exact (blind_glog _ _).bind fun _ => couples_pure rfl
  | error errMsg =>
    exact couples_ite (fun _ => (blind_glog _ _).bind fun _ => couples_pure rfl)
      fun _ => couples_pure rfl

theorem blind_verify (svc : AccountService) (owner : Owner) :
    Agree env first second n fun env => svc.verify env owner := by
  refine (blind_verifyParams _ owner).bind ?_
  rintro ⟨vResult | vResult, svc⟩
  · exact (blind_glog _ _).bind fun _ => couples_pure rfl
  refine (blind_authenticate svc vResult).bind ?_
  rintro ⟨aResult | aResult, svc⟩
  · exact couples_pure rfl
  refine (blind_saveProtectedParams svc owner aResult).bind ?_
  rintro ⟨saved, svc⟩
  cases saved with
  | false => exact couples_pure rfl
  | true => exact (blind_customWrite svc vResult aResult).bind fun _ => couples_pure rfl

theorem blind_removeSecrets (svc : AccountService) (owner : Owner) :
    Agree env first second n fun env => svc.removeSecrets env owner :=
  (couples_derefAccount rfl owner).bind fun _ => couples_ite (fun _ => couples_pure rfl)
    fun _ => (blind_callDeleteSecret _).bind fun _ => couples_pure rfl

theorem blind_performCustomRead (svc : AccountService) :
    Agree env first second n fun env => svc.performCustomRead env := by
  unfold AccountService.performCustomRead
  cases svc.params[pluginIdParam]? with
  | none => exact couples_pure rfl
  | some pluginId =>
    refine (couples_derefPlugin rfl).bind fun plugin =>
      Couples.bind ((blind_callRead plugin _).bind fun _ => couples_pure rfl) fun result => ?_
    cases result with
    | ok params => exact couples_pure rfl
    | error what => exact couples_pure rfl

theorem blind_performServiceCustomRemoval (svc : AccountService) :
    Agree env first second n fun env => svc.performServiceCustomRemoval env := by
  unfold AccountService.performServiceCustomRemoval
  cases svc.params[pluginIdParam]? with
  | none => exact couples_pure rfl
  | some pluginId =>
    refine (couples_derefPlugin rfl).bind fun plugin =>
      Couples.bind ((blind_callRemove plugin _).bind fun _ => couples_pure rfl) fun result => ?_
    cases result with
    | ok removed => exact couples_pure rfl
    | error what => exact couples_pure rfl

/-! ## Accounts -/

theorem blind_removeAllSecrets (act : AccountObject) :
    Agree env first second n fun env => act.removeAllSecrets env :=
  couples_forM fun kv _ => (blind_removeSecrets kv.2 _).bind fun _ => couples_pure rfl

theorem blind_accountVerify (act : AccountObject) :
    Agree env first second n fun env => act.verify env := by
  have happend : ∀ act : AccountObject, act.appendProviderParams (env.withEvents second) =
      act.appendProviderParams (env.withEvents first) := fun _ => rfl
  unfold Agree AccountObject.verify
  simp only [happend]
  refine couples_ite (fun _ => couples_pure rfl) fun _ => ?_
  generalize (if act.provider.isEmpty then _ else _ : Bool × AccountObject) = prepared
  obtain ⟨known, act⟩ := prepared
  refine couples_ite (fun _ => couples_pure rfl) fun _ => Couples.bind ?_ ?_
  · refine couples_foldlM (fun state kv _ => ?_) _
    exact (blind_verify kv.2 _).bind fun _ => couples_pure rfl
  · rintro ⟨verified, act⟩
    exact couples_ite (fun _ => (blind_removeAllSecrets _).bind fun _ => couples_pure rfl)
      fun _ => couples_pure rfl

theorem blind_cleanup (oldAct newAccount : AccountObject) :
    Agree env first second n fun env => oldAct.cleanup env newAccount :=
  (couples_forM fun kv _ => couples_ite (fun _ => (blind_removeSecrets kv.2 _).bind
    fun _ => couples_pure rfl) fun _ => couples_pure rfl).bind fun _ => couples_pure rfl

theorem blind_removeServices (svcs : List AccountService) :
    Agree env first second n fun env => AccountObject.removeServices env svcs := by
  induction svcs with
  | nil => exact couples_pure rfl
  | cons svc svcs ih =>
    exact (blind_performServiceCustomRemoval svc).bind fun removed =>
      couples_ite (fun _ => ih) fun _ => couples_pure rfl

theorem blind_performAccountRemoval (act : AccountObject) :
    Agree env first second n fun env => act.performAccountRemoval env := by
  refine (blind_removeServices _).bind fun r => ?_
  cases r with
  | some svc => exact couples_pure rfl
  | none =>
    exact Couples.bind ((blind_callDeleteSecret _).bind fun _ => couples_pure rfl)
      fun removed => couples_ite (fun _ => couples_pure rfl) fun _ => couples_pure rfl

theorem blind_write (parser : AccountParser) (act : AccountObject) :
    Agree env first second n fun env => parser.write env act :=
  couples_ite (fun _ => couples_pure rfl) fun _ => couples_ite (fun _ => couples_pure rfl)
    fun _ => (blind_callWriteFile _ _).bind fun _ => couples_pure rfl

theorem blind_remove (parser : AccountParser) (id : Uuid) :
    Agree env first second n fun env => parser.remove env id :=
  couples_ite (fun _ => couples_pure rfl) fun _ => blind_get (fun _ => rfl) fun _ =>
    couples_ite (fun _ => couples_pure rfl) fun _ => blind_callRemoveFile _

theorem findParser_of_alike {w w' : World Text} (hw : w.Alike w') (id : Uuid)
    (onlyWritables : Bool) : findParser (env.withEvents second) w' id onlyWritables =
      findParser (env.withEvents first) w id onlyWritables := by
  show findParser (env.withEvents second) w'.muted id onlyWritables = _
  rw [← hw]
  rfl

theorem read_of_alike {w w' : World Text} (hw : w.Alike w') (parser : AccountParser) (id : Uuid) :
    parser.read (env.withEvents second) w' id {} = parser.read (env.withEvents first) w id {} := by
  show parser.read (env.withEvents second) w'.muted id {} = _
  rw [← hw]
  rfl

theorem blind_readAccount (id : Uuid) :
    Agree env first second n fun env => readAccount env id := by
  refine couples_get_bind fun w w' hw => ?_
  rw [findParser_of_alike hw]
  cases findParser (env.withEvents first) w id false with
  | none => exact (blind_addErrorList _).bind fun _ => couples_pure rfl
  | some parser =>
    refine couples_get_bind fun w w' hw => ?_
    rw [read_of_alike hw]
    cases parser.read (env.withEvents first) w id {} with
    | error errs =>
      exact (blind_addErrorList _).bind fun _ => (blind_addErrorList _).bind
        fun _ => couples_pure rfl
    | ok account =>
      refine (couples_foldlM (fun account' kv _ => ?_) _).bind fun _ => couples_pure rfl
      exact (blind_performCustomRead kv.2).bind fun _ => couples_pure rfl

theorem blind_checkLimits (registered : List AccountObject) (l : List (String × AccountService)) :
    Blind inited n (checkLimits registered l : M Text Bool) := by
  induction l with
  | nil => exact couples_pure rfl
  | cons kv l ih =>
    exact (couples_derefPlugin rfl).bind fun plugin => couples_ite
      (fun _ => (blind_addErrorList _).bind fun _ => couples_pure rfl) fun _ => ih

theorem blind_verifyNewAccount (act : AccountObject) :
    Agree env first second n fun env => verifyNewAccount env act :=
  Couples.bind (blind_get (fun _ => rfl) fun _ => blind_checkLimits _ _) fun _ =>
    couples_ite (fun _ => blind_accountVerify act) fun _ => couples_pure rfl

/-! ## Operations -/

theorem run_emit {service : EventService} (h : service.inited = true) (event : String)
    (params : StrStrMap) (w : World Text) :
    ∃ b, (EventManager.emit (env.withEvents service) event params).run w =
      .ok b (w.published (env.withEvents service) event params) := by
  unfold EventManager.emit
  rw [if_neg (by simp [Env.withEvents, h])]
  exact ⟨_, rfl⟩

theorem muted_published (service : EventService) (event : String) (params : StrStrMap)
    (w : World Text) : (w.published (env.withEvents service) event params).muted =
      w.muted.record (.emit (w.muted.announced env event params) .sent) := by
  rw [World.published_eq, World.muted_record, World.announced, World.announced, World.tick_muted]
  rfl

section Compared

variable (hfirst : first.inited = true)
include hfirst

theorem couples_emit (event : String) (params : StrStrMap) :
    Couples (inStep second.inited n) (fun _ _ => True)
      (EventManager.emit (env.withEvents first) event params)
      (EventManager.emit (env.withEvents second) event params) where
  run w w' hw := by
    obtain ⟨b, hb⟩ := run_emit hfirst event params w
    rw [hb]
    have hcalls : (w.published (env.withEvents first) event params).calls = _ :=
      w.calls_published event params
    cases hsecond : second.inited with
    | true =>
      obtain ⟨b', hb'⟩ := run_emit hsecond event params w'
      rw [hb']
      refine .ok trivial ⟨?_, ?_⟩
      · rw [World.Alike, muted_published, muted_published, hw.1]
      · rw [World.tick, hcalls, List.length_append]
        exact hw.2.trans (Nat.le_add_right _ _)
    | false =>
      exact .lost (lost_of_emit hcalls hw.2)
  left w _ hw := by
    obtain ⟨b, hb⟩ := run_emit hfirst event params w
    rw [hb]
    refine lost_of_prefix ?_ hw
    show w.calls <+: (World.published _ _ _ _).calls
    rw [World.calls_published]
    exact List.prefix_append _ _
  right _ _ hw := hw

theorem couples_setStatus (id : Uuid) (stat : AccountStatus) :
    Couples (inStep second.inited n) Eq (setStatus (env.withEvents first) id stat)
      (setStatus (env.withEvents second) id stat) := by
  refine (blind_readAccount id).bind fun r => ?_
  cases r with
  | none => exact couples_pure rfl
  | some act =>
    refine couples_get_bind fun w w' hw => ?_
    have hstat : w.muted.statDict = w'.muted.statDict := congrArg World.statDict hw
    rw [show w.statDict = w'.statDict from hstat]
    refine Couples.bind ?_ fun _ => couples_ite
      (fun _ => couples_seq (couples_emit hfirst _ _) (couples_pure rfl)) fun _ => couples_pure rfl
    exact blind_modify (fun w => by simp [World.muted]) fun w => rfl

theorem couples_createAccount (act : AccountObject) :
    Couples (inStep second.inited n) Eq (createAccount (env.withEvents first) act)
      (createAccount (env.withEvents second) act) := by
  refine couples_get_bind fun w w' hw => ?_
  rw [findParser_of_alike hw]
  cases findParser (env.withEvents first) w Uuid.null true with
  | none => exact (blind_addErrorList _).bind fun _ => couples_pure rfl
  | some parser =>
    refine blind_callUuidGenerate.bind fun id => Couples.bind (blind_verifyNewAccount _) ?_
    rintro ⟨verified, act⟩
    refine couples_ite (fun _ => ?_) fun _ => ?_
    · exact (blind_addErrorList _).bind fun _ => (blind_addErrorList _).bind
        fun _ => couples_pure rfl
    · refine (blind_write parser _).bind fun written => couples_ite (fun _ => ?_)
        fun _ => ?_
      · exact (blind_addErrorList _).bind fun _ => couples_pure rfl
      · exact (couples_setStatus hfirst _ _).bind fun _ =>
          couples_seq (couples_emit hfirst _ _) (couples_pure rfl)

theorem couples_modifyAccount (id : Uuid) (act : AccountObject) :
    Couples (inStep second.inited n) Eq (modifyAccount (env.withEvents first) id act)
      (modifyAccount (env.withEvents second) id act) := by
  refine (blind_readAccount id).bind fun r => ?_
  cases r with
  | none => exact (blind_addErrorList _).bind fun _ => couples_pure rfl
  | some oldAct =>
    refine couples_get_bind fun w w' hw => ?_
    rw [findParser_of_alike hw]
    cases findParser (env.withEvents first) w oldAct.id true with
    | none => exact (blind_addErrorList _).bind fun _ => couples_pure rfl
    | some parser =>
      refine Couples.bind (blind_accountVerify _) ?_
      rintro ⟨verified, act⟩
      refine couples_ite (fun _ => ?_) fun _ => ?_
      · exact (blind_addErrorList _).bind fun _ => (blind_addErrorList _).bind
          fun _ => couples_pure rfl
      · refine (blind_write parser _).bind fun written => couples_ite (fun _ => ?_)
          fun _ => ?_
        · exact (blind_addErrorList _).bind fun _ => couples_pure rfl
        · exact (couples_setStatus hfirst _ _).bind fun _ =>
            (blind_cleanup oldAct _).bind fun _ =>
              couples_seq (couples_emit hfirst _ _) (couples_pure rfl)

theorem couples_deleteAccount (id : Uuid) :
    Couples (inStep second.inited n) Eq (deleteAccount (env.withEvents first) id)
      (deleteAccount (env.withEvents second) id) := by
  refine couples_get_bind fun w w' hw => ?_
  rw [findParser_of_alike hw]
  cases findParser (env.withEvents first) w id true with
  | none => exact (blind_addErrorList _).bind fun _ => couples_pure rfl
  | some parser =>
    refine couples_get_bind fun w w' hw => ?_
    rw [read_of_alike hw]
    cases parser.read (env.withEvents first) w id {} with
    | error errs => exact (blind_addErrorList _).bind fun _ => couples_pure rfl
    | ok act =>
      refine Couples.bind (blind_performAccountRemoval act) ?_
      rintro ⟨removed, act⟩
      refine couples_ite (fun _ => (blind_addErrorList _).bind fun _ => couples_pure rfl) fun _ => ?_
      refine (blind_remove parser id).bind fun _ => couples_ite (fun _ => ?_)
        fun _ => ?_
      · exact (blind_addErrorList _).bind fun _ => couples_pure rfl
      · refine Couples.bind ?_ fun _ => couples_seq (couples_emit hfirst _ _) (couples_pure rfl)
        exact blind_modify (fun w => by simp [World.muted]) fun w => rfl

theorem couples_op (op : Op) : Couples (inStep second.inited n) Eq
    (op.run (env.withEvents first)) (op.run (env.withEvents second)) := by
  cases op with
  | create act => exact (couples_createAccount hfirst act).bind fun _ => couples_pure rfl
  | modify id act => exact (couples_modifyAccount hfirst id act).bind fun _ => couples_pure rfl
  | delete id => exact couples_deleteAccount hfirst id
  | setStatus id stat => exact couples_setStatus hfirst id stat

end Compared

/-! ## Sequences of operations -/

/-- What is compared after an operation: what it returned, or the exception it ended with, and the
files, statuses and secrets. -/
structure Observation (Text : Type) where
  result : Except Exn Bool
  files : String → StrMap Text
  statDict : StrMap AccountStatus
  secrets : List RPCSecretItem

/-- The state after an operation, also when it raised. -/
def Op.after (env : Env Text) (w : World Text) (op : Op) : World Text := final ((op.run env).run w)

def Op.observe (env : Env Text) (w : World Text) (op : Op) : Observation Text where
  result :=
    match (op.run env).run w with
    | .ok b _ => .ok b
    | .error e _ => .error e
  files := (op.after env w).files
  statDict := (op.after env w).statDict
  secrets := (op.after env w).secrets

/-- What is observed while operations follow one another. -/
def observations (env : Env Text) : World Text → List Op → List (Observation Text)
  | _, [] => []
  | w, op :: ops => op.observe env w :: observations env (op.after env w) ops

/-- No operation of the sequence gets to the point where it emits an event. -/
def EmitsNothing (env : Env Text) : World Text → List Op → Prop
  | _, [] => True
  | w, op :: ops =>
    (∀ c ∈ w.newCalls (op.after env w), ¬c.IsEmit) ∧ EmitsNothing env (op.after env w) ops

theorem observe_of_alike {w w' : World Text} (hw : w.Alike w') {op : Op}
    (hfirst : first.inited = true) (hlost : second.inited = true ∨
      ∀ c ∈ w.newCalls (op.after (env.withEvents first) w), ¬c.IsEmit) :
    op.observe (env.withEvents first) w = op.observe (env.withEvents second) w' ∧
      (op.after (env.withEvents first) w).Alike (op.after (env.withEvents second) w') := by
  have hcouples : Couples (inStep second.inited w.tick) Eq (op.run (env.withEvents first))
      (op.run (env.withEvents second)) := couples_op hfirst op
  have hmatch := hcouples.run w w' ⟨hw, le_rfl⟩
  unfold Op.observe Op.after at *
  generalize (op.run (env.withEvents first)).run w = r at hmatch hlost ⊢
  generalize (op.run (env.withEvents second)).run w' = r' at hmatch ⊢
  have hsame : ∀ {s t : World Text}, s.Alike t →
      s.files = t.files ∧ s.statDict = t.statDict ∧ s.secrets = t.secrets := by
    intro s t hst
    have hfields : s.muted.files = t.muted.files ∧ s.muted.statDict = t.muted.statDict ∧
        s.muted.secrets = t.muted.secrets := by rw [hst]; exact ⟨rfl, rfl, rfl⟩
    exact hfields
  cases hmatch with
  | ok hb hst =>
    obtain ⟨hfiles, hstats, hsecrets⟩ := hsame hst.1
    subst hb
    exact ⟨by simp [hfiles, hstats, hsecrets], hst.1⟩
  | error hst =>
    obtain ⟨hfiles, hstats, hsecrets⟩ := hsame hst.1
    exact ⟨by simp [hfiles, hstats, hsecrets], hst.1⟩
  | lost hs =>
    obtain ⟨hnot, c, hc, hemit⟩ := hs
    rcases hlost with hinited | hnone
    · rw [hinited] at hnot
      cases hnot
    · exact absurd hemit (hnone c hc)

theorem observations_of_alike {w w' : World Text} (hw : w.Alike w') (hfirst : first.inited = true)
    {ops : List Op} (h : second.inited = true ∨ EmitsNothing (env.withEvents first) w ops) :
    observations (env.withEvents first) w ops = observations (env.withEvents second) w' ops := by
  induction ops generalizing w w' with
  | nil => rfl
  | cons op ops ih =>
    obtain ⟨hobserve, hafter⟩ := observe_of_alike hw hfirst
      (show _ ∨ ∀ c ∈ w.newCalls (op.after _ w), ¬c.IsEmit from h.imp_right And.left)
    rw [observations, observations, hobserve, ih hafter (h.imp_right And.right)]

/-- In every sequence of operations the results, files, statuses and secrets do not depend on what
becomes of the events, unless an event is emitted without an event manager. -/
theorem delivery_changes_nothing (env : Env Text) (first second : EventService) (w : World Text)
    (ops : List Op) (h : (first.inited = true ∧ second.inited = true) ∨
      EmitsNothing (env.withEvents { first with inited := true }) w ops) :
    observations (env.withEvents first) w ops = observations (env.withEvents second) w ops := by
  have hsame : ∀ service : EventService, service.inited = true ∨
      EmitsNothing (env.withEvents { first with inited := true }) w ops →
      observations (env.withEvents { first with inited := true }) w ops =
        observations (env.withEvents service) w ops :=
    fun service hservice => observations_of_alike rfl rfl hservice
  exact (hsame first (h.imp_left And.left)).symm.trans (hsame second (h.imp_left And.right))

/-- Every event is delivered. -/
def delivering : EventService := { inited := true, emit := fun _ _ => .sent }

/-- No connection to the event service can be made. -/
def undialled : EventService := { inited := true, emit := fun _ _ => .dialFailed }

/-- `EventManager::Init` failed. -/
def notInited : EventService := { inited := false, emit := fun _ _ => .dialFailed }

/-- An account is created and goes online, with and without a connection. -/
theorem delivery_changes_nothing_undialled :
    observations (referenceEnv.withEvents delivering) { files := fun _ => ∅ }
        [.create { title := "Mail" }, .setStatus 1 .online] =
      observations (referenceEnv.withEvents undialled) { files := fun _ => ∅ }
        [.create { title := "Mail" }, .setStatus 1 .online] :=
  delivery_changes_nothing referenceEnv delivering undialled _ _ (.inl ⟨rfl, rfl⟩)

/-- Without an event manager the creation of an account ends in an exception. -/
theorem creation_needs_event_manager : ¬∀ (env : Env YamlText) (first second : EventService)
    (w : World YamlText) (ops : List Op),
    observations (env.withEvents first) w ops = observations (env.withEvents second) w ops := by
  intro h
  have hsame := congrArg (fun l : List (Observation YamlText) => l.map fun o => o.result.toOption)
    (h referenceEnv delivering notInited { files := fun _ => ∅ } [.create { title := "Mail" }])
  revert hsame
  decide +kernel

end PxAccounts
