import PxAccounts.Proof.AutoCreation
import PxAccounts.Proof.ClientBook
import PxAccounts.Proof.Replay

/-!
# Sessions of clients

Requests of clients and restarts of the service, in any order and whatever becomes of them: each is
one step of the book, and the replies are what the book says.
-/

namespace PxAccounts

open Effect Run AccountManager
open AccountObject (rest lenient_rest)

variable {Text : Type} {env : Env Text} {custom : Set String} {limit : ℕ}

/-- How a handler ends for the client: every exception is a refusal, also that of undefined
behaviour. -/
inductive EndsWith : EStateM.Result Exn (World Text) Reply → Outcome → World Text → Prop
  | replied {reply : Reply} {w' : World Text} : EndsWith (.ok reply w') (.replied reply) w'
  | refused {e : Exn} {w' : World Text} : EndsWith (.error e w') .refused w'

/-- The service as it starts again, with the files and the secrets it left. -/
def World.restarted (w : World Text) : World Text := { w with statDict := ∅, errors := [] }

/-- A request that is handled, or a start of the service, which ends with the creation of the default
accounts or with an exception of it. -/
inductive Occurs (env : Env Text) : World Text → Occurrence Text → World Text → Prop
  | request {w w' : World Text} {req : Request} {outcome : Outcome} :
      EndsWith ((RPCHandler.handle env req).run w) outcome w' →
      Occurs env w (.request req outcome (w.newCalls w')) w'
  | restart {w : World Text} :
      Occurs env w .restart (final ((createAutoInitializingAccounts env).run w.restarted))

/-! ## Calls are only added -/

/-- The exceptions after which no call is forgotten. -/
def growing : Ending Exn (callsFrame : Frame (World Text)) where
  raised w _ w' := w.calls <+: w'.calls
  extend h h' := List.IsPrefix.trans h h'

theorem admits_growing : Admits env growing where
  toRecords := records_callsFrame
  answered {w w'} c _ h := by
    show w.calls <+: w'.calls
    rw [h]
    exact List.prefix_append _ _
  undefined w _ _ := List.prefix_refl w.calls
  letOut _ _ _ _ := List.prefix_append _ _
  notInited _ w := List.prefix_refl w.calls

theorem calls_of_ends {α : Type} {m : M Text α} (h : Ends growing m) (w : World Text) :
    w.calls <+: (final (m.run w)).calls := by
  cases hr : m.run w with
  | ok a w' => exact h.returned w a w' hr
  | error e w' => exact h.raised w e w' hr

theorem EndsWith.final_eq {r : EStateM.Result Exn (World Text) Reply} {outcome : Outcome}
    {w' : World Text} (h : EndsWith r outcome w') : final r = w' := by
  cases h <;> rfl

theorem calls_of_handle {req : Request} {outcome : Outcome} {w w' : World Text}
    (h : EndsWith ((RPCHandler.handle env req).run w) outcome w') : w.calls <+: w'.calls := by
  rw [← h.final_eq]
  exact calls_of_ends (ends_handle admits_growing (fun w _ => List.prefix_refl w.calls) req) w

/-! ## Parameters of requests -/

theorem run_requestId_some {strId : Option String} {id : Uuid} {notSet invalid : String}
    (h : requestedId env strId = some id) (w : World Text) :
    (RPCHandler.requestId env strId notSet invalid).run w = .ok id w := by
  obtain ⟨s, rfl, hparse⟩ := Option.bind_eq_some_iff.1 h
  exact RPCHandler.run_requestId (by rw [Env.uuidFromString, hparse]) w

theorem run_requestId_none {strId : Option String} {notSet invalid : String}
    (h : requestedId env strId = none) (w : World Text) :
    ∃ d, (RPCHandler.requestId env strId notSet invalid).run w = .error (.kj d) w := by
  cases strId with
  | none => exact ⟨notSet, rfl⟩
  | some s =>
    have hparse : env.uuidFromString (cStr s) = (false, Uuid.null) := by
      rw [Env.uuidFromString, show env.uuid.parse (cStr s) = none from h]
    refine ⟨invalid, ?_⟩
    simp only [RPCHandler.requestId, hparse]
    rfl

/-- A handler that starts with the id parameter goes on with it, in a state without errors. -/
theorem run_withId {strId : Option String} {id : Uuid} {notSet invalid : String}
    {k : Uuid → M Text Reply} (h : requestedId env strId = some id) (w : World Text) :
    ((do
      let accountId ← RPCHandler.requestId env strId notSet invalid
      resetErrors
      k accountId) : M Text Reply).run w = (k id).run { w with errors := [] } := by
  have hid : (RPCHandler.requestId env strId notSet invalid).run w = .ok id w :=
    run_requestId_some h w
  show (RPCHandler.requestId env strId notSet invalid >>= fun accountId =>
    resetErrors >>= fun _ => k accountId).run w = _
  rw [EStateM.run_bind, hid]
  rfl

theorem run_withoutId {strId : Option String} {notSet invalid : String} {k : Uuid → M Text Reply}
    (h : requestedId env strId = none) (w : World Text) :
    ∃ d, ((do
      let accountId ← RPCHandler.requestId env strId notSet invalid
      k accountId) : M Text Reply).run w = .error (.kj d) w := by
  obtain ⟨d, hid⟩ : ∃ d, (RPCHandler.requestId env strId notSet invalid).run w = .error (.kj d) w :=
    run_requestId_none h w
  refine ⟨d, ?_⟩
  rw [EStateM.run_bind, hid]

theorem run_requestAccount_some {rpc : RPCAccount} {act : AccountObject}
    (h : RPCHandler.rpc2act env rpc = some act) (w : World Text) :
    (RPCHandler.requestAccount env rpc).run w = .ok act w := by
  rw [RPCHandler.requestAccount, h]
  rfl

theorem run_requestAccount_none {rpc : RPCAccount} (h : RPCHandler.rpc2act env rpc = none)
    (w : World Text) : (RPCHandler.requestAccount env rpc).run w =
      .error (.kj "Error on parse received account") w := by
  rw [RPCHandler.requestAccount, h]
  rfl

/-! ## Requests that read -/

theorem hasService_iff (shelf : Shelf) {acc : AccountObject} {svcName : String} :
    acc.hasService svcName = true ↔ ((AccountEntry.shown shelf acc).services svcName).isSome := by
  rw [AccountObject.hasService, AccountEntry.shown, Option.isSome_map,
    ← Std.ExtTreeMap.mem_iff_isSome_getElem?, Std.ExtTreeMap.contains_iff_mem]

theorem listAccounts_eq_filter (w : World Text) (providerFilter serviceFilter : List String) :
    listAccounts env w providerFilter serviceFilter =
      (listAccounts env w [] []).filter fun act =>
        (providerFilter.isEmpty && serviceFilter.isEmpty) || providerFilter.contains act.provider ||
          serviceFilter.any act.hasService := by
  rw [listAccounts, listAccounts, List.filter_flatMap]
  refine congrArg (List.flatMap · env.parsers) (funext fun p => ?_)
  rw [List.filter_filter]
  exact List.filter_congr fun act _ => (Bool.and_true _).symm

theorem passes_iff {shelf : Shelf} {acc : AccountObject} {providerFilter serviceFilter : List String} :
    ((providerFilter.isEmpty && serviceFilter.isEmpty) || providerFilter.contains acc.provider ||
        serviceFilter.any acc.hasService) = true ↔
      (AccountEntry.shown shelf acc).Passes providerFilter serviceFilter := by
  rw [Bool.or_eq_true, Bool.or_eq_true, Bool.and_eq_true, List.isEmpty_iff, List.isEmpty_iff,
    List.contains_iff_mem, List.any_eq_true, or_assoc]
  simp only [hasService_iff shelf]
  rfl

/-- The listing has every account that passes the filters, once. -/
theorem lists_of_orderly {w : World Text} (h : Orderly env custom limit w)
    (providerFilter serviceFilter : List String) : (bookAt env w).Lists env providerFilter
      serviceFilter ((listAccounts env w providerFilter serviceFilter).map
        fun act => { id := act.idAsString env, title := act.title }) where
  once := by
    rw [List.map_map, listAccounts_eq_filter]
    exact (nodup_listedIds h.inner h.listedOnce).sublist (List.filter_sublist.map _)
  infos info := by
    rw [List.mem_map, listAccounts_eq_filter]
    constructor
    · rintro ⟨acc, hmem, rfl⟩
      obtain ⟨hmem, hpasses⟩ := List.mem_filter.1 hmem
      obtain ⟨p, hp, id, hread⟩ := mem_listAccounts_iff.1 hmem
      refine ⟨id, AccountEntry.shown (shelfAt w) acc,
        h.accounts_eq_some_iff.2 ⟨p, hp, acc, hread, rfl⟩, passes_iff.1 hpasses, ?_⟩
      rw [AccountObject.idAsString, h.inner p hp id acc hread]
      rfl
    · rintro ⟨id, entry, hentry, hpasses, rfl⟩
      obtain ⟨p, hp, acc, hread, rfl⟩ := h.accounts_eq_some_iff.1 hentry
      refine ⟨acc, List.mem_filter.2 ⟨mem_listAccounts_iff.2 ⟨p, hp, id, hread⟩,
        passes_iff.2 hpasses⟩, ?_⟩
      rw [AccountObject.idAsString, h.inner p hp id acc hread]
      rfl

/-! ### Accounts in replies -/

theorem find?_eq_lookup {α β : Type} [BEq α] [LawfulBEq α] (l : List (α × β)) (k : α) :
    (l.find? fun e => e.1 == k) = (l.lookup k).map fun v => (k, v) := by
  induction l with
  | nil => rfl
  | cons e l ih =>
    by_cases hk : e.1 = k
    · subst hk
      rw [List.find?_cons_of_pos (by simp), List.lookup_cons_self]
      rfl
    · rw [List.find?_cons_of_neg (by simpa using hk), List.lookup_cons,
        beq_eq_false_iff_ne.2 (Ne.symm hk)]
      exact ih

/-- An account in a message is the entry of the account. -/
theorem entry_act2rpc (act : AccountObject) :
    (RPCHandler.act2rpc env act).entry = AccountEntry.of act := by
  have hservices : (RPCHandler.act2rpc env act).entry.services =
      (AccountEntry.of act).services := by
    funext name
    show ((RPCHandler.act2rpc env act).services.find? fun svc => svc.name == name).map _ = _
    rw [RPCHandler.act2rpc_services, List.find?_map]
    have hfind : act.services.toList.find? ((fun svc : RPCService => svc.name == name) ∘
        RPCHandler.encoded) = act.services[name]?.map fun svc => (name, svc) := by
      rw [← TreeMap.lookup_toList, ← find?_eq_lookup]
      rfl
    rw [hfind, Option.map_map, Option.map_map]
    refine congrArg (Option.map · act.services[name]?) (funext fun svc => funext fun key => ?_)
    exact TreeMap.lookup_toList svc.params key
  have hsettings : (RPCHandler.act2rpc env act).entry.settings = act.settings := by
    show TreeMap.insertAll ∅ (RPCHandler.act2rpc env act).settings = _
    rw [RPCHandler.act2rpc_settings, TreeMap.insertAll_toList]
  have hentry : (RPCHandler.act2rpc env act).entry =
      { title := act.title, provider := act.provider, isActive := act.isActive
        settings := (RPCHandler.act2rpc env act).entry.settings
        services := (RPCHandler.act2rpc env act).entry.services } := rfl
  rw [hentry, hservices, hsettings]
  rfl

/-- A read shows the entry of the book. -/
theorem read_of_orderly {w w' : World Text} (h : Orderly env custom limit w) {id : Uuid}
    {r : Option AccountObject} (hr : (readAccount env id).run w = .ok r w')
    (hserved : Served custom w') : r.map AccountEntry.of = (bookAt env w).accounts id ∧
      ∀ act, r = some act → act.id = id := by
  rcases readAccount_ok hr with ⟨rfl, hnone, -⟩ | ⟨p, acc, act, rfl, hok⟩
  · have hacc : accountAt env w id = none := by
      rw [← Option.not_isSome_iff_eq_none, Option.isSome_iff_exists]
      rintro ⟨acc, hacc⟩
      obtain ⟨p, hfind, hread⟩ := accountAt_eq_some_iff.1 hacc
      exact hnone p hfind acc hread
    refine ⟨?_, nofun⟩
    show none = (accountAt env w id).map _
    rw [hacc]
    rfl
  · have hacc : accountAt env w id = some acc :=
      accountAt_eq_some_iff.2 ⟨p, hok.parser_eq, hok.read_eq⟩
    constructor
    · show some (AccountEntry.of act) = (accountAt env w id).map _
      rw [hacc, shown_of_readServices hok.run_eq (allInited_of_read hok.read_eq)
        (h.shelved.held id acc hacc) hserved]
      rfl
    · intro act' hact'
      cases hact'
      rw [hok.id_eq]
      exact h.inner p (findParser_some hok.parser_eq).1 id acc hok.read_eq

/-! ### The steps -/

variable {w w' : World Text} {outcome : Outcome} {calls : List (Call Text)}

/-- Every account of the book that was not there before has an id that was generated meanwhile. -/
def NewIds (env : Env Text) (b : Book) (start : ℕ) (w' : World Text) : Prop :=
  ∀ id, ((bookAt env w').accounts id).isSome → (b.accounts id).isSome ∨
    ∃ n, start ≤ n ∧ n < w'.tick ∧ id = env.uuidGenerate n

theorem newIds_of_accounts {b : Book} {start : ℕ} {w' : World Text}
    (h : ∀ id, ((bookAt env w').accounts id).isSome → (b.accounts id).isSome) :
    NewIds env b start w' := fun id hid => .inl (h id hid)

/-- What an occurrence makes of the service. -/
structure Stepped (env : Env Text) (custom : Set String) (limit : ℕ) (w : World Text)
    (o : Occurrence Text) (w' : World Text) : Prop where
  step : Book.Step env custom (bookAt env w) o (bookAt env w')
  orderly : Orderly env custom limit w'
  newIds : NewIds env (bookAt env w) w.tick w'

/-- What leaves the files and the statuses as they are leaves the book as it is. -/
theorem step_of_rest {o : Occurrence Text} (h : Orderly env custom limit w)
    (hstep : Book.Step env custom (bookAt env w) o (bookAt env w)) (hrest : rest w' = rest w)
    (hleaving : (leaving Set.univ).rel w w') (hserved : Served custom w') :
    Stepped env custom limit w o w' := by
  have hbook : bookAt env w' = bookAt env w := h.bookAt_congr hrest hleaving hserved
  refine ⟨?_, h.congr (congrArg Prod.fst hrest) hleaving hserved, ?_⟩
  · rw [hbook]
    exact hstep
  · apply newIds_of_accounts
    rw [hbook]
    exact fun _ hid => hid

/-- A refused request leaves the book as it is. -/
theorem step_of_refused (w' : World Text) (req : Request) (calls : List (Call Text))
    (h : Orderly env custom limit w) (hmay : (bookAt env w).MayRefuse env req)
    (hrest : rest w' = rest w) (hleaving : (leaving Set.univ).rel w w') (hserved : Served custom w') :
    Stepped env custom limit w (.request req .refused calls) w' :=
  step_of_rest h (.refused hmay) hrest hleaving hserved

theorem leaving_resetErrors (w : World Text) :
    (leaving Set.univ).rel w { w with errors := [] } := leaving_of_sameCalls rfl

theorem Orderly.resetErrors (h : Orderly env custom limit w) (hserved : Served custom w) :
    Orderly env custom limit { w with errors := [] } :=
  h.congr rfl (leaving_resetErrors w) ⟨hserved.answered⟩

theorem step_of_list (h : Orderly env custom limit w)
    {providerFilter serviceFilter : Option (List String)}
    (hends : EndsWith ((RPCHandler.list env providerFilter serviceFilter).run w) outcome w')
    (hserved : Served custom w') :
    Stepped env custom limit w (.request (.list providerFilter serviceFilter) outcome calls) w' := by
  have hrun : (RPCHandler.list env providerFilter serviceFilter).run w =
      .ok (.accounts ((listAccounts env { w with errors := [] }
        ((providerFilter.getD []).map cStr) ((serviceFilter.getD []).map cStr)).map
          fun act => { id := act.idAsString env, title := act.title })) { w with errors := [] } := rfl
  rw [hrun] at hends
  cases hends
  exact step_of_rest h (.listed (lists_of_orderly h _ _)) rfl (leaving_resetErrors w) hserved

theorem step_of_get (h : Orderly env custom limit w) {strId : Option String}
    (hends : EndsWith ((RPCHandler.get env strId).run w) outcome w')
    (hserved : Served custom w') :
    Stepped env custom limit w (.request (.get strId) outcome calls) w' := by
  cases hid : requestedId env strId with
  | none =>
    obtain ⟨d, hrun⟩ : ∃ d, (RPCHandler.get env strId).run w = .error (.kj d) w :=
      run_withoutId hid w
    rw [hrun] at hends
    cases hends
    exact step_of_refused _ _ _ h (fun id hid' => absurd (hid.symm.trans hid') nofun) rfl
      ((leaving _).refl w) hserved
  | some id =>
    obtain ⟨r, w₁, hread⟩ := returns_readAccount env id { w with errors := [] }
    have hleaving : (leaving Set.univ).rel w w₁ :=
      (leaving _).trans (leaving_resetErrors w) ((leaving_readAccount id).rel_of_ok hread)
    have hrest : rest w₁ = rest { w with errors := [] } :=
      (within_readAccount (lenient_rest env).toQuiet (fun _ _ => rfl) id).rel_of_ok hread
    have hrun : (RPCHandler.get env strId).run w = _ := run_withId hid w
    rw [hrun, EStateM.run_bind, hread] at hends
    cases r with
    | none =>
      cases hends
      obtain ⟨hentry, -⟩ := read_of_orderly
        (h.resetErrors (hserved.of_prefix (prefix_of_leaving hleaving))) hread hserved
      refine step_of_refused _ _ _ h (fun id' hid' => ?_) hrest hleaving hserved
      cases hid.symm.trans hid'
      exact hentry.symm
    | some act =>
      cases hends
      obtain ⟨hentry, hactid⟩ := read_of_orderly
        (h.resetErrors (hserved.of_prefix (prefix_of_leaving hleaving))) hread hserved
      refine step_of_rest h ?_ hrest hleaving hserved
      apply Book.Step.got hid
      · exact congrArg (fun id => some (env.uuidAsString id)) (hactid act rfl)
      · exact hentry.symm.trans (congrArg some (entry_act2rpc act).symm)

theorem step_of_getStatus (h : Orderly env custom limit w) {strId : Option String}
    (hends : EndsWith ((RPCHandler.getStatus env strId).run w) outcome w')
    (hserved : Served custom w') :
    Stepped env custom limit w (.request (.getStatus strId) outcome calls) w' := by
  cases hid : requestedId env strId with
  | none =>
    obtain ⟨d, hrun⟩ : ∃ d, (RPCHandler.getStatus env strId).run w = .error (.kj d) w :=
      run_withoutId hid w
    rw [hrun] at hends
    cases hends
    exact step_of_refused _ _ _ h hid rfl ((leaving _).refl w) hserved
  | some id =>
    have hrun : (RPCHandler.getStatus env strId).run w = _ := run_withId hid w
    rw [hrun] at hends
    cases hends
    exact step_of_rest h (.statusGot hid) rfl (leaving_resetErrors w) hserved

/-- The statuses after that of one account was set. -/
theorem getStatus_insert {id : Uuid} {stat : AccountStatus}
    (h : w'.statDict = w.statDict.insert (env.uuidAsString id) stat) :
    getStatus env w' = Function.update (getStatus env w) id stat := by
  funext id'
  rw [getStatus_eq, h]
  by_cases hid : id' = id
  · subst hid
    rw [Function.update_self, Std.ExtTreeMap.getElem?_insert_self]
    rfl
  · have hne : env.uuidAsString id ≠ env.uuidAsString id' := fun he =>
      hid (env.uuid.unparse_inj he).symm
    rw [Function.update_of_ne hid, TreeMap.getElem?_insert_of_ne hne, getStatus_eq]

theorem getStatus_erase {id : Uuid} (h : w'.statDict = w.statDict.erase (env.uuidAsString id)) :
    getStatus env w' = Function.update (getStatus env w) id .none := by
  funext id'
  rw [getStatus_eq, h]
  by_cases hid : id' = id
  · subst hid
    rw [Function.update_self, Std.ExtTreeMap.getElem?_erase_self]
    rfl
  · have hne : env.uuidAsString id ≠ env.uuidAsString id' := fun he =>
      hid (env.uuid.unparse_inj he).symm
    rw [Function.update_of_ne hid, TreeMap.getElem?_erase_of_ne hne, getStatus_eq]

/-- The status that was set is in the book. -/
theorem step_of_statusSet (h : Orderly env custom limit w) {strId : Option String} {id : Uuid}
    (hid : requestedId env strId = some id) {stat : AccountStatus} {p : AccountParser}
    {acc act : AccountObject} {w₁ : World Text}
    (hok : ReadOk env { w with errors := [] } id p acc act w₁)
    (hleaving : (leaving Set.univ).rel w (statusSet env w₁ act stat))
    (hserved : Served custom (statusSet env w₁ act stat)) :
    Stepped env custom limit w (.request (.setStatus strId stat) (.replied (.result true)) calls)
      (statusSet env w₁ act stat) := by
  have hrest : rest w₁ = rest w := hok.silent _ (lenient_rest env).toQuiet
  have hfiles : (statusSet env w₁ act stat).files = w.files :=
    (files_statusSet w₁ act stat).trans (congrArg Prod.fst hrest)
  have hactid : act.id = id :=
    hok.id_eq.trans (h.inner p (findParser_some hok.parser_eq).1 id acc hok.read_eq)
  have hstat : (statusSet env w₁ act stat).statDict =
      w.statDict.insert (env.uuidAsString id) stat := by
    rw [statDict_statusSet, AccountObject.idAsString, hactid]
    exact congrArg (fun d => d.insert (env.uuidAsString id) stat) (congrArg (·.2.1) hrest)
  have hbook : bookAt env (statusSet env w₁ act stat) =
      { bookAt env w with status := Function.update (getStatus env w) id stat } := by
    rw [bookAt, h.accounts_congr hfiles hleaving hserved, getStatus_insert hstat]
  refine ⟨?_, h.congr hfiles hleaving hserved, ?_⟩
  · rw [hbook]
    refine .statusSet hid ?_
    show ((accountAt env { w with errors := [] } id).map _).isSome
    rw [accountAt_eq_some_iff.2 ⟨p, hok.parser_eq, hok.read_eq⟩]
    rfl
  · apply newIds_of_accounts
    rw [hbook]
    exact fun _ hid => hid

theorem step_of_setStatus (hinit : env.eventManagerInited = true) (h : Orderly env custom limit w)
    {strId : Option String} {stat : AccountStatus}
    (hends : EndsWith ((RPCHandler.setStatus env strId stat).run w) outcome w')
    (hserved : Served custom w') :
    Stepped env custom limit w (.request (.setStatus strId stat) outcome calls) w' := by
  cases hid : requestedId env strId with
  | none =>
    obtain ⟨d, hrun⟩ : ∃ d, (RPCHandler.setStatus env strId stat).run w = .error (.kj d) w :=
      run_withoutId hid w
    rw [hrun] at hends
    cases hends
    exact step_of_refused _ _ _ h (fun id hid' => absurd (hid.symm.trans hid') nofun) rfl
      ((leaving _).refl w) hserved
  | some id =>
    have hrun : (RPCHandler.setStatus env strId stat).run w = _ := run_withId hid w
    rw [hrun, EStateM.run_bind] at hends
    cases hset : (AccountManager.setStatus env id stat).run { w with errors := [] } with
    | error e w₁ =>
      exact absurd hset (raises_setStatus (E := fun _ => False) hinit id stat _ e _)
    | ok res w₁ =>
      rw [hset] at hends
      have hleaving : (leaving Set.univ).rel w w₁ :=
        (leaving _).trans (leaving_resetErrors w) ((leaving_setStatus id stat).rel_of_ok hset)
      rcases setStatus_ok hset with ⟨rfl, hnone, errs, rfl⟩ | ⟨p, acc, act, w₂, rfl, hok, rfl⟩
      · cases hends
        refine step_of_refused _ _ _ h (fun id' hid' => ?_) rfl hleaving hserved
        cases hid.symm.trans hid'
        show (accountAt env w id).map _ = none
        rw [Option.map_eq_none_iff, ← Option.not_isSome_iff_eq_none, Option.isSome_iff_exists]
        rintro ⟨acc, hacc⟩
        obtain ⟨p, hfind, hread⟩ := accountAt_eq_some_iff.1 hacc
        exact hnone p hfind acc hread
      · cases hends
        exact step_of_statusSet h hid hok hleaving hserved

/-! ## Requests that change accounts -/

/-- An event manager that is set up, file operations that succeed, and uuids that do not recur before
the call with the number `limit`. -/
structure BookKeeping (env : Env Text) (limit : ℕ) : Prop extends Dependable env where
  inited : env.eventManagerInited = true
  uuids : Set.InjOn env.uuidGenerate (Set.Iio limit)

/-- What a save of the account `act` makes of the book. -/
structure Saves (env : Env Text) (custom : Set String) (limit : ℕ) (w : World Text)
    (act act' : AccountObject) (w' : World Text) : Prop where
  savedBy : (AccountEntry.shown (shelfAt w') (AccountParser.stored env act')).SavedBy env custom act
    (w.newCalls w')
  shows : (AccountEntry.of act').Shows custom (w.newCalls w')
    (AccountEntry.shown (shelfAt w') (AccountParser.stored env act'))
  book : bookAt env w' =
    { accounts := Function.update (bookAt env w).accounts act'.id
        (some (AccountEntry.shown (shelfAt w') (AccountParser.stored env act')))
      status := Function.update (getStatus env w) act'.id .none }
  orderly : Orderly env custom limit w'

/-- A save brings at most the id of the account it saves. -/
theorem Saves.newIds {act act' : AccountObject} (h : Saves env custom limit w act act' w') {start : ℕ}
    (hnew : (bookAt env w).accounts act'.id = none →
      ∃ n, start ≤ n ∧ n < w'.tick ∧ act'.id = env.uuidGenerate n) :
    NewIds env (bookAt env w) start w' := by
  intro id hid
  rw [h.book] at hid
  by_cases heq : id = act'.id
  · subst heq
    rcases hold : (bookAt env w).accounts act'.id with _ | entry
    · exact .inr (hnew hold)
    · exact .inl rfl
  · dsimp only at hid
    rw [Function.update_of_ne heq] at hid
    exact .inl hid

theorem Orderly.bookAt_saved {p : AccountParser} {act' : AccountObject} {event : String}
    {w₁ w₂ : World Text} {b : Bool} (h : Orderly env custom limit w) (hd : Dependable env)
    (hvia : SavedVia env p act' event w w₁ w₂ w' b) (hleaving : (leaving Set.univ).rel w w')
    (hserved : Served custom w') : bookAt env w' =
      { accounts := Function.update (bookAt env w).accounts act'.id
          (some (AccountEntry.shown (shelfAt w') (AccountParser.stored env act')))
        status := Function.update (getStatus env w) act'.id .none } := by
  obtain ⟨-, act, w₃, hrest, hid, hw₂⟩ := hvia.status_eq hd
  have hstat : w'.statDict = w.statDict.insert (env.uuidAsString act'.id) .none := by
    rw [hvia.statDict₂, hw₂, statDict_statusSet, AccountObject.idAsString, hid]
    have hdict : w₃.statDict = w₁.statDict := congrArg (·.2.1) hrest
    rw [hdict, hvia.statDict₁]
  rw [bookAt, getStatus_insert hstat, hvia.accountAt_eq hd, entries_update (shelfAt w)]
  · rfl
  · exact fun id acc _ hacc => h.shown_eq hleaving hserved hacc fun _ _ _ => trivial

/-- A creation that succeeds puts an account under a new id into the book. -/
theorem saves_of_create (hkeeping : BookKeeping env limit) (h : Orderly env custom limit w)
    {act act' : AccountObject} (hinit : AllInited env act.services)
    (hr : (createAccount env act).run w = .ok (true, act') w') (hserved : Served custom w')
    (hlimit : w'.tick ≤ limit) : Saves env custom limit w act act' w' ∧
      act'.id = env.uuidGenerate w.tick ∧ .uuidGenerate act'.id ∈ w.newCalls w' ∧
      w.tick < w'.tick ∧ (bookAt env w).accounts act'.id = none := by
  rcases create_cases hr with ⟨hfalse, -⟩ | ⟨-, hid, p, w₁, w₂, sb, hverify, hvia⟩
  · cases hfalse
  have hleaving : (leaving Set.univ).rel w w' := (leaving_createAccount act).rel_of_ok hr
  have hgrow := (AccountObject.calls_verify _).rel_of_ok hverify
  have hcalls : (w.record (.uuidGenerate (env.uuidGenerate w.tick))).calls <+: w'.calls :=
    hgrow.trans hvia.calls_prefix
  have htick : w.tick < w'.tick := by
    have hlength := hcalls.length_le
    rw [World.record, List.length_append, List.length_singleton] at hlength
    exact hlength
  have hbefore : w.tick < limit := htick.trans_le hlimit
  have hunused : ¬Stored env w act'.id := hid ▸ h.unused w.tick le_rfl hbefore
  have hsettled : Settled env custom { act with id := env.uuidGenerate w.tick } act' w w' :=
    settled_of_verify hverify hinit hleaving (List.prefix_append w.calls _) hvia.calls_prefix hserved
  obtain ⟨-, hnames⟩ := services_of_verify (reaches_of_verified hverify) hverify hinit
  have hsaved := hsettled.savedBy hserved.own (details_of_verify hverify) hnames
  refine ⟨⟨hsaved.of_id, hsettled.shows hserved.own,
    h.bookAt_saved hkeeping.toDependable hvia hleaving hserved, ?_⟩, hid, ?_, htick, ?_⟩
  · refine h.saved hkeeping.toDependable hvia (fun q hq hex => absurd ⟨q, hq, hex⟩ hunused) hleaving
      hserved hsettled fun n hn hlt heq => ?_
    rw [hid] at heq
    have hsame := hkeeping.uuids hlt hbefore heq
    omega
  · rw [hid]
    exact World.mem_newCalls_of_prefix hcalls
  · show (accountAt env w act'.id).map _ = none
    rw [Option.map_eq_none_iff, ← Option.not_isSome_iff_eq_none]
    exact fun hsome => hunused (stored_of_accountAt hsome)

/-- A modification that succeeds replaces the account in the book. -/
theorem saves_of_modify (hkeeping : BookKeeping env limit) (h : Orderly env custom limit w) {id : Uuid}
    {act act' : AccountObject} (hinit : AllInited env act.services)
    (hr : (modifyAccount env id act).run w = .ok (true, act') w') (hserved : Served custom w') :
    Saves env custom limit w act act' w' ∧ act'.id = id ∧ ((bookAt env w).accounts id).isSome := by
  rcases modify_cases h.inner hr with ⟨hfalse, -⟩ |
    ⟨-, hid, p, acc, oldAct, w₀, w₁, w₂, sb, hok, hverify, hvia⟩
  · cases hfalse
  have hleaving : (leaving Set.univ).rel w w' := (leaving_modifyAccount id act).rel_of_ok hr
  have hsettled : Settled env custom { act with id } act' w w' :=
    settled_of_verify hverify hinit hleaving (hok.silent _ quiet_callsFrame) hvia.calls_prefix hserved
  obtain ⟨-, hnames⟩ := services_of_verify (reaches_of_verified hverify) hverify hinit
  have hsaved := hsettled.savedBy hserved.own (details_of_verify hverify) hnames
  have hstored : Stored env w act'.id :=
    ⟨p, hvia.routed.mem, hid ▸ isSome_of_read hok.read_eq⟩
  refine ⟨⟨hsaved.of_id, hsettled.shows hserved.own,
    h.bookAt_saved hkeeping.toDependable hvia hleaving hserved, ?_⟩, hid, ?_⟩
  · refine h.saved hkeeping.toDependable hvia (fun q hq hex => ?_) hleaving hserved hsettled
      fun n hn hlt heq => ?_
    · exact h.unique q hq p hvia.routed.mem _ hex (hid ▸ isSome_of_read hok.read_eq)
    · exact h.unused n ((tick_of_leaving hleaving).trans hn) hlt (heq ▸ hstored)
  · show ((accountAt env w id).map _).isSome
    rw [accountAt_eq_some_iff.2 ⟨p, hok.parser_eq, hok.read_eq⟩]
    rfl

/-- The account that was created is in the book. -/
theorem step_of_created (hkeeping : BookKeeping env limit) (h : Orderly env custom limit w)
    {rpc : RPCAccount} {act act' : AccountObject} (hact : RPCHandler.rpc2act env rpc = some act)
    (hr : (createAccount env act).run { w with errors := [] } = .ok (true, act') w')
    (hserved₀ : Served custom w) (hserved : Served custom w') (hlimit : w'.tick ≤ limit) :
    Stepped env custom limit w (.request (.add (some rpc))
      (.replied (.saved true (RPCHandler.act2rpc env act') w'.errors)) (w.newCalls w')) w' := by
  obtain ⟨hsaves, hactid, hnew, htick, hnone⟩ := saves_of_create hkeeping (h.resetErrors hserved₀)
    (Decoded.allInited ⟨rpc, hact⟩) hr hserved hlimit
  refine ⟨?_, hsaves.orderly, hsaves.newIds fun _ => ⟨w.tick, le_rfl, htick, hactid⟩⟩
  rw [hsaves.book]
  refine .added hact hnew hnone hsaves.savedBy rfl ?_
  rw [entry_act2rpc]
  exact hsaves.shows

theorem step_of_add (hkeeping : BookKeeping env limit) (h : Orderly env custom limit w)
    {account : Option RPCAccount}
    (hends : EndsWith ((RPCHandler.add env account).run w) outcome w') (hserved : Served custom w')
    (hlimit : w'.tick ≤ limit) :
    Stepped env custom limit w (.request (.add account) outcome (w.newCalls w')) w' := by
  have hrefused := step_of_refused w' (.add account) (w.newCalls w') h trivial
  cases account with
  | none =>
    cases hends
    exact hrefused rfl ((leaving _).refl w) hserved
  | some rpc =>
    rw [RPCHandler.add, EStateM.run_bind] at hends
    cases hact : RPCHandler.rpc2act env rpc with
    | none =>
      rw [run_requestAccount_none hact] at hends
      cases hends
      exact hrefused rfl ((leaving _).refl w) hserved
    | some act =>
      rw [run_requestAccount_some hact] at hends
      change EndsWith ((createAccount env act >>= _).run { w with errors := [] }) outcome w' at hends
      rw [EStateM.run_bind] at hends
      have hwithin : (leaving Set.univ).rel w
          (final ((createAccount env act).run { w with errors := [] })) :=
        (leaving _).trans (leaving_resetErrors w) (leaving_createAccount act _)
      cases hcreate : (createAccount env act).run { w with errors := [] } with
      | error e w₁ =>
        rw [hcreate] at hends hwithin
        cases hends
        exact hrefused (failsEarly_createAccount hkeeping.inited act { w with errors := [] } e _
          hcreate) hwithin hserved
      | ok r w₁ =>
        obtain ⟨res, act'⟩ := r
        rw [hcreate] at hends hwithin
        cases res with
        | false =>
          cases hends
          rcases create_cases hcreate with ⟨-, hrest⟩ | ⟨htrue, -⟩
          · exact hrefused hrest hwithin hserved
          · cases htrue
        | true =>
          cases hends
          exact step_of_created hkeeping h hact hcreate
            (hserved.of_prefix (prefix_of_leaving hwithin)) hserved hlimit

/-- The account that was modified is replaced in the book. -/
theorem step_of_modified (hkeeping : BookKeeping env limit) (h : Orderly env custom limit w)
    {strId : String} {id : Uuid} (hid : requestedId env (some strId) = some id) {rpc : RPCAccount}
    {act act' : AccountObject} (hact : RPCHandler.rpc2act env rpc = some act)
    (hr : (modifyAccount env id act).run { w with errors := [] } = .ok (true, act') w')
    (hserved₀ : Served custom w) (hserved : Served custom w') :
    Stepped env custom limit w (.request (.edit (some strId) (some rpc))
      (.replied (.saved true (RPCHandler.act2rpc env act') w'.errors)) (w.newCalls w')) w' := by
  obtain ⟨hsaves, hactid, hsome⟩ := saves_of_modify hkeeping (h.resetErrors hserved₀)
    (Decoded.allInited ⟨rpc, hact⟩) hr hserved
  refine ⟨?_, hsaves.orderly, hsaves.newIds fun hnone => ?_⟩
  · rw [hsaves.book, hactid]
    refine .edited hid hact hsome hsaves.savedBy ?_ ?_
    · exact congrArg (fun id => some (env.uuidAsString id)) hactid
    · rw [entry_act2rpc]
      exact hsaves.shows
  · rw [hactid] at hnone
    exact absurd hsome (Option.not_isSome_iff_eq_none.2 hnone)

theorem step_of_edit (hkeeping : BookKeeping env limit) (h : Orderly env custom limit w)
    {strId : Option String} {account : Option RPCAccount}
    (hends : EndsWith ((RPCHandler.edit env strId account).run w) outcome w')
    (hserved : Served custom w') :
    Stepped env custom limit w (.request (.edit strId account) outcome (w.newCalls w')) w' := by
  have hrefused := step_of_refused w' (.edit strId account) (w.newCalls w') h trivial
  cases strId with
  | none =>
    cases hends
    exact hrefused rfl ((leaving _).refl w) hserved
  | some s =>
    cases account with
    | none =>
      cases hends
      exact hrefused rfl ((leaving _).refl w) hserved
    | some rpc =>
      change EndsWith ((RPCHandler.requestId env (some s) "'id' parameter is not set"
        "invalid accound id" >>= _).run w) outcome w' at hends
      rw [EStateM.run_bind] at hends
      cases hid : requestedId env (some s) with
      | none =>
        obtain ⟨d, hrun⟩ := run_requestId_none hid w
        rw [hrun] at hends
        cases hends
        exact hrefused rfl ((leaving _).refl w) hserved
      | some id =>
        rw [run_requestId_some hid] at hends
        dsimp only at hends
        rw [EStateM.run_bind] at hends
        cases hact : RPCHandler.rpc2act env rpc with
        | none =>
          rw [run_requestAccount_none hact] at hends
          cases hends
          exact hrefused rfl ((leaving _).refl w) hserved
        | some act =>
          rw [run_requestAccount_some hact] at hends
          change EndsWith ((modifyAccount env id act >>= _).run { w with errors := [] }) outcome w'
            at hends
          rw [EStateM.run_bind] at hends
          have hwithin : (leaving Set.univ).rel w
              (final ((modifyAccount env id act).run { w with errors := [] })) :=
            (leaving _).trans (leaving_resetErrors w) (leaving_modifyAccount id act _)
          cases hmodify : (modifyAccount env id act).run { w with errors := [] } with
          | error e w₁ =>
            rw [hmodify] at hends hwithin
            cases hends
            exact hrefused (failsEarly_modifyAccount hkeeping.inited id act
              { w with errors := [] } e _ hmodify) hwithin hserved
          | ok r w₁ =>
            obtain ⟨res, act'⟩ := r
            rw [hmodify] at hends hwithin
            cases res with
            | false =>
              cases hends
              have hinner : InnerIds env { w with errors := [] } := h.inner.congr rfl
              rcases modify_cases hinner hmodify with ⟨-, hrest⟩ | ⟨htrue, -⟩
              · exact hrefused hrest hwithin hserved
              · cases htrue
            | true =>
              cases hends
              exact step_of_modified hkeeping h hid hact hmodify
                (hserved.of_prefix (prefix_of_leaving hwithin)) hserved

/-- A deletion that succeeds takes the account out of the book. -/
theorem Orderly.deleted (h : Orderly env custom limit w) {id : Uuid}
    (hr : (deleteAccount env id).run w = .ok true w') (hserved : Served custom w') :
    ((bookAt env w).accounts id).isSome ∧ Orderly env custom limit w' ∧ bookAt env w' =
      { accounts := Function.update (bookAt env w).accounts id none
        status := Function.update (getStatus env w) id .none } := by
  rcases delete_cases h.inner hr with ⟨hfalse, -⟩ | ⟨-, p, act, w₂, hfind, hread, -, hrest, hw'⟩
  · cases hfalse
  have hfind' : findParser env w id false = some p := findParser_false_of_true hfind
  have hacc : accountAt env w id = some act := accountAt_eq_some_iff.2 ⟨p, hfind', hread⟩
  have hp := (findParser_some hfind).1
  have hfiles : w'.files = (w.erased (p.accountPath env id)).files := by
    rw [hw', w₂.files_published]
    exact congrArg Prod.fst hrest
  have hstat : w'.statDict = w.statDict.erase (env.uuidAsString id) := by
    rw [hw', w₂.statDict_published]
    exact congrArg (·.2.1) hrest
  have hleaving : (leaving {r | ¬NamesRecord act r}).rel w w' := by
    have hfinal : (leaving {r | ¬NamesRecord act r}).rel w (final ((deleteAccount env id).run w)) := by
      apply leaving_deleteAccount
      intro q hq acc hread' r hnot
      cases hacc.symm.trans (h.accountAt_iff.2 ⟨q, hq, hread'⟩)
      exact hnot
    rwa [hr] at hfinal
  refine ⟨?_, h.erased hfind' hread hfiles hleaving hserved, ?_⟩
  · show ((accountAt env w id).map _).isSome
    rw [hacc]
    rfl
  · rw [bookAt, getStatus_erase hstat, accountAt_congr hfiles,
      accountAt_erased h.toTidy hp (isSome_of_read hread), entries_update (shelfAt w)]
    · rfl
    · intro id' acc hne hacc'
      apply h.shown_eq hleaving hserved hacc'
      exact fun r hnames hcustom hnames' =>
        hne (h.shelved.once id' acc id act r hacc' hacc hnames hnames' hcustom)

theorem step_of_remove (hkeeping : BookKeeping env limit) (h : Orderly env custom limit w)
    {strId : Option String} (hends : EndsWith ((RPCHandler.remove env strId).run w) outcome w')
    (hserved₀ : Served custom w) (hserved : Served custom w') :
    Stepped env custom limit w (.request (.remove strId) outcome (w.newCalls w')) w' := by
  have hrefused := step_of_refused w' (.remove strId) (w.newCalls w') h trivial
  cases hid : requestedId env strId with
  | none =>
    obtain ⟨d, hrun⟩ : ∃ d, (RPCHandler.remove env strId).run w = .error (.kj d) w :=
      run_withoutId hid w
    rw [hrun] at hends
    cases hends
    exact hrefused rfl ((leaving _).refl w) hserved
  | some id =>
    have hrun : (RPCHandler.remove env strId).run w = _ := run_withId hid w
    rw [hrun, EStateM.run_bind] at hends
    cases hdelete : (deleteAccount env id).run { w with errors := [] } with
    | error e w₁ =>
      exact absurd hdelete (raises_deleteAccount hkeeping.inited id _ e _)
    | ok res w₁ =>
      rw [hdelete] at hends
      have hreset : Orderly env custom limit { w with errors := [] } := h.resetErrors hserved₀
      cases res with
      | false =>
        cases hends
        obtain ⟨errs, rfl⟩ := deleteAccount_of_held hkeeping.toDependable
          (fun p hp acc hread => hreset.shelved.held id acc (hreset.accountAt_iff.2 ⟨p, hp, hread⟩))
          hdelete hserved
        exact hrefused rfl (leaving_of_sameCalls rfl) hserved
      | true =>
        cases hends
        obtain ⟨hsome, horderly, hbook⟩ := hreset.deleted hdelete hserved
        refine ⟨?_, horderly, ?_⟩
        · rw [hbook]
          exact .removed hid hsome
        · apply newIds_of_accounts
          rw [hbook]
          intro id' hid'
          by_cases heq : id' = id
          · exact heq ▸ hsome
          · dsimp only at hid'
            rwa [Function.update_of_ne heq] at hid'

/-! ## Restarts -/

/-- The entry that is saved of a default account is one for its plugin. -/
theorem defaultFor_of_savedBy {name : String} {entry : AccountEntry}
    (h : entry.SavedBy env custom (defaultAccount env name) calls) : entry.DefaultFor name where
  title := h.title
  provider := h.provider
  isActive := h.isActive
  settings := h.settings
  names svcName := by
    rw [h.names, eq_comm]
    simp [defaultAccount]

/-- Where no listed account has a service, no account of the book has. -/
theorem services_of_unlisted (h : Orderly env custom limit w) {name : String}
    (hnone : (listAccounts env w [] []).any (·.hasService name) = false) (id : Uuid)
    (entry : AccountEntry) (hentry : (bookAt env w).accounts id = some entry) :
    entry.services name = none := by
  obtain ⟨p, hp, acc, hread, rfl⟩ := h.accounts_eq_some_iff.1 hentry
  rw [← Option.not_isSome_iff_eq_none, ← hasService_iff (shelfAt w)]
  exact List.any_eq_false.1 hnone acc (mem_listAccounts_iff.2 ⟨p, hp, id, hread⟩)

/-- What the turns of the start keep, from the book `b` on. -/
structure Starting (env : Env Text) (custom : Set String) (limit : ℕ) (b : Book) (start : ℕ)
    (s : World Text) : Prop where
  orderly : Orderly env custom limit s
  restarts : b.Restarts env (bookAt env s)
  began : start ≤ s.tick
  newIds : NewIds env b start s

theorem Starting.keeps {b : Book} {start : ℕ} {s s' : World Text}
    (h : Starting env custom limit b start s) (hrest : rest s' = rest s)
    (hleaving : (leaving Set.univ).rel s s') (hserved : Served custom s') :
    Starting env custom limit b start s' := by
  have hbook : bookAt env s' = bookAt env s := h.orderly.bookAt_congr hrest hleaving hserved
  have htick : s.tick ≤ s'.tick := tick_of_leaving hleaving
  refine ⟨h.orderly.congr (congrArg Prod.fst hrest) hleaving hserved, ?_, h.began.trans htick, ?_⟩
  · rw [hbook]
    exact h.restarts
  · intro id hid
    rw [hbook] at hid
    rcases h.newIds id hid with hold | ⟨n, hn, hlt, heq⟩
    · exact .inl hold
    · exact .inr ⟨n, hn, hlt.trans_le htick, heq⟩

/-- The creation of the account for a plugin that no account of the book has. -/
theorem Starting.creates (hkeeping : BookKeeping env limit) {b : Book} {start : ℕ}
    {s s' : World Text} (h : Starting env custom limit b start s)
    {kv : String × PluginContainer} {act' : AccountObject}
    (hplugin : env.registeredPlugins[kv.1]? = some kv.2) (hwanted : kv.2.autoInitialize = true)
    (hfree : ∀ id entry, b.accounts id = some entry → entry.services kv.1 = none)
    (hr : (createAccount env (defaultAccount env kv.1)).run s = .ok (true, act') s')
    (hserved : Served custom s') (hlimit : s'.tick ≤ limit) :
    Starting env custom limit b start s' := by
  have hnamed : env.pluginNamed kv.1 = some kv.2 := pluginNamed_of_registered hplugin
  obtain ⟨hsaves, hactid, -, htick, hnone⟩ :=
    saves_of_create hkeeping h.orderly (allInited_defaultAccount hnamed) hr hserved hlimit
  have hstatus : getStatus env s = fun _ => .none := h.restarts.status
  refine ⟨hsaves.orderly, ⟨?_, fun id => ?_⟩, h.began.trans htick.le, fun id hid => ?_⟩
  · rw [hsaves.book]
    dsimp only
    rw [hstatus]
    exact Function.update_eq_self act'.id _
  · rw [hsaves.book]
    dsimp only
    by_cases hid : id = act'.id
    · subst hid
      rw [Function.update_self]
      refine .inr ⟨?_, kv.1, kv.2, _, hplugin, hwanted, hfree, rfl,
        defaultFor_of_savedBy hsaves.savedBy⟩
      rcases h.restarts.accounts act'.id with hsame | ⟨hold, -⟩
      · exact hsame.symm.trans hnone
      · exact hold
    · rw [Function.update_of_ne hid]
      exact h.restarts.accounts id
  · rcases hsaves.newIds (fun _ => ⟨s.tick, h.began, htick, hactid⟩) id hid with hold | hnew
    · rcases h.newIds id hold with hold | ⟨n, hn, hlt, hgen⟩
      · exact .inl hold
      · exact .inr ⟨n, hn, hlt.trans htick, hgen⟩
    · exact .inr hnew

variable (env) in
theorem ends_autoInitialize (registered : List AccountObject) (kv : String × PluginContainer) :
    Ends growing (autoInitialize env registered kv) := by
  refine ends_ite (fun _ => ends_ite (fun hinited => Ends.bind ?_ fun _ => ends_pure _) fun _ =>
    ends_pure _) fun _ => ends_pure _
  exact ends_createAccount admits_growing (allInited_empty.insert (linkedAs_init hinited))

theorem leaving_autoInitialize (registered : List AccountObject) (kv : String × PluginContainer) :
    Within (leaving Set.univ) (autoInitialize env registered kv) :=
  within_ite (fun _ => within_ite (fun _ => (leaving_createAccount _).bind fun _ => within_pure _)
    fun _ => within_pure _) fun _ => within_pure _

/-- One turn of the start. -/
theorem Starting.turn (hkeeping : BookKeeping env limit) {b : Book} {start : ℕ} {s : World Text}
    {registered : List AccountObject} (h : Starting env custom limit b start s)
    {kv : String × PluginContainer} (hplugin : env.registeredPlugins[kv.1]? = some kv.2)
    (hfree : registered.any (·.hasService kv.1) = false →
      ∀ id entry, b.accounts id = some entry → entry.services kv.1 = none)
    (hserved : Served custom (final ((autoInitialize env registered kv).run s)))
    (hlimit : (final ((autoInitialize env registered kv).run s)).tick ≤ limit) :
    Starting env custom limit b start (final ((autoInitialize env registered kv).run s)) := by
  have hleaving : (leaving Set.univ).rel s (final ((autoInitialize env registered kv).run s)) :=
    leaving_autoInitialize registered kv s
  by_cases hwanted : (kv.2.autoInitialize && !registered.any (·.hasService kv.1)) = true
  · rw [autoInitialize_of_wanted (pluginNamed_of_registered hplugin) hwanted] at *
    rw [EStateM.run_bind] at *
    obtain ⟨hauto, hnone⟩ := Bool.and_eq_true_iff.1 hwanted
    cases hcreate : (createAccount env (defaultAccount env kv.1)).run s with
    | error e s' =>
      rw [hcreate] at hleaving hserved
      exact h.keeps (failsEarly_createAccount hkeeping.inited _ s e s' hcreate) hleaving hserved
    | ok r s' =>
      obtain ⟨res, act'⟩ := r
      rw [hcreate] at hleaving hserved hlimit
      cases res with
      | false =>
        rcases create_cases hcreate with ⟨-, hrest⟩ | ⟨htrue, -⟩
        · exact h.keeps hrest hleaving hserved
        · cases htrue
      | true =>
        exact h.creates hkeeping hplugin hauto (hfree (by simpa using hnone)) hcreate hserved hlimit
  · rw [autoInitialize_of_unwanted hwanted]
    exact h

theorem Starting.turns (hkeeping : BookKeeping env limit) {b : Book} {start : ℕ}
    (registered : List AccountObject)
    (hfree : ∀ name, registered.any (·.hasService name) = false →
      ∀ id entry, b.accounts id = some entry → entry.services name = none)
    (l : List (String × PluginContainer))
    (hplugins : ∀ kv ∈ l, env.registeredPlugins[kv.1]? = some kv.2) {s : World Text}
    (h : Starting env custom limit b start s)
    (hserved : Served custom (final ((forM l (autoInitialize env registered)).run s)))
    (hlimit : (final ((forM l (autoInitialize env registered)).run s)).tick ≤ limit) :
    Starting env custom limit b start (final ((forM l (autoInitialize env registered)).run s)) := by
  induction l generalizing s with
  | nil => exact h
  | cons kv l ih =>
    rw [List.forM_cons, EStateM.run_bind] at hserved hlimit ⊢
    have hturn := h.turn hkeeping (hplugins kv (by simp)) (hfree kv.1)
    cases hrun : (autoInitialize env registered kv).run s with
    | error e s' =>
      rw [hrun] at hserved hlimit hturn
      exact hturn hserved hlimit
    | ok u s' =>
      rw [hrun] at hserved hlimit hturn
      have hrest : s'.calls <+: (final ((forM l (autoInitialize env registered)).run s')).calls :=
        calls_of_ends (ends_forM fun kv' _ => ends_autoInitialize env registered kv') s'
      exact ih (fun kv' hmem => hplugins kv' (by simp [hmem]))
        (hturn (hserved.of_prefix hrest) (hrest.length_le.trans hlimit)) hserved hlimit

/-- A start creates the missing accounts of plugins in the book. -/
theorem starting_of_start (hkeeping : BookKeeping env limit) (h : Orderly env custom limit w)
    (hserved : Served custom (final ((createAutoInitializingAccounts env).run w.restarted)))
    (hlimit : (final ((createAutoInitializingAccounts env).run w.restarted)).tick ≤ limit) :
    Starting env custom limit (bookAt env w) w.tick
      (final ((createAutoInitializingAccounts env).run w.restarted)) := by
  have hcalls : w.restarted.calls <+:
      (final ((createAutoInitializingAccounts env).run w.restarted)).calls :=
    calls_of_ends (ends_createAutoInitializingAccounts admits_growing) w.restarted
  have hserved₀ : Served custom w.restarted := hserved.of_prefix hcalls
  have hleaving : (leaving Set.univ).rel w w.restarted := leaving_of_sameCalls rfl
  have horderly : Orderly env custom limit w.restarted := h.congr rfl hleaving hserved₀
  have hentries : (bookAt env w.restarted).accounts = (bookAt env w).accounts :=
    h.accounts_congr rfl hleaving hserved₀
  have hstart : Starting env custom limit (bookAt env w) w.tick w.restarted := by
    refine ⟨horderly, ⟨?_, fun id => .inl (congrFun hentries id)⟩, le_rfl, fun id hid => .inl ?_⟩
    · funext id
      show getStatus env w.restarted id = .none
      rw [getStatus_eq, World.restarted, Std.ExtTreeMap.getElem?_empty]
      rfl
    · rwa [hentries] at hid
  exact hstart.turns hkeeping (listAccounts env w.restarted [] [])
    (fun name hnone id entry hentry => services_of_unlisted horderly hnone id entry
      ((congrFun hentries id).trans hentry))
    env.registeredPlugins.toList
    (fun kv hmem => Std.ExtTreeMap.mem_toList_iff_getElem?_eq_some.1 hmem) hserved hlimit

/-! ## Sessions -/

theorem calls_of_occurs {o : Occurrence Text} (ho : Occurs env w o w') : w.calls <+: w'.calls := by
  cases ho with
  | restart =>
    exact calls_of_ends (ends_createAutoInitializingAccounts admits_growing) w.restarted
  | request hends => exact calls_of_handle hends

/-- Each occurrence is a step of the book. -/
theorem step_of_occurs (hkeeping : BookKeeping env limit) {o : Occurrence Text}
    (h : Orderly env custom limit w) (ho : Occurs env w o w') (hserved : Served custom w')
    (hlimit : w'.tick ≤ limit) : Stepped env custom limit w o w' := by
  have hserved₀ : Served custom w := hserved.of_prefix (calls_of_occurs ho)
  cases ho with
  | restart =>
    have hstarted := starting_of_start hkeeping h hserved hlimit
    exact ⟨.restarted hstarted.restarts, hstarted.orderly, hstarted.newIds⟩
  | @request _ req outcome hends =>
    cases req with
    | list providerFilter serviceFilter => exact step_of_list h hends hserved
    | get strId => exact step_of_get h hends hserved
    | getStatus strId => exact step_of_getStatus h hends hserved
    | setStatus strId stat => exact step_of_setStatus hkeeping.inited h hends hserved
    | add account => exact step_of_add hkeeping h hends hserved hlimit
    | edit strId account => exact step_of_edit hkeeping h hends hserved
    | remove strId => exact step_of_remove hkeeping h hends hserved₀ hserved

/-- What an occurrence makes of the service before the call with the number `limit`. -/
structure Moves (env : Env Text) (custom : Set String) (limit : ℕ) (w : World Text)
    (o : Occurrence Text) (w' : World Text) : Prop extends Stepped env custom limit w o w' where
  before : Orderly env custom limit w
  later : w.tick ≤ w'.tick
  within : w'.tick ≤ limit

theorem moves_of_run (hkeeping : BookKeeping env limit) {w₀ : World Text}
    {os : List (Occurrence Text)} (h : Orderly env custom limit w₀)
    (hrun : Runs (Occurs env) w₀ os w) (hserved : Served custom w) (hlimit : w.tick ≤ limit) :
    Runs (Moves env custom limit) w₀ os w ∧ Orderly env custom limit w := by
  induction hrun with
  | nil => exact ⟨.nil _, h⟩
  | snoc hrun ho ih =>
    have hcalls := calls_of_occurs ho
    obtain ⟨hruns, horderly⟩ := ih (hserved.of_prefix hcalls) (hcalls.length_le.trans hlimit)
    have hstepped := step_of_occurs hkeeping horderly ho hserved hlimit
    exact ⟨hruns.snoc ⟨hstepped, horderly, hcalls.length_le, hlimit⟩, hstepped.orderly⟩

theorem book_of_run (hkeeping : BookKeeping env limit) {w₀ : World Text} {os : List (Occurrence Text)}
    (h : Orderly env custom limit w₀) (hrun : Runs (Occurs env) w₀ os w) (hserved : Served custom w)
    (hlimit : w.tick ≤ limit) : Runs (Book.Step env custom) (bookAt env w₀) os (bookAt env w) := by
  obtain ⟨hruns, -⟩ := moves_of_run hkeeping h hrun hserved hlimit
  obtain ⟨b, hbook, rfl⟩ := hruns.refines (R := fun w b => bookAt env w = b)
    (fun w b o w' hb hmoves => ⟨_, hb ▸ hmoves.step, rfl⟩) rfl
  exact hbook

/-- Every session of clients, with any number of restarts, is a run of the book that the service
keeps, from the book at the beginning to the book at the end, if the directories are orderly at
first, the account files are written and unlinked, uuids do not recur, the event manager is set up
and the plugins with a storage of their own keep what they are given. -/
theorem sessions_refine_book (env : Env Text) (custom : Set String) (w₀ w : World Text)
    (os : List (Occurrence Text)) (hkeeping : BookKeeping env w.tick) (hserved : Served custom w)
    (hstart : Orderly env custom w.tick w₀) (hrun : Runs (Occurs env) w₀ os w) :
    Runs (Book.Step env custom) (bookAt env w₀) os (bookAt env w) :=
  book_of_run hkeeping hstart hrun hserved le_rfl

theorem orderly_of_empty {w : World Text} (h : ∀ dir, w.files dir = ∅) :
    Orderly env custom limit w := by
  have hnone : ∀ path, w.fileAt path = none := fun path => by
    rw [World.fileAt, h, Std.ExtTreeMap.getElem?_empty]
  have hstored : ∀ id, ¬Stored env w id := by
    rintro id ⟨p, -, hex⟩
    rw [hnone] at hex
    cases hex
  have haccounts : ∀ id acc, accountAt env w id ≠ some acc := fun id acc hacc =>
    hstored id (stored_of_accountAt (hacc ▸ rfl))
  refine ⟨⟨tidy_of_empty h, fun p _ name hname => ?_, fun p _ id hex => ?_⟩,
    ⟨fun id acc hacc => absurd hacc (haccounts id acc),
      fun id acc _ _ _ hacc => absurd hacc (haccounts id acc)⟩, hstored _, fun n _ _ => hstored _⟩
  · rw [h] at hname
    exact absurd hname Std.ExtTreeMap.not_mem_empty
  · rw [hnone] at hex
    cases hex

theorem endsWith_of_result? {r : EStateM.Result Exn (World Text) Reply} (h : (result? r).isSome) :
    ∃ reply, EndsWith r (.replied reply) (final r) := by
  cases r with
  | ok reply w' => exact ⟨reply, .replied⟩
  | error e w' => cases h

/-- Uuids that count do not recur. -/
theorem injOn_uuidGenerate (hgen : ∀ n, env.uuidGenerate n = BitVec.ofNat 128 (n + 1))
    (hlimit : limit ≤ 100) : Set.InjOn env.uuidGenerate (Set.Iio limit) := by
  intro n hn m hm heq
  rw [Set.mem_Iio] at hn hm
  rw [hgen, hgen] at heq
  have hnat := congrArg BitVec.toNat heq
  rw [BitVec.toNat_ofNat, BitVec.toNat_ofNat] at hnat
  omega

theorem bookKeeping_recording (hlimit : limit ≤ 100) : BookKeeping recordingEnv limit :=
  ⟨⟨fun _ _ _ => rfl, fun _ _ => rfl⟩, rfl, injOn_uuidGenerate (fun _ => rfl) hlimit⟩

/-- The service after a client has added an account whose plugin keeps the parameters. -/
def mailAdded : World YamlText :=
  final ((RPCHandler.handle recordingEnv (.add (some mailRequest))).run { files := fun _ => ∅ })

/-- It was started again then. -/
def mailRestarted : World YamlText :=
  final ((createAutoInitializingAccounts recordingEnv).run mailAdded.restarted)

/-- The account was read then. -/
def mailGot : World YamlText :=
  final ((RPCHandler.handle recordingEnv (.get (some (recordingEnv.uuidAsString 1)))).run
    mailRestarted)

instance decidableMail : DecidablePred (· ∈ ({"mail"} : Set String)) := fun name =>
  decidable_of_iff (name = "mail") Iff.rfl

theorem ends_mailAdded : ∃ reply, EndsWith ((RPCHandler.handle recordingEnv
    (.add (some mailRequest))).run { files := fun _ => ∅ }) (.replied reply) mailAdded :=
  endsWith_of_result? (by decide +kernel)

theorem occurs_mailRestarted : Occurs recordingEnv mailAdded .restart mailRestarted := .restart

theorem ends_mailGot : ∃ reply, EndsWith ((RPCHandler.handle recordingEnv
    (.get (some (recordingEnv.uuidAsString 1)))).run mailRestarted) (.replied reply) mailGot :=
  endsWith_of_result? (by decide +kernel)

theorem bookKeeping_mailGot : BookKeeping recordingEnv mailGot.tick :=
  bookKeeping_recording (by decide +kernel)

theorem served_mailGot : Served {"mail"} mailGot := ⟨by decide +kernel⟩

/-- The parameters that the plugin keeps are in the book after a restart. -/
theorem sessions_refine_book_recording : ∃ os, Runs (Book.Step recordingEnv {"mail"})
    (bookAt recordingEnv { files := fun _ => ∅ }) os (bookAt recordingEnv mailGot) ∧
    os.length = 3 ∧ (((bookAt recordingEnv mailGot).accounts 1).bind fun entry =>
      (entry.services "mail").bind fun params => params "user") = some "ann" := by
  obtain ⟨added, hadd⟩ := ends_mailAdded
  obtain ⟨got, hget⟩ := ends_mailGot
  have hrun : Runs (Occurs recordingEnv) { files := fun _ => ∅ } _ mailGot :=
    ((Runs.single (.request hadd)).snoc occurs_mailRestarted).snoc (.request hget)
  exact ⟨_, sessions_refine_book recordingEnv {"mail"} { files := fun _ => ∅ } mailGot _
    bookKeeping_mailGot served_mailGot (orderly_of_empty fun _ => rfl) hrun, rfl, by decide +kernel⟩

end PxAccounts
