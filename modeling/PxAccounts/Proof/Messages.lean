import PxAccounts.Proof.AccountFile
import PxAccounts.Proof.Links

/-!
# Accounts in messages

The two encoders build the same message, and decoding undoes encoding for every account that can be
sent: texts end at a NUL, and only registered services are decoded.
-/

namespace PxAccounts

open Effect AccountManager

variable {Text : Type} {env : Env Text}

/-! ## Texts -/

/-- The text has no NUL. -/
def NulFree (text : String) : Prop := Char.ofNat 0 ∉ text.toList

theorem cStr_of_nulFree {text : String} (h : NulFree text) : cStr text = text := by
  have hall : text.toList.takeWhile (· ≠ Char.ofNat 0) = text.toList := by
    rw [List.takeWhile_eq_self_iff]
    intro c hc
    have hne : c ≠ Char.ofNat 0 := fun he => h (he ▸ hc)
    exact decide_eq_true hne
  rw [cStr, hall, String.ofList_toList]

theorem nulFree_cStr (text : String) : NulFree (cStr text) := by
  intro h
  rw [cStr, String.toList_ofList] at h
  have := List.mem_takeWhile_imp h
  simp at this

theorem nulFree_uuidAsString (env : Env Text) (id : Uuid) : NulFree (env.uuidAsString id) := by
  intro h
  have hchar := env.uuid.unparse_chars id _ h
  revert hchar
  decide

/-! ## Lists filled by index -/

theorem modify_append_cons {α : Type} (f : α → α) (done rest : List α) (a : α) :
    (done ++ a :: rest).modify done.length f = done ++ f a :: rest := by
  induction done with
  | nil => rfl
  | cons d done ih =>
    rw [List.cons_append, List.length_cons, List.modify_succ_cons, ih, List.cons_append]

namespace RPCHandler

/-- After some turns the entries so far are set and the others are still blank. -/
theorem fillList_turns {α β : Type} (blank : β) (set : β → α → β) (xs : List α) (done : List β) :
    (xs.foldl (fun (state : List β × ℕ) x => (state.1.modify state.2 (set · x), state.2 + 1))
      (done ++ List.replicate xs.length blank, done.length)).1 = done ++ xs.map (set blank) := by
  induction xs generalizing done with
  | nil => simp
  | cons x xs ih =>
    have hturn : (done ++ List.replicate (x :: xs).length blank).modify done.length (set · x) =
        (done ++ [set blank x]) ++ List.replicate xs.length blank := by
      rw [List.length_cons, List.replicate_succ, modify_append_cons, List.append_assoc,
        List.singleton_append]
    have hlength : done.length + 1 = (done ++ [set blank x]).length := by
      rw [List.length_append, List.length_singleton]
    rw [List.foldl_cons, hturn, hlength, ih, List.map_cons, List.append_assoc,
      List.singleton_append]

theorem fillList_eq_map {α β : Type} (blank : β) (set : β → α → β) (xs : List α) :
    fillList blank set xs = xs.map (set blank) := fillList_turns blank set xs []

theorem fillList_setEntry (xs : List (String × String)) :
    fillList ("", "") setEntry xs = xs := by
  rw [fillList_eq_map]
  exact List.map_id xs

/-! ## Maps -/

/-- The keys and values have no NUL. -/
def NulFreeMap (m : StrStrMap) : Prop :=
  ∀ key val : String, m[key]? = some val → NulFree key ∧ NulFree val

theorem nulFreeMap_iff {m : StrStrMap} :
    NulFreeMap m ↔ ∀ e ∈ m.toList, NulFree e.1 ∧ NulFree e.2 :=
  (TreeMap.forall_mem_toList (P := fun e => NulFree e.1 ∧ NulFree e.2)).symm

/-- The entries of a message put into a map. -/
def received (m : StrStrMap) (entries : List (String × String)) : StrStrMap :=
  entries.foldl (fun m e => m.insert (cStr e.1) (cStr e.2)) m

theorem nulFreeMap_received {m : StrStrMap} (h : NulFreeMap m) (entries : List (String × String)) :
    NulFreeMap (received m entries) := by
  induction entries generalizing m with
  | nil => exact h
  | cons e entries ih =>
    refine ih fun key val hget => ?_
    change (m.insert (cStr e.1) (cStr e.2))[key]? = some val at hget
    by_cases hkey : cStr e.1 = key
    · rw [hkey, Std.ExtTreeMap.getElem?_insert_self, Option.some.injEq] at hget
      rw [← hkey, ← hget]
      exact ⟨nulFree_cStr _, nulFree_cStr _⟩
    · rw [TreeMap.getElem?_insert_of_ne hkey] at hget
      exact h key val hget

theorem nulFreeMap_empty : NulFreeMap ∅ := by
  intro key val h
  rw [Std.ExtTreeMap.getElem?_empty] at h
  cases h

/-- A map that is sent comes back. -/
theorem received_toList {m : StrStrMap} (h : NulFreeMap m) : received ∅ m.toList = m := by
  have hmap : m.toList.map (fun e => (cStr e.1, cStr e.2)) = m.toList := by
    refine (List.map_congr_left fun e he => ?_).trans (List.map_id _)
    obtain ⟨hkey, hval⟩ := nulFreeMap_iff.1 h e he
    rw [cStr_of_nulFree hkey, cStr_of_nulFree hval]
    rfl
  have hfold : received ∅ m.toList =
      TreeMap.insertAll ∅ (m.toList.map fun e => (cStr e.1, cStr e.2)) := by
    rw [received, TreeMap.insertAll, List.foldl_map]
  rw [hfold, hmap, TreeMap.insertAll_toList]

/-! ## Services -/

/-- A service as it is decoded from a message. -/
def decoded (env : Env Text) (svcName : String) (params : StrStrMap) : AccountService :=
  { ({} : AccountService).init env svcName with params := params }

/-- A service as it is encoded in a message. -/
def encoded (kv : String × AccountService) : RPCService :=
  { name := kv.1, params := kv.2.params.toList }

variable (env) in
theorem act2rpc_services (act : AccountObject) :
    (act2rpc env act).services = act.services.toList.map encoded := by
  refine (fillList_eq_map _ _ _).trans (List.map_congr_left fun kv _ => ?_)
  rw [fillList_setEntry]
  rfl

variable (env) in
theorem act2rpc_settings (act : AccountObject) :
    (act2rpc env act).settings = act.settings.toList := fillList_setEntry _

/-- Every service of a decoded account is registered, has no NUL in its texts and is as a service of
that name is decoded. -/
def AllDecoded (env : Env Text) (services : StrMap AccountService) : Prop :=
  ∀ (name : String) (svc : AccountService), services[name]? = some svc →
    (env.pluginNamed name).isSome ∧ NulFree name ∧ NulFreeMap svc.params ∧
      svc = decoded env name svc.params

theorem allDecoded_decodeService {services services' : StrMap AccountService} {svc : RPCService}
    (h : AllDecoded env services) (hdecode : decodeService env services svc = some services') :
    AllDecoded env services' := by
  simp only [decodeService] at hdecode
  split at hdecode
  · next hreg =>
    cases hdecode
    intro name svc' hget
    by_cases hname : cStr svc.name = name
    · rw [hname, Std.ExtTreeMap.getElem?_insert_self, Option.some.injEq] at hget
      subst hget hname
      refine ⟨hreg, nulFree_cStr _, ?_⟩
      cases hold : services[cStr svc.name]? with
      | none =>
        rw [Std.ExtTreeMap.getD_eq_getD_getElem?, hold]
        exact ⟨nulFreeMap_received nulFreeMap_empty _, rfl⟩
      | some old =>
        obtain ⟨-, -, hfree, heq⟩ := h _ _ hold
        rw [Std.ExtTreeMap.getD_eq_getD_getElem?, hold]
        refine ⟨nulFreeMap_received hfree _, ?_⟩
        rw [Option.getD_some, heq]
        rfl
    · rw [TreeMap.getElem?_insert_of_ne hname] at hget
      exact h name svc' hget
  · cases hdecode

/-- Services that are encoded in turn are decoded in turn. -/
theorem decode_encoded {l : List (String × AccountService)} {services : StrMap AccountService}
    (hl : (l.map Prod.fst).Nodup) (hreg : ∀ kv ∈ l, (env.pluginNamed kv.1).isSome)
    (hname : ∀ kv ∈ l, NulFree kv.1) (hparams : ∀ kv ∈ l, NulFreeMap kv.2.params)
    (hnew : ∀ kv ∈ l, kv.1 ∉ services) :
    (l.map encoded).foldlM (decodeService env) services =
      some (TreeMap.insertAll services (l.map fun kv => (kv.1, decoded env kv.1 kv.2.params))) := by
  induction l generalizing services with
  | nil => rfl
  | cons kv l ih =>
    rw [List.map_cons, List.nodup_cons] at hl
    have hturn : decodeService env services (encoded kv) =
        some (services.insert kv.1 (decoded env kv.1 kv.2.params)) := by
      have hinited : (({} : AccountService).init env kv.1).inited = true := hreg kv (by simp)
      simp only [decodeService, encoded, cStr_of_nulFree (hname kv (by simp)),
        Std.ExtTreeMap.getD_eq_fallback (hnew kv (by simp)), if_pos hinited]
      rw [show ∀ m : StrStrMap, List.foldl (fun m p => m.insert (cStr p.1) (cStr p.2)) m
        kv.2.params.toList = received m kv.2.params.toList from fun _ => rfl]
      rw [show (({} : AccountService).init env kv.1).params = ∅ from rfl,
        received_toList (hparams kv (by simp))]
      rfl
    rw [List.map_cons, List.foldlM_cons, hturn]
    refine ih hl.2 (fun kv' h => hreg kv' (by simp [h])) (fun kv' h => hname kv' (by simp [h]))
      (fun kv' h => hparams kv' (by simp [h])) fun kv' h => ?_
    rw [Std.ExtTreeMap.mem_insert, not_or]
    refine ⟨fun he => hl.1 ?_, hnew kv' (by simp [h])⟩
    rw [Std.compare_eq_iff_eq.1 he]
    exact List.mem_map_of_mem h

/-- Services that came from a message are encoded and decoded as they are. -/
theorem decode_services {services : StrMap AccountService}
    (hreg : ∀ name ∈ services, (env.pluginNamed name).isSome)
    (hfree : ∀ (name : String) (svc : AccountService), services[name]? = some svc →
      NulFree name ∧ NulFreeMap svc.params) :
    (services.toList.map encoded).foldlM (decodeService env) ∅ =
      some (services.map fun name svc => decoded env name svc.params) := by
  have hentry : ∀ kv ∈ services.toList, NulFree kv.1 ∧ NulFreeMap kv.2.params :=
    TreeMap.forall_mem_toList.2 hfree
  rw [decode_encoded (TreeMap.nodup_keys_toList _)
    (fun kv h => hreg kv.1 (TreeMap.mem_of_mem_toList h)) (fun kv h => (hentry kv h).1)
    (fun kv h => (hentry kv h).2) fun _ _ => Std.ExtTreeMap.not_mem_empty]
  have hlist : (services.toList.map fun kv => (kv.1, decoded env kv.1 kv.2.params)) =
      (services.map fun name svc => decoded env name svc.params).toList :=
    (Std.ExtTreeMap.toList_map
      (f := fun name (svc : AccountService) => decoded env name svc.params)).symm
  rw [hlist, TreeMap.insertAll_toList]

/-! ## Accounts -/

/-- The texts that go into the message have no NUL. -/
structure NulFreeAccount (act : AccountObject) : Prop where
  title : NulFree act.title
  provider : NulFree act.provider
  settings : NulFreeMap act.settings
  services : ∀ (name : String) (svc : AccountService), act.services[name]? = some svc →
    NulFree name ∧ NulFreeMap svc.params

/-- An account that can be sent is decoded with the data it was sent with. -/
theorem rpc2act_act2rpc {act : AccountObject} (hfree : NulFreeAccount act)
    (hreg : ∀ name ∈ act.services, (env.pluginNamed name).isSome) :
    rpc2act env (act2rpc env act) = some
      { act with
        services := act.services.map fun name svc => decoded env name svc.params
        errors := [] } := by
  have hid : cStr (act.idAsString env) = env.uuidAsString act.id :=
    cStr_of_nulFree (nulFree_uuidAsString env act.id)
  have hset : act2rpc env act =
      { id := some (act.idAsString env)
        title := act.title
        provider := act.provider
        active := act.isActive
        settings := act.settings.toList
        services := act.services.toList.map encoded } := by
    rw [← act2rpc_settings env, ← act2rpc_services env]
    rfl
  have hsettings : act.settings.toList.foldl (fun m s => m.insert (cStr s.1) (cStr s.2)) ∅ =
      act.settings := received_toList hfree.settings
  rw [hset]
  simp only [rpc2act, hid, AccountObject.setId, AccountParser.uuidFromString_uuidAsString,
    cStr_of_nulFree hfree.title, cStr_of_nulFree hfree.provider, hsettings,
    decode_services hreg hfree.services, Option.bind_eq_bind, Option.bind_some]
  rfl

/-- A decoded account can be sent, and its services are as they would be decoded again. -/
theorem sendable_of_rpc2act {rpc : RPCAccount} {act : AccountObject}
    (h : rpc2act env rpc = some act) : NulFreeAccount act ∧ AllDecoded env act.services ∧
      act.errors = [] := by
  obtain ⟨services, hservices, h⟩ := Option.bind_eq_some_iff.1 h
  cases h
  have hall : AllDecoded env services := by
    refine option_foldlM_induction (AllDecoded env) (fun _ _ _ => allDecoded_decodeService)
      rpc.services (fun name svc hget => ?_) hservices
    have hempty : (∅ : StrMap AccountService)[name]? = some svc := by
      cases hid : rpc.id <;> simp [hid, AccountObject.setId] at hget
    rw [Std.ExtTreeMap.getElem?_empty] at hempty
    cases hempty
  refine ⟨⟨nulFree_cStr _, nulFree_cStr _, ?_, fun name svc hget => ?_⟩, hall, ?_⟩
  · refine nulFreeMap_received ?_ rpc.settings
    cases rpc.id <;> exact nulFreeMap_empty
  · obtain ⟨-, hname, hparams, -⟩ := hall name svc hget
    exact ⟨hname, hparams⟩
  · cases rpc.id <;> rfl

theorem run_requestId {strId notSet invalid : String} {accountId : Uuid}
    (h : env.uuidFromString (cStr strId) = (true, accountId)) (w : World Text) :
    (requestId env (some strId) notSet invalid).run w = .ok accountId w := by
  simp only [requestId, h]
  rfl

/-- A reply of `get` encodes the account read as `act2rpc` does. -/
theorem get_ok {strId : String} {accountId : Uuid}
    (h : env.uuidFromString (cStr strId) = (true, accountId)) {w w' : World Text} {reply : Reply} :
    (get env (some strId)).run w = .ok reply w' ↔
      ∃ act, (readAccount env accountId).run { w with errors := [] } = .ok (some act) w' ∧
        reply = .account (act2rpc env act) := by
  constructor
  · intro hr
    obtain ⟨_, _, hid, hr⟩ := run_bind_ok.1 hr
    rw [run_requestId h] at hid
    cases hid
    obtain ⟨_, _, hreset, hr⟩ := run_bind_ok.1 hr
    cases hreset
    obtain ⟨r, w₁, hread, hr⟩ := run_bind_ok.1 hr
    cases r with
    | none =>
      obtain ⟨_, _, _, hr⟩ := run_bind_ok.1 hr
      cases hr
    | some act =>
      obtain ⟨rfl, rfl⟩ := run_pure_ok.1 hr
      exact ⟨act, hread, rfl⟩
  · rintro ⟨act, hread, rfl⟩
    refine run_bind_ok.2 ⟨accountId, w, run_requestId h w, ?_⟩
    refine run_bind_ok.2 ⟨⟨⟩, { w with errors := [] }, rfl, ?_⟩
    exact run_bind_ok.2 ⟨some act, w', hread, rfl⟩

/-- Two accounts with the same data for a client. -/
structure SameData (act act' : AccountObject) : Prop where
  id : act'.id = act.id
  title : act'.title = act.title
  provider : act'.provider = act.provider
  isActive : act'.isActive = act.isActive
  settings : act'.settings = act.settings
  services : ∀ name : String, act'.services[name]?.map AccountService.params =
    act.services[name]?.map AccountService.params

/-- An account that can be sent is decoded as it was; decoding, encoding and decoding again gives
what decoding once gives; and a reply of `get` is the message that the common encoder builds for the
account read. -/
theorem rpc_round_trip (env : Env Text) :
    (∀ act : AccountObject, NulFreeAccount act →
      (∀ name ∈ act.services, (env.pluginNamed name).isSome) →
      ∃ act', rpc2act env (act2rpc env act) = some act' ∧ SameData act act') ∧
    (∀ rpc act, rpc2act env rpc = some act → rpc2act env (act2rpc env act) = some act) ∧
    ∀ strId accountId, env.uuidFromString (cStr strId) = (true, accountId) →
      ∀ (w : World Text) reply w', (get env (some strId)).run w = .ok reply w' ↔
        ∃ act, (readAccount env accountId).run { w with errors := [] } = .ok (some act) w' ∧
          reply = .account (act2rpc env act) := by
  refine ⟨fun act hfree hreg => ⟨_, rpc2act_act2rpc hfree hreg, rfl, rfl, rfl, rfl, rfl, ?_⟩,
    fun rpc act h => ?_, fun strId accountId hid w reply w' => get_ok hid⟩
  · intro name
    rw [Std.ExtTreeMap.getElem?_map, Option.map_map]
    rfl
  · obtain ⟨hfree, hall, herrors⟩ := sendable_of_rpc2act h
    have hreg : ∀ name ∈ act.services, (env.pluginNamed name).isSome := by
      intro name hname
      obtain ⟨svc, hsvc⟩ := Option.isSome_iff_exists.1
        (Std.ExtTreeMap.mem_iff_isSome_getElem?.1 hname)
      exact (hall name svc hsvc).1
    have hservices : (act.services.map fun name svc => decoded env name svc.params) =
        act.services := by
      refine Std.ExtTreeMap.ext_getElem? fun name => ?_
      rw [Std.ExtTreeMap.getElem?_map]
      cases hget : act.services[name]? with
      | none => rfl
      | some svc => exact congrArg some (hall name svc hget).2.2.2.symm
    rw [rpc2act_act2rpc hfree hreg, hservices, ← herrors]

/-- A message with a repeated service and repeated keys, without an id. -/
def repeatedMail : RPCAccount where
  title := "Mail"
  provider := ""
  active := true
  settings := [("color", "red"), ("color", "blue")]
  services := [{ name := "mail", params := [("user", "ann"), ("user", "eve")] },
    { name := "mail", params := [("host", "example")] }]

/-- The round trips of that message, and of the account in a directory. -/
theorem rpc_round_trip_mail : ∃ act act', rpc2act referenceEnv repeatedMail = some act ∧
    rpc2act referenceEnv (act2rpc referenceEnv act) = some act' ∧ SameData act act' ∧
    rpc2act referenceEnv (act2rpc referenceEnv act') = some act' ∧
    ∀ (w : World YamlText) reply w',
      (get referenceEnv (some (referenceEnv.uuidAsString 7))).run w = .ok reply w' ↔
        ∃ act, (readAccount referenceEnv 7).run { w with errors := [] } = .ok (some act) w' ∧
          reply = .account (act2rpc referenceEnv act) := by
  obtain ⟨hsend, hdecode, hget⟩ := rpc_round_trip referenceEnv
  obtain ⟨act, hact⟩ := Option.isSome_iff_exists.1
    (show (rpc2act referenceEnv repeatedMail).isSome by decide +kernel)
  obtain ⟨hfree, hall, -⟩ := sendable_of_rpc2act hact
  obtain ⟨act', hact', hsame⟩ := hsend act hfree fun name hname => by
    obtain ⟨svc, hsvc⟩ := Option.isSome_iff_exists.1
      (Std.ExtTreeMap.mem_iff_isSome_getElem?.1 hname)
    exact (hall name svc hsvc).1
  exact ⟨act, act', hact, hact', hsame, hdecode _ act' hact', hget _ 7 (by decide +kernel)⟩

end RPCHandler

end PxAccounts
