import PxAccounts.Lib.Run
import PxAccounts.Proof.Exceptions

/-!
# The event stream replays to the state

A subscriber that folds the events over the accounts it started with knows, after every call, which
accounts are stored and what status each has.
-/

namespace PxAccounts

open Effect Run AccountManager
open AccountObject (rest lenient_rest)

variable {Text : Type} {env : Env Text}

/-! ## The subscriber -/

/-- The accounts a subscriber knows of, with their statuses. -/
abbrev Replica := Uuid → Option AccountStatus

/-- The declared status with this text. -/
def statusNamed : String → Option AccountStatus
  | "NONE" => some .none
  | "ONLINE" => some .online
  | "OFFLINE" => some .offline
  | "ERROR" => some .error
  | _ => none

theorem statusNamed_accountStatusString {stat : AccountStatus} (h : stat.Declared) :
    statusNamed (accountStatusString stat) = some stat := by
  cases stat with
  | undeclared n => exact absurd rfl (h n)
  | none | online | offline | error => rfl

theorem declared_none : AccountStatus.none.Declared := fun n h => by cases h

/-- The id in an event. -/
def Event.account (env : Env Text) (e : Event) : Option Uuid := e.params["account"]?.bind env.uuid.parse

/-- A status in an event. -/
def Event.status (e : Event) (key : String) : Option AccountStatus := e.params[key]?.bind statusNamed

/-- What an event makes of a replica. -/
def Replica.apply (env : Env Text) (m : Replica) (e : Event) : Replica :=
  match e.account env with
  | none => m
  | some id =>
    match e.event with
    | "account_create" => Function.update m id (some .none)
    | "account_delete" => Function.update m id none
    | "account_status_change" =>
      match e.status "new" with
      | some new => Function.update m id (some new)
      | none => m
    | _ => m

/-- The events folded in order. -/
def Replica.replay (env : Env Text) (m : Replica) (es : List Event) : Replica :=
  es.foldl (Replica.apply env) m

/-- A status change tells the status the replica had, and a different new one. -/
def Replica.Tells (env : Env Text) (m : Replica) (e : Event) : Prop :=
  e.event = "account_status_change" → ∃ id old new, e.account env = some id ∧
    e.status "old" = some old ∧ e.status "new" = some new ∧ m id = some old ∧ old ≠ new

/-- What the service knows itself. -/
def ledger (env : Env Text) (w : World Text) : Replica := fun id =>
  if Stored env w id then some (getStatus env w id) else none

/-! ## The calls of a run -/

/-- The event service delivers every event, on top of what `Dependable` says. -/
structure Delivering (env : Env Text) : Prop extends Dependable env where
  inited : env.eventManagerInited = true
  delivers : ∀ n event, env.emit n event = .sent

/-- The id generated for a new account is not in use. -/
def Op.Fresh (env : Env Text) (w : World Text) : Op → Prop
  | .create _ => ¬Stored env w (env.uuidGenerate w.tick)
  | _ => True

/-- Only declared statuses are set. -/
def Op.Declared : Op → Prop
  | .setStatus _ stat => stat.Declared
  | _ => True

/-- One call, with a fresh id if it is a creation, and how it ended. -/
def Op.Call (env : Env Text) (w : World Text) (call : Op × Option Bool) (w' : World Text) : Prop :=
  call.1.Fresh env w ∧ call.1.Declared ∧ call.1.Ends env w call.2 w'

/-- What the runs keep: the status table has declared statuses of stored accounts only. -/
structure Synced (env : Env Text) (w : World Text) : Prop extends Tidy env w where
  known : ∀ key ∈ w.statDict, ∃ id, key = env.uuidAsString id ∧ Stored env w id
  declared : ∀ (key : String) (stat : AccountStatus), w.statDict[key]? = some stat → stat.Declared

/-- The events from one state to the next account for the change of the ledger. -/
structure Accounts (env : Env Text) (w w' : World Text) (es : List Event) : Prop where
  events : w'.events = w.events ++ es
  replay : (ledger env w).replay env es = ledger env w'
  tells : Checked (Replica.apply env) (Replica.Tells env) (ledger env w) es

theorem Accounts.trans {w w₁ w₂ : World Text} {es es' : List Event} (h : Accounts env w w₁ es)
    (h' : Accounts env w₁ w₂ es') : Accounts env w w₂ (es ++ es') where
  events := by rw [h'.events, h.events, List.append_assoc]
  replay := by
    have hreplay := h.replay
    rw [Replica.replay] at hreplay
    rw [Replica.replay, List.foldl_append, hreplay]
    exact h'.replay
  tells := by
    have hreplay := h.replay
    rw [Replica.replay] at hreplay
    rw [checked_append, hreplay]
    exact ⟨h.tells, h'.tells⟩

/-! ## The ledger after each change -/

theorem getStatus_eq {w : World Text} {id : Uuid} :
    getStatus env w id = w.statDict[env.uuidAsString id]?.getD .none :=
  Std.ExtTreeMap.getD_eq_getD_getElem?

theorem ledger_congr {w w' : World Text} (h : rest w' = rest w) : ledger env w' = ledger env w := by
  have hstat : w'.statDict = w.statDict := congrArg (·.2.1) h
  funext id
  simp only [ledger, stored_congr (congrArg Prod.fst h), getStatus, hstat]

theorem Synced.congr {w w' : World Text} (h : Synced env w) (hfiles : w'.files = w.files)
    (hstat : w'.statDict = w.statDict) : Synced env w' := by
  refine ⟨h.toTidy.congr hfiles, fun key hkey => ?_, fun key stat hget => ?_⟩
  · rw [hstat] at hkey
    obtain ⟨id, rfl, hstored⟩ := h.known key hkey
    exact ⟨id, rfl, (stored_congr hfiles id).2 hstored⟩
  · rw [hstat] at hget
    exact h.declared key stat hget

theorem accounts_of_rest {w w' : World Text} (h : rest w' = rest w) : Accounts env w w' [] where
  events := (congrArg (·.2.2) h : w'.events = w.events).trans (List.append_nil _).symm
  replay := (ledger_congr h).symm
  tells := trivial

/-- The status of an account that is not stored is not in the table. -/
theorem Synced.getStatus_of_not_stored {w : World Text} (h : Synced env w) {id : Uuid}
    (hid : ¬Stored env w id) : w.statDict[env.uuidAsString id]? = none := by
  refine Std.ExtTreeMap.getElem?_eq_none fun hmem => ?_
  obtain ⟨id', he, hstored⟩ := h.known _ hmem
  rw [env.uuid.unparse_inj he] at hid
  exact hid hstored

theorem Synced.getStatus_declared {w : World Text} (h : Synced env w) (id : Uuid) :
    (getStatus env w id).Declared := by
  rw [getStatus_eq]
  cases hget : w.statDict[env.uuidAsString id]? with
  | none => exact declared_none
  | some stat => exact h.declared _ _ hget

/-- The ledger when one account is stored and its status set. -/
theorem ledger_of_set {w w' : World Text} {id : Uuid} {stat : AccountStatus}
    (hstored : ∀ id', Stored env w' id' ↔ id' = id ∨ Stored env w id')
    (hstat : w'.statDict = w.statDict.insert (env.uuidAsString id) stat) :
    ledger env w' = Function.update (ledger env w) id (some stat) := by
  funext id'
  by_cases hid : id' = id
  · subst hid
    rw [Function.update_self, ledger, if_pos ((hstored id').2 (.inl rfl)), getStatus_eq, hstat,
      Std.ExtTreeMap.getElem?_insert_self]
    rfl
  · have hne : env.uuidAsString id ≠ env.uuidAsString id' := fun he =>
      hid (env.uuid.unparse_inj he).symm
    rw [Function.update_of_ne hid]
    simp only [ledger, hstored id', hid, false_or, getStatus_eq, hstat,
      TreeMap.getElem?_insert_of_ne hne]

/-- The ledger when one account is removed. -/
theorem ledger_of_erase {w w' : World Text} {id : Uuid}
    (hstored : ∀ id', Stored env w' id' ↔ id' ≠ id ∧ Stored env w id')
    (hstat : w'.statDict = w.statDict.erase (env.uuidAsString id)) :
    ledger env w' = Function.update (ledger env w) id none := by
  funext id'
  by_cases hid : id' = id
  · subst hid
    rw [Function.update_self, ledger, if_neg]
    exact fun h => ((hstored id').1 h).1 rfl
  · have hne : env.uuidAsString id ≠ env.uuidAsString id' := fun he =>
      hid (env.uuid.unparse_inj he).symm
    rw [Function.update_of_ne hid]
    simp only [ledger, hstored id', getStatus_eq, hstat, TreeMap.getElem?_erase_of_ne hne, ne_eq,
      hid, not_false_eq_true, true_and]

theorem Synced.set {w w' : World Text} (h : Synced env w) (htidy : Tidy env w') {id : Uuid}
    {stat : AccountStatus} (hdecl : stat.Declared)
    (hstored : ∀ id', Stored env w' id' ↔ id' = id ∨ Stored env w id')
    (hstat : w'.statDict = w.statDict.insert (env.uuidAsString id) stat) : Synced env w' := by
  refine ⟨htidy, fun key hkey => ?_, fun key stat' hget => ?_⟩
  · rw [hstat, Std.ExtTreeMap.mem_insert, Std.LawfulEqCmp.compare_eq_iff_eq] at hkey
    rcases hkey with rfl | hkey
    · exact ⟨id, rfl, (hstored id).2 (.inl rfl)⟩
    · obtain ⟨id', rfl, hid'⟩ := h.known key hkey
      exact ⟨id', rfl, (hstored id').2 (.inr hid')⟩
  · rw [hstat] at hget
    by_cases hk : env.uuidAsString id = key
    · subst hk
      rw [Std.ExtTreeMap.getElem?_insert_self] at hget
      cases hget
      exact hdecl
    · rw [TreeMap.getElem?_insert_of_ne hk] at hget
      exact h.declared key stat' hget

theorem Synced.erase {w w' : World Text} (h : Synced env w) (htidy : Tidy env w') {id : Uuid}
    (hstored : ∀ id', Stored env w' id' ↔ id' ≠ id ∧ Stored env w id')
    (hstat : w'.statDict = w.statDict.erase (env.uuidAsString id)) : Synced env w' := by
  refine ⟨htidy, fun key hkey => ?_, fun key stat' hget => ?_⟩
  · rw [hstat, Std.ExtTreeMap.mem_erase] at hkey
    obtain ⟨id', rfl, hid'⟩ := h.known key hkey.2
    refine ⟨id', rfl, (hstored id').2 ⟨?_, hid'⟩⟩
    rintro rfl
    exact hkey.1 Std.ReflCmp.compare_self
  · rw [hstat, Std.ExtTreeMap.getElem?_erase] at hget
    split at hget
    · cases hget
    · exact h.declared key stat' hget

/-! ## The events -/

section Events

variable (w : World Text) (m : Replica) (act : AccountObject)

theorem account_announced {event : String} {params : StrStrMap}
    (h : params["account"]? = some (act.idAsString env)) :
    (w.announced env event params).account env = some act.id := by
  rw [Event.account, World.announced, h]
  exact env.uuid.parse_unparse act.id

theorem accountParams_account :
    (EventManager.accountParams env act)["account"]? = some (act.idAsString env) := by
  rw [EventManager.accountParams, TreeMap.getElem?_insert_of_ne (by decide),
    Std.ExtTreeMap.getElem?_insert_self]

theorem apply_create : m.apply env (w.announced env "account_create"
    (EventManager.accountParams env act)) = Function.update m act.id (some .none) := by
  rw [Replica.apply, account_announced w act (accountParams_account act)]
  rfl

theorem apply_modify : m.apply env (w.announced env "account_modify"
    (EventManager.accountParams env act)) = m := by
  rw [Replica.apply, account_announced w act (accountParams_account act)]
  rfl

theorem apply_delete : m.apply env (w.announced env "account_delete"
    (EventManager.accountParams env act)) = Function.update m act.id none := by
  rw [Replica.apply, account_announced w act (accountParams_account act)]
  rfl

variable (old new : AccountStatus)

/-- The event of a status change. -/
def statusEvent (env : Env Text) (w : World Text) (act : AccountObject) (old new : AccountStatus) :
    Event :=
  w.announced env "account_status_change"
    (((EventManager.accountParams env act).insert "old" (accountStatusString old)).insert "new"
      (accountStatusString new))

theorem account_statusEvent : (statusEvent env w act old new).account env = some act.id := by
  refine account_announced w act ?_
  rw [TreeMap.getElem?_insert_of_ne (by decide), TreeMap.getElem?_insert_of_ne (by decide),
    accountParams_account]

theorem old_statusEvent (h : old.Declared) :
    (statusEvent env w act old new).status "old" = some old := by
  rw [Event.status, statusEvent, World.announced, TreeMap.getElem?_insert_of_ne (by decide),
    Std.ExtTreeMap.getElem?_insert_self]
  exact statusNamed_accountStatusString h

theorem new_statusEvent (h : new.Declared) :
    (statusEvent env w act old new).status "new" = some new := by
  rw [Event.status, statusEvent, World.announced, Std.ExtTreeMap.getElem?_insert_self]
  exact statusNamed_accountStatusString h

theorem apply_statusEvent (h : new.Declared) :
    m.apply env (statusEvent env w act old new) = Function.update m act.id (some new) := by
  rw [Replica.apply, account_statusEvent]
  simp only [statusEvent, World.announced]
  have hnew : (statusEvent env w act old new).status "new" = some new :=
    new_statusEvent w act old new h
  rw [statusEvent, World.announced] at hnew
  rw [hnew]

end Events

/-- An event that is not a status change has nothing to tell. -/
theorem tells_of_ne {m : Replica} {e : Event} (h : e.event ≠ "account_status_change") :
    m.Tells env e := fun he => absurd he h

theorem published_events (hd : Delivering env) (w : World Text) (event : String)
    (params : StrStrMap) :
    (w.published env event params).events = w.events ++ [w.announced env event params] := by
  rw [World.events_published, if_pos (hd.delivers _ _)]

/-- A modification is told without effect on the ledger. -/
theorem accounts_of_modify (hd : Delivering env) (w : World Text) (act : AccountObject) :
    Accounts env w (w.published env "account_modify" (EventManager.accountParams env act))
      [w.announced env "account_modify" (EventManager.accountParams env act)] where
  events := published_events hd w _ _
  replay := by
    have hledger : ledger env (w.published env "account_modify"
        (EventManager.accountParams env act)) = ledger env w := by
      funext id
      simp only [ledger, stored_congr (w.files_published _ _), getStatus, World.statDict_published]
    rw [hledger]
    exact apply_modify w _ act
  tells := ⟨tells_of_ne (show "account_modify" ≠ _ by decide), trivial⟩

/-! ## A status set -/

theorem statusSet_accounts (hd : Delivering env) {w : World Text} (h : Synced env w)
    {act : AccountObject} {stat : AccountStatus} (hdecl : stat.Declared)
    (hstored : Stored env w act.id) : Synced env (statusSet env w act stat) ∧
      ∃ es, Accounts env w (statusSet env w act stat) es := by
  have hiff : ∀ id', Stored env (statusSet env w act stat) id' ↔ id' = act.id ∨ Stored env w id' := by
    intro id'
    rw [stored_congr (files_statusSet w act stat)]
    exact (or_iff_right_of_imp fun he => he ▸ hstored).symm
  have hstat : (statusSet env w act stat).statDict = w.statDict.insert (act.idAsString env) stat :=
    statDict_statusSet w act stat
  have hledger := ledger_of_set hiff hstat
  have hold : ledger env w act.id = some (getStatus env w act.id) := if_pos hstored
  refine ⟨h.set (h.toTidy.congr (files_statusSet w act stat)) hdecl hiff hstat, ?_⟩
  by_cases hne : w.statDict.getD (act.idAsString env) .none ≠ stat
  · have hset : statusSet env w act stat = (w.setStat (act.idAsString env) stat).published env
        "account_status_change" (((EventManager.accountParams env act).insert "old"
          (accountStatusString (w.statDict.getD (act.idAsString env) .none))).insert "new"
            (accountStatusString stat)) := if_pos hne
    refine ⟨[statusEvent env (w.setStat (act.idAsString env) stat) act
      (getStatus env w act.id) stat], ?_, ?_, fun _ => ?_, trivial⟩
    · rw [hset, published_events hd]
      rfl
    · rw [hledger]
      exact apply_statusEvent _ _ act _ stat hdecl
    · exact ⟨act.id, getStatus env w act.id, stat, account_statusEvent _ act _ _,
        old_statusEvent _ act _ _ (h.getStatus_declared act.id), new_statusEvent _ act _ _ hdecl,
        hold, hne⟩
  · have hset : statusSet env w act stat = w.setStat (act.idAsString env) stat := if_neg hne
    have hsame : getStatus env w act.id = stat := not_not.1 hne
    refine ⟨[], ?_, ?_, trivial⟩
    · rw [hset, World.events_setStat, List.append_nil]
    · rw [hledger, ← hsame, ← hold, Function.update_eq_self]
      rfl

/-! ## The operations -/

section Saved

variable {p : AccountParser} {act' : AccountObject} {w w₁ w₂ w' : World Text} {b : Bool}

/-- A creation that succeeded. -/
theorem SavedVia.created_accounts (h : SavedVia env p act' "account_create" w w₁ w₂ w' b)
    (hd : Delivering env) (hs : Synced env w) (hfresh : ¬Stored env w act'.id) :
    Synced env w' ∧ ∃ es, Accounts env w w' es := by
  obtain ⟨-, act, w₃, hrest₃, hid, rfl⟩ := h.status_eq hd.toDependable
  obtain ⟨w₄, account, hrest₄, haccount, rfl⟩ := h.announced
  have hstat₃ : w₃.statDict = w.statDict := (congrArg (·.2.1) hrest₃).trans h.statDict₁
  have hnone : w₃.statDict.getD (act.idAsString env) .none = .none := by
    rw [hstat₃, AccountObject.idAsString, hid, Std.ExtTreeMap.getD_eq_getD_getElem?,
      hs.getStatus_of_not_stored hfresh]
    rfl
  have hset : statusSet env w₃ act .none = w₃.setStat (act.idAsString env) .none :=
    if_neg (not_not.2 hnone)
  have hstat : (w₄.published env "account_create" (EventManager.accountParams env account)).statDict =
      w.statDict.insert (env.uuidAsString act'.id) .none := by
    rw [h.statDict₂, hset, World.statDict_setStat, AccountObject.idAsString, hid, hstat₃]
  have hiff := h.stored_iff hd.toDependable
  have htidy := h.tidy hd.toDependable hs.toTidy fun q hq hex => absurd ⟨q, hq, hex⟩ hfresh
  refine ⟨hs.set htidy declared_none hiff hstat, [w₄.announced env "account_create"
    (EventManager.accountParams env account)], ?_, ?_, tells_of_ne ?_, trivial⟩
  · have hevents : w₄.events = w.events := by
      have h₄ : w₄.events = (statusSet env w₃ act .none).events := congrArg (·.2.2) hrest₄
      have h₃ : w₃.events = w₁.events := congrArg (·.2.2) hrest₃
      have h₁ : w₁.events = w.events := congrArg (·.2.2) h.before
      rw [h₄, hset, World.events_setStat, h₃, h₁]
    rw [published_events hd, hevents]
  · rw [ledger_of_set hiff hstat, ← haccount]
    exact apply_create w₄ _ account
  · show "account_create" ≠ _
    decide

/-- A modification that succeeded. -/
theorem SavedVia.modified_accounts (h : SavedVia env p act' "account_modify" w w₁ w₂ w' b)
    (hd : Delivering env) (hs : Synced env w)
    (hex : (w.fileAt (p.accountPath env act'.id)).isSome) :
    Synced env w' ∧ ∃ es, Accounts env w w' es := by
  obtain ⟨-, act, w₃, hrest₃, hid, rfl⟩ := h.status_eq hd.toDependable
  obtain ⟨w₄, account, hrest₄, -, rfl⟩ := h.announced
  have hp := h.routed.mem
  -- The file is replaced where it was, so that the same accounts are stored.
  have hfiles₃ : w₃.files = (w₁.written env (p.accountPath env act'.id)
    (documentText env act')).files := congrArg Prod.fst hrest₃
  have hiff : ∀ id', Stored env w₃ id' ↔ Stored env w id' := by
    intro id'
    rw [stored_congr hfiles₃, stored_written hd.toDependable hp, stored_congr h.files₁]
    exact or_iff_right_of_imp fun he => he ▸ ⟨p, hp, hex⟩
  have hstat₃ : w₃.statDict = w.statDict := (congrArg (·.2.1) hrest₃).trans h.statDict₁
  have hledger : ledger env w₃ = ledger env w := by
    funext id'
    simp only [ledger, hiff id', getStatus, hstat₃]
  have htidy₃ : Tidy env w₃ := by
    refine Tidy.congr (Tidy.written (hs.toTidy.congr h.files₁) hd.toDependable hp h.registered ?_)
      hfiles₃
    intro q hq hex'
    rw [World.fileAt_congr h.files₁] at hex'
    exact hs.unique q hq p hp _ hex' hex
  have hs₃ : Synced env w₃ := by
    refine ⟨htidy₃, fun key hkey => ?_, fun key stat hget => ?_⟩
    · rw [hstat₃] at hkey
      obtain ⟨id', rfl, hid'⟩ := hs.known key hkey
      exact ⟨id', rfl, (hiff id').2 hid'⟩
    · rw [hstat₃] at hget
      exact hs.declared key stat hget
  have hacc₃ : Accounts env w w₃ [] := by
    refine ⟨?_, ?_, trivial⟩
    · have h₃ : w₃.events = w₁.events := congrArg (·.2.2) hrest₃
      have h₁ : w₁.events = w.events := congrArg (·.2.2) h.before
      rw [h₃, h₁, List.append_nil]
    · exact hledger.symm
  obtain ⟨hs₂, es, hacc₂⟩ := statusSet_accounts hd hs₃ declared_none
    (show Stored env w₃ act.id from hid ▸ (hiff act'.id).2 ⟨p, hp, hex⟩)
  exact ⟨hs₂.congr h.files₂ h.statDict₂, _, ((hacc₃.trans hacc₂).trans
    (accounts_of_rest hrest₄)).trans (accounts_of_modify hd w₄ account)⟩

end Saved

/-- A deletion that succeeded. -/
theorem delete_accounts (hd : Delivering env) {w w₁ : World Text} (hs : Synced env w)
    {p : AccountParser} {act : AccountObject} {id : Uuid} (hp : p ∈ env.parsers)
    (hex : (w.fileAt (p.accountPath env id)).isSome) (hactid : act.id = id)
    (hrest : rest w₁ = ((w.erased (p.accountPath env id)).files,
      w.statDict.erase (env.uuidAsString id), w.events)) :
    Synced env (w₁.published env "account_delete" (EventManager.accountParams env act)) ∧
      ∃ es, Accounts env w (w₁.published env "account_delete"
        (EventManager.accountParams env act)) es := by
  subst hactid
  have hfiles : (w₁.published env "account_delete" (EventManager.accountParams env act)).files =
      (w.erased (p.accountPath env act.id)).files :=
    (w₁.files_published _ _).trans (congrArg Prod.fst hrest)
  have hstat : (w₁.published env "account_delete" (EventManager.accountParams env act)).statDict =
      w.statDict.erase (env.uuidAsString act.id) :=
    (w₁.statDict_published _ _).trans (congrArg (·.2.1) hrest)
  have hevents : w₁.events = w.events := congrArg (·.2.2) hrest
  have hiff : ∀ id', Stored env (w₁.published env "account_delete"
      (EventManager.accountParams env act)) id' ↔ id' ≠ act.id ∧ Stored env w id' := by
    intro id'
    rw [stored_congr hfiles, stored_erased hs.toTidy hp hex]
  refine ⟨hs.erase ((hs.toTidy.erased _).congr hfiles) hiff hstat, [w₁.announced env
    "account_delete" (EventManager.accountParams env act)], ?_, ?_, tells_of_ne ?_, trivial⟩
  · rw [published_events hd, hevents]
  · rw [ledger_of_erase hiff hstat]
    exact apply_delete w₁ _ act
  · show "account_delete" ≠ _
    decide

/-- One call: what the runs keep goes on to hold, and the events account for what changed. -/
theorem call_accounts (hd : Delivering env) {w w' : World Text} {call : Op × Option Bool}
    (hs : Synced env w) (hcall : Op.Call env w call w') :
    Synced env w' ∧ ∃ es, Accounts env w w' es := by
  obtain ⟨op, result⟩ := call
  obtain ⟨hfresh, hdecl, hends⟩ := hcall
  have hsame : ∀ w'', rest w'' = rest w → Synced env w'' ∧ ∃ es, Accounts env w w'' es :=
    fun w'' h => ⟨hs.congr (congrArg Prod.fst h) (congrArg (·.2.1) h), [], accounts_of_rest h⟩
  cases hends with
  | raised hr => exact hsame _ (Op.rest_of_raised hd.inited hr)
  | returned hr =>
  cases op with
  | create act =>
    obtain ⟨act', hr⟩ := Op.run_create_ok.1 hr
    rcases create_cases hr with ⟨-, h⟩ | ⟨-, hid, p, w₁, w₂, sb, -, hvia⟩
    · exact hsame _ h
    · exact hvia.created_accounts hd hs (hid ▸ hfresh)
  | modify id act =>
    obtain ⟨act', hr⟩ := Op.run_modify_ok.1 hr
    rcases modify_cases hs.inner hr with ⟨-, h⟩ |
      ⟨-, hid, p, acc, oldAct, w₀, w₁, w₂, sb, hok, -, hvia⟩
    · exact hsame _ h
    · exact hvia.modified_accounts hd hs (hid ▸ isSome_of_read hok.read_eq)
  | delete id =>
    rcases delete_cases hs.inner hr with ⟨-, h⟩ | ⟨-, p, act, w₁, hfind, hread, hid, hrest, rfl⟩
    · exact hsame _ h
    · exact delete_accounts hd hs (findParser_some hfind).1 (isSome_of_read hread) hid hrest
  | setStatus id stat =>
    rcases setStatus_ok hr with ⟨-, -, errs, rfl⟩ | ⟨p, acc, act, w₁, rfl, hok, rfl⟩
    · exact hsame _ rfl
    have hp := (findParser_some hok.parser_eq).1
    have hactid : act.id = id := hok.id_eq.trans (hs.inner p hp id acc hok.read_eq)
    have hread : rest w₁ = rest w := hok.silent _ (lenient_rest env).toQuiet
    have hstored : Stored env w₁ act.id := by
      rw [stored_congr hok.silent.files, hactid]
      exact ⟨p, hp, isSome_of_read hok.read_eq⟩
    obtain ⟨hs', es, hacc⟩ := statusSet_accounts hd (hsame w₁ hread).1 hdecl hstored
    exact ⟨hs', _, (accounts_of_rest hread).trans hacc⟩

/-- Before the first call every stored account has the status `NONE`. -/
def startReplica (env : Env Text) (w : World Text) : Replica := fun id =>
  if Stored env w id then some .none else none

/-- After every run the events, folded over the accounts that were stored at the start, give the
stored accounts and their statuses; every status change tells the status it replaces; a call that
returns false publishes nothing; and the status table has no entry of an account that is not
stored. -/
theorem events_replay (env : Env Text) (hd : Delivering env) (w₀ w : World Text)
    (calls : List (Op × Option Bool)) (htidy : Tidy env w₀) (hempty : w₀.statDict = ∅)
    (hrun : Runs (Op.Call env) w₀ calls w) :
    (∃ es, w.events = w₀.events ++ es ∧
      (∀ id, (startReplica env w₀).replay env es id =
        if Stored env w id then some (getStatus env w id) else none) ∧
      Checked (Replica.apply env) (Replica.Tells env) (startReplica env w₀) es) ∧
    (∀ (op : Op) (w' : World Text), (op.run env).run w = .ok false w' → w'.events = w.events) ∧
    ∀ key ∈ w.statDict, ∃ id, key = env.uuidAsString id ∧ Stored env w id := by
  have hstart : ledger env w₀ = startReplica env w₀ := by
    funext id
    rw [ledger, startReplica, getStatus_eq, hempty, Std.ExtTreeMap.getElem?_empty]
    rfl
  have hs₀ : Synced env w₀ := by
    refine ⟨htidy, fun key hkey => ?_, fun key stat hget => ?_⟩
    · rw [hempty] at hkey
      exact absurd hkey Std.ExtTreeMap.not_mem_empty
    · rw [hempty, Std.ExtTreeMap.getElem?_empty] at hget
      cases hget
  have hend : Synced env w ∧ ∃ es, Accounts env w₀ w es := by
    refine hrun.invariant (P := fun w => Synced env w ∧ ∃ es, Accounts env w₀ w es) ?_
      ⟨hs₀, [], accounts_of_rest rfl⟩
    rintro s call t ⟨hs, es, hacc⟩ hcall
    obtain ⟨ht, es', hacc'⟩ := call_accounts hd hs hcall
    exact ⟨ht, es ++ es', hacc.trans hacc'⟩
  obtain ⟨hs, es, hacc⟩ := hend
  have hreplay := hacc.replay
  have htells := hacc.tells
  rw [hstart] at hreplay htells
  refine ⟨⟨es, hacc.events, fun id => congrFun hreplay id, htells⟩, fun op w' hr => ?_, hs.known⟩
  exact congrArg (·.2.2) (Op.rest_of_false hs.inner hr)

theorem reference_delivering : Delivering referenceEnv where
  writes _ _ _ := rfl
  unlinks _ _ := rfl
  inited := rfl
  delivers _ _ := rfl

/-- The state of the reference service after some calls on empty directories. -/
def referenceRun (ops : List Op) : World YamlText :=
  ops.foldl (fun w op => final ((op.run referenceEnv).run w)) { files := fun _ => ∅ }

theorem ends_referenceRun {ops : List Op} {op : Op} {b : Bool}
    (h : result? ((op.run referenceEnv).run (referenceRun ops)) = some b) :
    op.Ends referenceEnv (referenceRun ops) (some b) (referenceRun (ops ++ [op])) := by
  rw [referenceRun, referenceRun, List.foldl_append]
  exact .returned (eq_ok_of_result? h)

/-- An account is created and goes online. -/
theorem events_replay_reference : ∃ es,
    (referenceRun [.create { title := "Mail" }, .setStatus 1 .online]).events = es ∧
      (startReplica referenceEnv (referenceRun [])).replay referenceEnv es 1 = some .online := by
  have hcreate : (Op.create { title := "Mail" }).Ends referenceEnv (referenceRun []) (some true)
      (referenceRun ([] ++ [.create { title := "Mail" }])) := ends_referenceRun (by decide +kernel)
  have hset : (Op.setStatus 1 .online).Ends referenceEnv
      (referenceRun [.create { title := "Mail" }]) (some true)
      (referenceRun ([.create { title := "Mail" }] ++ [.setStatus 1 .online])) :=
    ends_referenceRun (by decide +kernel)
  have hfresh : ¬Stored referenceEnv (referenceRun []) 1 := by decide +kernel
  have hdecl : AccountStatus.online.Declared := fun n h => by cases h
  have hrun : Runs (Op.Call referenceEnv) (referenceRun [])
      [(.create { title := "Mail" }, some true), (.setStatus 1 .online, some true)]
      (referenceRun [.create { title := "Mail" }, .setStatus 1 .online]) :=
    .snoc (.snoc (.nil _) ⟨hfresh, trivial, hcreate⟩) ⟨trivial, hdecl, hset⟩
  obtain ⟨⟨es, hes, hreplay, -⟩, -, -⟩ := events_replay referenceEnv reference_delivering
    (referenceRun []) _ _ (tidy_of_empty fun _ => rfl) rfl hrun
  refine ⟨es, hes, ?_⟩
  rw [hreplay 1]
  decide +kernel

end PxAccounts
