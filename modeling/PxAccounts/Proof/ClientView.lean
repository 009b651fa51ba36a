import PxAccounts.Proof.ClientSession

/-!
# What clients can rely on

Whatever else clients ask for, and however often the service is restarted: an account is shown as it
was saved until it is changed, a status is answered until it is forgotten, and an account that was
removed does not come back.  All this rests on the conditions under which a session is a run of the
book.
-/

namespace PxAccounts

open Effect Run AccountManager

variable {Text : Type} {env : Env Text} {custom : Set String} {limit : ℕ} {b b' : Book}
  {o : Occurrence Text} {id : Uuid} {entry : AccountEntry} {stat : AccountStatus}

theorem uuid_eq_of_string {id' : Uuid} (h : some (env.uuidAsString id') = some (env.uuidAsString id)) :
    id' = id :=
  env.uuid.unparse_inj (Option.some.inj h)

/-- What a change of another account leaves. -/
theorem update_of_other {α : Type} {f : Uuid → α} {id' : Uuid} {changed old : α} (hne : id ≠ id')
    (h : f id = old) : Function.update f id' changed id = old :=
  (Function.update_of_ne hne _ _).trans h

/-! ## Saved accounts -/

/-- The calls of plugins that were made for it, where they are told. -/
def Occurrence.calls : Occurrence Text → List (Call Text)
  | .request _ _ calls => calls
  | .restart => []

/-- The account `act` was saved with the id. -/
inductive Occurrence.Saves (env : Env Text) (id : Uuid) (act : AccountObject) : Occurrence Text → Prop
  | add {rpc account : RPCAccount} {warnings : StringList} {calls : List (Call Text)} :
      RPCHandler.rpc2act env rpc = some act → account.id = some (env.uuidAsString id) →
      Saves env id act (.request (.add (some rpc)) (.replied (.saved true account warnings)) calls)
  | edit {strId : Option String} {rpc account : RPCAccount} {warnings : StringList}
      {calls : List (Call Text)} : requestedId env strId = some id →
      RPCHandler.rpc2act env rpc = some act →
      Saves env id act
        (.request (.edit strId (some rpc)) (.replied (.saved true account warnings)) calls)

/-- The account of the id was edited or removed. -/
inductive Occurrence.Changes (env : Env Text) (id : Uuid) : Occurrence Text → Prop
  | edit {strId : Option String} {rpc : Option RPCAccount} {account : RPCAccount}
      {warnings : StringList} {calls : List (Call Text)} : requestedId env strId = some id →
      Changes env id (.request (.edit strId rpc) (.replied (.saved true account warnings)) calls)
  | remove {strId : Option String} {calls : List (Call Text)} : requestedId env strId = some id →
      Changes env id (.request (.remove strId) (.replied (.result true)) calls)

/-- The client is told of the account of the id as of this entry. -/
def Occurrence.Reflects (env : Env Text) (id : Uuid) (entry : AccountEntry) : Occurrence Text → Prop
  | .request (.get strId) outcome _ => requestedId env strId = some id →
      ∃ account, outcome = .replied (.account account) ∧
        account.id = some (env.uuidAsString id) ∧ account.entry = entry
  | .request (.list providerFilter serviceFilter) outcome _ =>
      ∃ infos, outcome = .replied (.accounts infos) ∧
        ({ id := env.uuidAsString id, title := entry.title } ∈ infos ↔
          entry.Passes ((providerFilter.getD []).map cStr) ((serviceFilter.getD []).map cStr))
  | .request (.setStatus strId _) outcome _ => requestedId env strId = some id →
      outcome = .replied (.result true)
  | _ => True

theorem Book.Step.reflects (h : Book.Step env custom b o b') (hentry : b.accounts id = some entry) :
    o.Reflects env id entry := by
  cases h with
  | listed hlists =>
    refine ⟨_, rfl, (hlists.infos _).trans ⟨?_, fun hpasses => ⟨id, entry, hentry, hpasses, rfl⟩⟩⟩
    rintro ⟨id', entry', hentry', hpasses, hinfo⟩
    cases uuid_eq_of_string (congrArg (fun info => some info.id) hinfo)
    cases hentry.symm.trans hentry'
    exact hpasses
  | got hid hstr hgot =>
    intro hid'
    cases hid.symm.trans hid'
    exact ⟨_, rfl, hstr, Option.some.inj (hgot.symm.trans hentry)⟩
  | statusSet => exact fun _ => rfl
  | @refused req calls hmay =>
    have hnone : ¬b.accounts id = none := fun hnone => nomatch hentry.symm.trans hnone
    cases req with
    | list => exact hmay.elim
    | get strId => exact fun hid => absurd (hmay id hid) hnone
    | setStatus strId stat => exact fun hid => absurd (hmay id hid) hnone
    | _ => trivial
  | _ => trivial

/-- Only an edit or a removal of the account itself changes its entry. -/
theorem Book.Step.keeps (h : Book.Step env custom b o b') (hentry : b.accounts id = some entry)
    (hquiet : ¬o.Changes env id) : b'.accounts id = some entry := by
  cases h with
  | added _ _ hnone =>
    refine update_of_other ?_ hentry
    rintro rfl
    cases hentry.symm.trans hnone
  | edited hid =>
    refine update_of_other ?_ hentry
    rintro rfl
    exact hquiet (.edit hid)
  | removed hid =>
    refine update_of_other ?_ hentry
    rintro rfl
    exact hquiet (.remove hid)
  | restarted hrestarts =>
    rcases hrestarts.accounts id with hsame | ⟨hnone, -⟩
    · exact hsame.trans hentry
    · cases hentry.symm.trans hnone
  | _ => exact hentry

theorem Book.Step.saves {act : AccountObject} (h : Book.Step env custom b o b')
    (hsaves : o.Saves env id act) :
    ∃ entry, b'.accounts id = some entry ∧ entry.SavedBy env custom act o.calls := by
  cases hsaves with
  | add hact hstr =>
    cases h with
    | added hact' _ _ hsaved hstr' =>
      cases hact.symm.trans hact'
      cases uuid_eq_of_string (hstr'.symm.trans hstr)
      exact ⟨_, Function.update_self _ _ _, hsaved⟩
  | edit hid hact =>
    cases h with
    | edited hid' hact' _ hsaved =>
      cases hact.symm.trans hact'
      cases hid.symm.trans hid'
      exact ⟨_, Function.update_self _ _ _, hsaved⟩

/-- Once a client has saved an account, every later request shows it as it was saved, through restarts
and whatever else is asked for, until the account is edited or removed. -/
theorem saved_until_changed (env : Env Text) (custom : Set String) (w₀ w : World Text)
    (before after : List (Occurrence Text)) (saving : Occurrence Text) (id : Uuid) (act : AccountObject)
    (hkeeping : BookKeeping env w.tick) (hserved : Served custom w)
    (hstart : Orderly env custom w.tick w₀) (hrun : Runs (Occurs env) w₀ (before ++ saving :: after) w)
    (hsaves : saving.Saves env id act) (hquiet : ∀ o ∈ after, ¬o.Changes env id) :
    ∃ entry : AccountEntry, entry.SavedBy env custom act saving.calls ∧
      ∀ o ∈ after, o.Reflects env id entry := by
  have hbook := book_of_run hkeeping hstart hrun hserved le_rfl
  obtain ⟨b₁, b₂, -, hsaving, hafter⟩ := hbook.split_cons
  obtain ⟨entry, hentry, hsaved⟩ := hsaving.saves hsaves
  have hreflects := hafter.labels (P := fun b => b.accounts id = some entry)
    (fun b o b' hq hb hstep => hstep.keeps hb hq) (fun b o b' hb hstep => hstep.reflects hb) hquiet
    hentry
  exact ⟨entry, hsaved, hreflects.2⟩

theorem occurs_of_result? {w : World Text} {req : Request} {reply : Reply}
    (h : result? ((RPCHandler.handle env req).run w) = some reply) :
    Occurs env w (.request req (.replied reply)
      (w.newCalls (final ((RPCHandler.handle env req).run w))))
      (final ((RPCHandler.handle env req).run w)) := by
  refine .request ?_
  cases hr : (RPCHandler.handle env req).run w with
  | ok reply' w' =>
    rw [hr] at h
    cases h
    exact .replied
  | error e w' =>
    rw [hr] at h
    cases h

/-- The reply of a save that is confirmed with this id. -/
def Reply.savedAs (strId : String) : Reply → Bool
  | .saved true acc _ => acc.id == some strId
  | _ => false

theorem saved_of_any {r : Option Reply} {strId : String} (h : r.any (Reply.savedAs strId)) :
    ∃ account warnings, account.id = some strId ∧ r = some (.saved true account warnings) := by
  obtain ⟨reply, hr, h⟩ := (Option.any_eq_true _ _).1 h
  unfold Reply.savedAs at h
  split at h
  · exact ⟨_, _, by simpa using h, hr⟩
  · cases h

/-- An account that is read after a restart. -/
theorem saved_until_changed_mail : ∃ (saving : Occurrence YamlText) (act : AccountObject)
    (after : List (Occurrence YamlText)), saving.Saves recordingEnv 1 act ∧ after.length = 2 ∧
    ∃ entry : AccountEntry, entry.SavedBy recordingEnv {"mail"} act saving.calls ∧
      ∀ o ∈ after, o.Reflects recordingEnv 1 entry := by
  obtain ⟨act, hact⟩ : ∃ act, RPCHandler.rpc2act recordingEnv mailRequest = some act :=
    Option.isSome_iff_exists.1 (by decide +kernel)
  obtain ⟨account, warnings, hstr, hreply⟩ : ∃ account warnings,
      account.id = some (recordingEnv.uuidAsString 1) ∧ result? ((RPCHandler.handle recordingEnv
        (.add (some mailRequest))).run { files := fun _ => ∅ }) =
          some (.saved true account warnings) := saved_of_any (by decide +kernel)
  obtain ⟨got, hget⟩ := ends_mailGot
  have hrun : Runs (Occurs recordingEnv) { files := fun _ => ∅ } _ mailGot :=
    ((Runs.single (occurs_of_result? hreply)).snoc occurs_mailRestarted).snoc (.request hget)
  refine ⟨_, act, _, .add hact hstr, rfl, saved_until_changed recordingEnv {"mail"}
    { files := fun _ => ∅ } mailGot [] [.restart, .request _ _ _] _ 1 act
    bookKeeping_mailGot served_mailGot (orderly_of_empty fun _ => rfl) hrun (.add hact hstr) ?_⟩
  rintro o hmem hchanges
  simp only [List.mem_cons, List.not_mem_nil, or_false] at hmem
  rcases hmem with rfl | rfl <;> cases hchanges

/-! ## Statuses -/

/-- The status of the id was set, or forgotten. -/
inductive Occurrence.Resets (env : Env Text) (id : Uuid) : Occurrence Text → Prop
  | set {strId : Option String} {stat : AccountStatus} {calls : List (Call Text)} :
      requestedId env strId = some id →
      Resets env id (.request (.setStatus strId stat) (.replied (.result true)) calls)
  | change {o : Occurrence Text} : o.Changes env id → Resets env id o
  | restart : Resets env id .restart

/-- The client is told that this is the status of the id. -/
def Occurrence.Answers (env : Env Text) (id : Uuid) (stat : AccountStatus) : Occurrence Text → Prop
  | .request (.getStatus strId) outcome _ => requestedId env strId = some id →
      outcome = .replied (.status stat)
  | _ => True

theorem Book.Step.answers (h : Book.Step env custom b o b') (hstat : b.status id = stat) :
    o.Answers env id stat := by
  cases h with
  | statusGot hid =>
    intro hid'
    cases hid.symm.trans hid'
    rw [hstat]
  | @refused req calls hmay =>
    cases req with
    | getStatus strId => exact fun hid => nomatch hid.symm.trans hmay
    | _ => trivial
  | _ => trivial

/-- The status of an account that is in the book stays, until it is reset. -/
theorem Book.Step.keeps_status (h : Book.Step env custom b o b') (hsome : (b.accounts id).isSome)
    (hstat : b.status id = stat) (hquiet : ¬o.Resets env id) : b'.status id = stat := by
  cases h with
  | statusSet hid =>
    refine update_of_other ?_ hstat
    rintro rfl
    exact hquiet (.set hid)
  | added _ _ hnone =>
    refine update_of_other ?_ hstat
    rintro rfl
    exact Option.not_isSome_iff_eq_none.2 hnone hsome
  | edited hid =>
    refine update_of_other ?_ hstat
    rintro rfl
    exact hquiet (.change (.edit hid))
  | removed hid =>
    refine update_of_other ?_ hstat
    rintro rfl
    exact hquiet (.change (.remove hid))
  | restarted => exact absurd .restart hquiet
  | _ => exact hstat

/-- Once a client has set a status, every later request for it is answered with it, until it is set
again, the account is edited or removed, or the service is restarted. -/
theorem status_until_reset (env : Env Text) (custom : Set String) (w₀ w : World Text)
    (before after : List (Occurrence Text)) (strId : Option String) (id : Uuid) (stat : AccountStatus)
    (calls : List (Call Text)) (hkeeping : BookKeeping env w.tick) (hserved : Served custom w)
    (hstart : Orderly env custom w.tick w₀) (hid : requestedId env strId = some id)
    (hrun : Runs (Occurs env) w₀ (before ++
      .request (.setStatus strId stat) (.replied (.result true)) calls :: after) w)
    (hquiet : ∀ o ∈ after, ¬o.Resets env id) : ∀ o ∈ after, o.Answers env id stat := by
  have hbook := book_of_run hkeeping hstart hrun hserved le_rfl
  obtain ⟨b₁, b₂, -, hset, hafter⟩ := hbook.split_cons
  have hstatus : (b₂.accounts id).isSome ∧ b₂.status id = stat := by
    cases hset with
    | statusSet hid' hsome =>
      cases hid.symm.trans hid'
      exact ⟨hsome, Function.update_self _ _ _⟩
  refine (hafter.labels (P := fun b => (b.accounts id).isSome ∧ b.status id = stat) ?_ ?_ hquiet
    hstatus).2
  · rintro b o b' hq ⟨hsome, hstat⟩ hstep
    refine ⟨?_, hstep.keeps_status hsome hstat hq⟩
    obtain ⟨entry, hentry⟩ := Option.isSome_iff_exists.1 hsome
    rw [hstep.keeps hentry fun hchanges => hq (.change hchanges)]
    rfl
  · exact fun b o b' hb hstep => hstep.answers hb.2

/-- What a request makes of the service with the plugin that keeps the parameters. -/
def mailAfter (w : World YamlText) (req : Request) : World YamlText :=
  final ((RPCHandler.handle recordingEnv req).run w)

/-- The service after a client has set the status of the account. -/
def mailStatusSet : World YamlText :=
  mailAfter mailAdded (.setStatus (some (recordingEnv.uuidAsString 1)) .online)

/-- The status that was set is answered. -/
theorem status_until_reset_mail : ∃ (after : List (Occurrence YamlText)), after.length = 1 ∧
    ∀ o ∈ after, o.Answers recordingEnv 1 .online := by
  have htick :
      (mailAfter mailStatusSet (.getStatus (some (recordingEnv.uuidAsString 1)))).tick ≤ 100 := by
    decide +kernel
  have hserved : Served {"mail"}
      (mailAfter mailStatusSet (.getStatus (some (recordingEnv.uuidAsString 1)))) :=
    ⟨by decide +kernel⟩
  obtain ⟨added, hadd⟩ := ends_mailAdded
  have hset : result? ((RPCHandler.handle recordingEnv (.setStatus (some (recordingEnv.uuidAsString 1))
      .online)).run mailAdded) = some (.result true) := by decide +kernel
  have hgot : result? ((RPCHandler.handle recordingEnv
      (.getStatus (some (recordingEnv.uuidAsString 1)))).run mailStatusSet) =
        some (.status .online) := by decide +kernel
  have hrun : Runs (Occurs recordingEnv) { files := fun _ => ∅ } _
      (mailAfter mailStatusSet (.getStatus (some (recordingEnv.uuidAsString 1)))) :=
    ((Runs.single (.request hadd)).snoc (occurs_of_result? hset)).snoc (occurs_of_result? hgot)
  refine ⟨_, rfl, status_until_reset recordingEnv {"mail"} { files := fun _ => ∅ } _ [.request _ _ _]
    [.request _ _ _] (some (recordingEnv.uuidAsString 1)) 1 .online _ (bookKeeping_recording htick)
    hserved (orderly_of_empty fun _ => rfl) (by decide +kernel) hrun ?_⟩
  rintro o hmem hresets
  cases List.mem_singleton.1 hmem
  cases hresets with
  | change hchanges => cases hchanges

/-! ## Removed accounts -/

/-- The client is told that there is no account of the id. -/
def Occurrence.Denies (env : Env Text) (id : Uuid) : Occurrence Text → Prop
  | .request (.list _ _) outcome _ => ∃ infos, outcome = .replied (.accounts infos) ∧
      ∀ info ∈ infos, info.id ≠ env.uuidAsString id
  | .request (.get strId) outcome _ => requestedId env strId = some id → outcome = .refused
  | .request (.setStatus strId _) outcome _ => requestedId env strId = some id → outcome = .refused
  | .request (.getStatus strId) outcome _ => requestedId env strId = some id →
      outcome = .replied (.status .none)
  | .request (.add _) outcome _ => ∀ res account warnings,
      outcome = .replied (.saved res account warnings) → account.id ≠ some (env.uuidAsString id)
  | .request (.edit strId _) outcome _ => requestedId env strId = some id → outcome = .refused
  | .request (.remove strId) outcome _ => requestedId env strId = some id → outcome = .refused
  | .restart => True

/-- The book has nothing of the id. -/
structure Book.Lacks (b : Book) (id : Uuid) : Prop where
  account : b.accounts id = none
  status : b.status id = .none

theorem Book.Lacks.not_isSome (h : b.Lacks id) {id' : Uuid} (hsome : (b.accounts id').isSome) :
    id' ≠ id := by
  rintro rfl
  exact Option.not_isSome_iff_eq_none.2 h.account hsome

theorem Book.Lacks.not_named (h : b.Lacks id) {strId : Option String} {id' : Uuid}
    (hid : requestedId env strId = some id') (hsome : (b.accounts id').isSome) :
    requestedId env strId ≠ some id := by
  rw [hid]
  exact fun heq => h.not_isSome hsome (Option.some.inj heq)

theorem Book.Step.denies (h : Book.Step env custom b o b') (hlacks : b.Lacks id)
    (hlacks' : b'.Lacks id) : o.Denies env id := by
  cases h with
  | listed hlists =>
    refine ⟨_, rfl, fun info hmem heq => ?_⟩
    obtain ⟨id', entry', hentry', -, rfl⟩ := (hlists.infos info).1 hmem
    exact hlacks.not_isSome (hentry' ▸ rfl) (env.uuid.unparse_inj heq)
  | got hid _ hgot => exact fun hid' => absurd hid' (hlacks.not_named hid (hgot ▸ rfl))
  | statusGot hid =>
    intro hid'
    cases hid.symm.trans hid'
    rw [hlacks.status]
  | statusSet hid hsome => exact fun hid' => absurd hid' (hlacks.not_named hid hsome)
  | added _ _ _ _ hstr =>
    rintro _ _ _ ⟨⟩ heq
    cases uuid_eq_of_string (hstr.symm.trans heq)
    exact nomatch (Function.update_self _ _ _).symm.trans hlacks'.account
  | edited hid _ hsome => exact fun hid' => absurd hid' (hlacks.not_named hid hsome)
  | removed hid hsome => exact fun hid' => absurd hid' (hlacks.not_named hid hsome)
  | @refused req calls hmay =>
    cases req with
    | list => exact hmay.elim
    | getStatus strId => exact fun hid => nomatch hid.symm.trans hmay
    | add account => exact nofun
    | _ => exact fun _ => rfl
  | restarted => trivial

theorem Book.Step.lacks (h : Book.Step env custom b o b') (hlacks : b.Lacks id)
    (haccount : b'.accounts id = none) : b'.Lacks id := by
  refine ⟨haccount, ?_⟩
  cases h with
  | statusSet hid hsome =>
    exact update_of_other (hlacks.not_isSome hsome).symm hlacks.status
  | added =>
    exact update_of_other (fun heq => nomatch (heq ▸ haccount).symm.trans
      (Function.update_self _ _ _)) hlacks.status
  | edited hid _ hsome =>
    exact update_of_other (hlacks.not_isSome hsome).symm hlacks.status
  | removed hid hsome =>
    exact update_of_other (hlacks.not_isSome hsome).symm hlacks.status
  | restarted hrestarts => exact congrFun hrestarts.status id
  | _ => exact hlacks.status

/-- The book has nothing of an id that is not generated any more. -/
structure Retired (env : Env Text) (limit : ℕ) (id : Uuid) (w : World Text) : Prop where
  lacks : (bookAt env w).Lacks id
  spent : ∀ n, w.tick ≤ n → n < limit → env.uuidGenerate n ≠ id

theorem Retired.moves {w w' : World Text} (h : Retired env limit id w)
    (hmoves : Moves env custom limit w o w') : Retired env limit id w' ∧ o.Denies env id := by
  have haccount : (bookAt env w').accounts id = none := by
    rw [← Option.not_isSome_iff_eq_none]
    intro hsome
    rcases hmoves.newIds id hsome with hold | ⟨n, hn, hlt, hgen⟩
    · exact Option.not_isSome_iff_eq_none.2 h.lacks.account hold
    · exact h.spent n hn (hlt.trans_le hmoves.within) hgen.symm
  have hlacks := hmoves.step.lacks h.lacks haccount
  exact ⟨⟨hlacks, fun n hn => h.spent n (hmoves.later.trans hn)⟩, hmoves.step.denies h.lacks hlacks⟩

/-- A removal that succeeds retires the id. -/
theorem retired_of_removed {w w' : World Text} {strId : Option String} {calls : List (Call Text)}
    (hid : requestedId env strId = some id)
    (hmoves : Moves env custom limit w (.request (.remove strId) (.replied (.result true)) calls) w') :
    Retired env limit id w' := by
  have hstep := hmoves.step
  generalize hb : bookAt env w' = b' at hstep
  cases hstep with
  | removed hid' hsome =>
    cases hid.symm.trans hid'
    constructor
    · rw [hb]
      exact ⟨Function.update_self _ _ _, Function.update_self _ _ _⟩
    · rintro n hn hlt rfl
      refine hmoves.before.unused n (hmoves.later.trans hn) hlt (stored_of_accountAt ?_)
      rw [← Option.isSome_map]
      exact hsome

/-- Once a client has removed an account, no later request brings it back: its id is neither listed
nor found nor given to another account, through restarts and whatever else is asked for. -/
theorem removed_for_good (env : Env Text) (custom : Set String) (w₀ w : World Text)
    (before after : List (Occurrence Text)) (strId : Option String) (id : Uuid)
    (calls : List (Call Text)) (hkeeping : BookKeeping env w.tick) (hserved : Served custom w)
    (hstart : Orderly env custom w.tick w₀) (hid : requestedId env strId = some id)
    (hrun : Runs (Occurs env) w₀
      (before ++ .request (.remove strId) (.replied (.result true)) calls :: after) w) :
    ∀ o ∈ after, o.Denies env id := by
  obtain ⟨hmoves, -⟩ := moves_of_run hkeeping hstart hrun hserved le_rfl
  obtain ⟨w₁, w₂, -, hremoved, hafter⟩ := hmoves.split_cons
  exact (hafter.labels (Q := fun _ => True) (fun w o w' _ hretired hstep => (hretired.moves hstep).1)
    (fun w o w' hretired hstep => (hretired.moves hstep).2) (fun _ _ => trivial)
    (retired_of_removed hid hremoved)).2

/-- The service after a client has removed the account. -/
def mailRemoved : World YamlText :=
  mailAfter mailAdded (.remove (some (recordingEnv.uuidAsString 1)))

/-- It was started again then. -/
def mailEmptied : World YamlText :=
  final ((createAutoInitializingAccounts recordingEnv).run mailRemoved.restarted)

/-- The account is not listed after a restart. -/
theorem removed_for_good_mail : ∃ (after : List (Occurrence YamlText)), after.length = 2 ∧
    ∀ o ∈ after, o.Denies recordingEnv 1 := by
  have htick : (mailAfter mailEmptied (.list none none)).tick ≤ 100 := by decide +kernel
  have hserved : Served {"mail"} (mailAfter mailEmptied (.list none none)) := ⟨by decide +kernel⟩
  obtain ⟨added, hadd⟩ := ends_mailAdded
  have hremoved : result? ((RPCHandler.handle recordingEnv
      (.remove (some (recordingEnv.uuidAsString 1)))).run mailAdded) = some (.result true) := by
    decide +kernel
  have hstart : Occurs recordingEnv mailRemoved .restart mailEmptied := .restart
  have hlisted : result? ((RPCHandler.handle recordingEnv (.list none none)).run mailEmptied) =
      some (.accounts []) := by decide +kernel
  have hrun : Runs (Occurs recordingEnv) { files := fun _ => ∅ } _
      (mailAfter mailEmptied (.list none none)) :=
    (((Runs.single (.request hadd)).snoc (occurs_of_result? hremoved)).snoc hstart).snoc
      (occurs_of_result? hlisted)
  exact ⟨_, rfl, removed_for_good recordingEnv {"mail"} { files := fun _ => ∅ } _ [.request _ _ _]
    [.restart, .request _ _ _] (some (recordingEnv.uuidAsString 1)) 1 _ (bookKeeping_recording htick)
    hserved (orderly_of_empty fun _ => rfl) (by decide +kernel) hrun⟩

end PxAccounts
