import PxAccounts.Proof.RecordIds

/-!
# Warnings

The reply to a request that saves an account carries the error list of the account manager.  What
the plugins report when they authenticate is kept in the services, and reaches that list only when
the account is refused.
-/

namespace PxAccounts

open Effect AccountManager

variable {Text : Type} {env : Env Text}

/-- The messages that come with an answer of `authenticate`. -/
def Call.messages : Call Text → StringList
  | .authenticate _ _ (.returned aResult) => aResult.errors
  | _ => []

/-- The messages of the plugins on the way from one state to the other. -/
def pluginMessages (w w' : World Text) : StringList := (w.newCalls w').flatMap Call.messages

/-- What reading an account adds to the error list. -/
def readErrors (env : Env Text) (w : World Text) (id : Uuid) : StringList :=
  match findParser env w id false with
  | none => ["Could not find suitable parser."]
  | some parser =>
    match parser.read env w id {} with
    | .error errs => ("Error on reading account file: '" ++ env.uuidAsString id ++ "'.") :: errs
    | .ok _ => []

/-- The id whose status is set when the request has saved its account: that of the new account, or
the one in the file of the account that is edited. -/
def statusId (env : Env Text) (w : World Text) : Request → Uuid
  | .edit id _ =>
    let accountId := (env.uuidFromString (cStr (id.getD ""))).2
    match findParser env w accountId false with
    | none => accountId
    | some parser =>
      match parser.read env w accountId {} with
      | .error _ => accountId
      | .ok acc => acc.id
  | _ => env.uuidGenerate w.tick

/-! ## The error list of the manager -/

/-- What neither the verification of an account nor the publication of an event changes. -/
def filesAndErrors (w : World Text) : (String → StrMap Text) × StringList := (w.files, w.errors)

theorem lenient_filesAndErrors (env : Env Text) :
    AccountObject.Lenient env (Frame.eqOn filesAndErrors) where
  record _ _ _ := rfl
  log _ _ := rfl
  setSecret _ _ := rfl
  deleteSecret _ _ := rfl
  write _ _ _ _ := rfl
  remove _ _ _ := rfl

theorem errors_of_silent {w w' : World Text} (h : World.Silent w w') : w'.errors = w.errors :=
  (congrArg World.errors h.content_eq : w'.content.errors = w.content.errors)

@[simp] theorem errors_published (w : World Text) (event : String) (params : StrStrMap) :
    (w.published env event params).errors = w.errors := by
  rw [World.published_eq]
  rfl

@[simp] theorem errors_statusSet (w : World Text) (act : AccountObject) (stat : AccountStatus) :
    (statusSet env w act stat).errors = w.errors := by
  rw [statusSet]
  split
  · rw [errors_published]
    rfl
  · rfl

theorem readErrors_congr {w w' : World Text} {id : Uuid} (h : w'.files = w.files) :
    readErrors env w' id = readErrors env w id := by
  rw [readErrors, readErrors, findParser_of_files h]
  cases findParser env w id false with
  | none => rfl
  | some parser =>
    dsimp only
    rw [AccountParser.read_congr (World.fileAt_congr h _)]

theorem readErrors_of_readOk {w w' : World Text} {id : Uuid} {parser : AccountParser}
    {acc act : AccountObject} (h : ReadOk env w id parser acc act w') :
    readErrors env w id = [] := by
  rw [readErrors, h.parser_eq]
  dsimp only
  rw [h.read_eq]

theorem errors_of_readAccount {id : Uuid} {r : Option AccountObject} {w w' : World Text}
    (hr : (readAccount env id).run w = .ok r w') :
    w'.errors = w.errors ++ readErrors env w id := by
  rcases readAccount_ok hr with ⟨rfl, -, -⟩ | ⟨parser, acc, act, rfl, hok⟩
  · simp only [readAccount] at hr
    obtain ⟨w₀, w₁, hget, hr⟩ := run_bind_ok.1 hr
    cases hget
    rw [readErrors]
    cases hfind : findParser env w id false with
    | none =>
      simp only [hfind, addError, run_bind_ok, addErrorList_ok, run_pure_ok] at hr
      obtain ⟨_, _, rfl, -, rfl⟩ := hr
      rfl
    | some parser =>
      simp only [hfind] at hr
      obtain ⟨w₀, w₁, hget, hr⟩ := run_bind_ok.1 hr
      cases hget
      dsimp only
      cases hread : parser.read env w id {} with
      | error errs =>
        simp only [hread, addError, run_bind_ok, addErrorList_ok, run_pure_ok] at hr
        obtain ⟨_, _, rfl, _, _, rfl, -, rfl⟩ := hr
        rw [World.addErrors_addErrors]
        rfl
      | ok acc =>
        simp only [hread, run_bind_ok, run_pure_ok] at hr
        obtain ⟨_, _, -, hnone, -⟩ := hr
        cases hnone
  · rw [readErrors_of_readOk hok, List.append_nil, errors_of_silent hok.silent]

theorem errors_of_setStatus {id : Uuid} {stat : AccountStatus} {b : Bool} {w w' : World Text}
    (hr : (setStatus env id stat).run w = .ok b w') :
    w'.files = w.files ∧ w'.errors = w.errors ++ readErrors env w id := by
  rcases setStatus_ok hr with ⟨rfl, hnone, errs, hw'⟩ | ⟨parser, acc, act, w₁, -, hok, rfl⟩
  · refine ⟨by rw [hw', World.files_addErrors], ?_⟩
    simp only [setStatus] at hr
    obtain ⟨r, w₁, hread, hr⟩ := run_bind_ok.1 hr
    rcases readAccount_ok hread with ⟨rfl, -, -⟩ | ⟨parser, acc, act, rfl, hok⟩
    · obtain ⟨-, rfl⟩ := run_pure_ok.1 hr
      exact errors_of_readAccount hread
    · exact absurd hok.read_eq (hnone parser hok.parser_eq acc)
  · rw [files_statusSet, errors_statusSet, readErrors_of_readOk hok, List.append_nil]
    exact ⟨hok.silent.files, errors_of_silent hok.silent⟩

/-- Why an account cannot be read, with the errors that this adds to the list. -/
inductive Unreadable (env : Env Text) (w : World Text) (id : Uuid) : StringList → Prop
  | notFound : findParser env w id false = none →
      Unreadable env w id ["Could not find suitable parser."]
  | noFile {parser : AccountParser} : findParser env w id false = some parser →
      w.fileAt (parser.accountPath env id) = none →
      Unreadable env w id ["Error on reading account file: '" ++ env.uuidAsString id ++ "'.",
        "Account not found: " ++ env.uuidAsString id]
  | notParsed {parser : AccountParser} {text : Text} : findParser env w id false = some parser →
      w.fileAt (parser.accountPath env id) = some text →
      AccountParser.readText env text {} = .error .yaml →
      Unreadable env w id ["Error on reading account file: '" ++ env.uuidAsString id ++ "'.",
        "failed to parse account details"]
  | notInited {parser : AccountParser} {text : Text} {svcName : String} :
      findParser env w id false = some parser →
      w.fileAt (parser.accountPath env id) = some text →
      AccountParser.readText env text {} =
        .error (.failure ("Failed to initiate '" ++ svcName ++ "' service.")) →
      Unreadable env w id ["Error on reading account file: '" ++ env.uuidAsString id ++ "'.",
        "Failed to initiate '" ++ svcName ++ "' service."]

/-- A failure of a reading, if it is not one of the text itself, tells of a service. -/
def ReadError.Tells (e : ReadError) : Prop :=
  e = .yaml ∨ ∃ svcName, e = .failure ("Failed to initiate '" ++ svcName ++ "' service.")

theorem tells_asString {node : Option Node} {e : ReadError} (h : env.yaml.asString node = .error e) :
    e.Tells := by
  unfold YamlCpp.asString at h
  split at h
  · cases h
  · split at h
    · cases h
    · cases h
      exact .inl rfl
  · cases h
    exact .inl rfl

theorem tells_asBool {node : Option Node} {e : ReadError} (h : Node.asBool node = .error e) :
    e.Tells := by
  unfold Node.asBool at h
  split at h
  · split at h
    · cases h
    · split at h
      · cases h
      · cases h
        exact .inl rfl
  · cases h
    exact .inl rfl

theorem tells_subscript {key : String} {node : Node} {e : ReadError}
    (h : node.subscript key = .error e) : e.Tells := by
  unfold Node.subscript at h
  split at h
  · cases h
    exact .inl rfl
  · cases h
  · cases h

theorem tells_readEntry {it : IterValue} {e : ReadError}
    (h : AccountParser.readEntry env it = .error e) : e.Tells := by
  rcases except_bind_error.1 h with h | ⟨val, -, h⟩
  · exact tells_asString h
  · rcases except_bind_error.1 h with h | ⟨key, -, h⟩
    · exact tells_asString h
    · cases h

theorem tells_readSettings {node : Option Node} {settings : StrStrMap} {e : ReadError}
    (h : AccountParser.readSettings env node settings = .error e) : e.Tells := by
  refine except_foldlM_error _ (fun settings it _ e he => ?_) h
  rcases except_bind_error.1 he with he | ⟨entry, -, he⟩
  · exact tells_readEntry he
  · cases he

theorem tells_readParams {node : Option Node} {svc : AccountService} {e : ReadError}
    (h : AccountParser.readParams env node svc = .error e) : e.Tells := by
  refine except_foldlM_error _ (fun svc it _ e he => ?_) h
  rcases except_bind_error.1 he with he | ⟨entry, -, he⟩
  · exact tells_readEntry he
  · cases he

theorem tells_readService {services : StrMap AccountService} {it : IterValue} {e : ReadError}
    (h : AccountParser.readService env services it = .error e) : e.Tells := by
  simp only [AccountParser.readService] at h
  rcases except_bind_error.1 h with h | ⟨svcName, -, h⟩
  · exact tells_asString h
  · split at h
    · cases h
      exact .inr ⟨svcName, rfl⟩
    · rcases except_bind_error.1 h with h | ⟨svc, -, h⟩
      · exact tells_readParams h
      · cases h

/-- A document is refused by its form or for the name of a service. -/
theorem tells_readDocument {cfg : Node} {account : AccountObject} {e : ReadError}
    (h : AccountParser.readDocument env cfg account = .error e) : e.Tells := by
  simp only [AccountParser.readDocument] at h
  rcases except_bind_error.1 h with h | ⟨details, -, h⟩
  · exact tells_subscript h
  cases details with
  | none => cases h
  | some details =>
    simp only [except_bind_error] at h
    rcases h with h | ⟨_, -, h | ⟨_, -, h | ⟨_, -, h | ⟨_, -, h | ⟨_, -, h | ⟨_, -, h |
      ⟨_, -, h | ⟨_, -, h | ⟨_, -, h | ⟨_, -, h | ⟨_, -, h | ⟨_, -, h⟩⟩⟩⟩⟩⟩⟩⟩⟩⟩⟩⟩
    · exact tells_subscript h
    · exact tells_asString h
    · exact tells_subscript h
    · exact tells_asString h
    · exact tells_subscript h
    · exact tells_asString h
    · exact tells_subscript h
    · exact tells_asBool h
    · exact tells_subscript h
    · exact tells_readSettings h
    · exact tells_subscript h
    · exact except_foldlM_error _ (fun _ _ _ _ he =>
        except_foldlM_error _ (fun _ _ _ _ he => tells_readService he) he) h
    · cases h

/-- What a reading adds to the list is nothing, or why the account cannot be read. -/
theorem unreadable_readErrors (env : Env Text) (w : World Text) (id : Uuid) :
    readErrors env w id = [] ∨ Unreadable env w id (readErrors env w id) := by
  rw [readErrors]
  cases hfind : findParser env w id false with
  | none => exact .inr (.notFound hfind)
  | some parser =>
    dsimp only
    rw [AccountParser.read]
    cases hfile : w.fileAt (parser.accountPath env id) with
    | none => exact .inr (.noFile hfind hfile)
    | some text =>
      dsimp only
      cases hread : AccountParser.readText env text {} with
      | ok acc => exact .inl rfl
      | error e =>
        have htells : e.Tells := by
          rw [AccountParser.readText] at hread
          split at hread
          · cases hread
            exact .inl rfl
          · exact tells_readDocument hread
        rcases htells with rfl | ⟨svcName, rfl⟩
        · exact .inr (.notParsed hfind hfile hread)
        · exact .inr (.notInited hfind hfile hread)

theorem readErrors_of_error {w : World Text} {id : Uuid} {parser : AccountParser} {errs : StringList}
    (hfind : findParser env w id false = some parser)
    (hread : parser.read env w id {} = .error errs) : readErrors env w id =
      ("Error on reading account file: '" ++ env.uuidAsString id ++ "'.") :: errs := by
  rw [readErrors, hfind]
  dsimp only
  rw [hread]

theorem Unreadable.readErrors_eq {w : World Text} {id : Uuid} {errs : StringList}
    (h : Unreadable env w id errs) : readErrors env w id = errs := by
  cases h with
  | notFound hfind => rw [readErrors, hfind]
  | noFile hfind hfile => exact readErrors_of_error hfind (by rw [AccountParser.read, hfile])
  | notParsed hfind hfile hread =>
    exact readErrors_of_error hfind (by simp only [AccountParser.read, hfile, hread])
  | notInited hfind hfile hread =>
    exact readErrors_of_error hfind (by simp only [AccountParser.read, hfile, hread])

/-- The error list after an account is saved holds what reading it back for its status adds. -/
theorem errors_of_saved {act act' : AccountObject} {id : Uuid} {path : AccountPath} {data : Text}
    {b : Bool} {w w₁ w₂ : World Text}
    (hverify : (act.verify env).run w = .ok (true, act') w₁)
    (hstatus : (setStatus env id .none).run (w₁.written env path data) = .ok b w₂) :
    w₂.errors = w.errors ++ readErrors env w₂ id := by
  have hkept : filesAndErrors w₁ = filesAndErrors w :=
    ((lenient_filesAndErrors env).verify act).rel_of_ok hverify
  obtain ⟨hfiles, herrors⟩ := errors_of_setStatus hstatus
  have hwritten : (w₁.written env path data).errors = w₁.errors := rfl
  have hw₁ : w₁.errors = w.errors := congrArg Prod.snd hkept
  rw [herrors, hwritten, hw₁, readErrors_congr hfiles]

theorem errors_of_createAccount {act act' : AccountObject} {w w' : World Text}
    (hr : (createAccount env act).run w = .ok (true, act') w') :
    w'.errors = w.errors ++ readErrors env w' (env.uuidGenerate w.tick) := by
  rcases createAccount_ok hr with ⟨h, -⟩ | ⟨parser, -, hcase⟩
  · cases h
  · cases hcase with
    | created hlimit hverify hid hro hstatus =>
      have herrors := errors_of_saved hverify hstatus
      rw [errors_published, readErrors_congr (World.files_published _ _ _)]
      exact herrors

theorem errors_of_modifyAccount {id : Uuid} {act act' : AccountObject} {w w' : World Text}
    (hr : (modifyAccount env id act).run w = .ok (true, act') w') :
    ∃ parser acc, findParser env w id false = some parser ∧ parser.read env w id {} = .ok acc ∧
      w'.errors = w.errors ++ readErrors env w' acc.id := by
  rcases modifyAccount_ok hr with ⟨h, -⟩ | ⟨parser, acc, oldAct, w₁, parser', hok, -, hcase⟩
  · cases h
  · refine ⟨parser, acc, hok.parser_eq, hok.read_eq, ?_⟩
    cases hcase with
    | modified hverify hid hro hstatus hcleanup =>
      have hkept := ((lenient_filesAndErrors env).cleanup oldAct act').rel_of_ok hcleanup
      have herrors := errors_of_saved hverify hstatus
      rw [hok.id_eq, errors_of_silent hok.silent] at herrors
      rw [errors_published, readErrors_congr (World.files_published _ _ _),
        readErrors_congr (congrArg Prod.fst hkept)]
      exact (congrArg Prod.snd hkept).trans herrors

/-- A save that starts with an empty error list is one from the state before. -/
theorem Saved.of_resetErrors {act : AccountObject} {path : AccountPath} {outcome : WriteOutcome}
    {w w' : World Text} (h : Saved env { w with errors := [] } act w' path outcome) :
    Saved env w act w' path outcome := ⟨h.name, h.calls, h.files, h.outcome_eq⟩

/-- A request that saves an account writes it once, and the warnings in its reply are what reading
the account back for its status added to the error list. -/
theorem saved_of_handle {req : Request} {account : RPCAccount} {warnings : StringList}
    {result : Bool} {w w' : World Text}
    (hr : (RPCHandler.handle env req).run w = .ok (.saved result account warnings) w') :
    (∃ act' path outcome, Saved env w act' w' path outcome) ∧
      warnings = readErrors env w' (statusId env w req) := by
  have hempty : ∀ {w₁ w₂ : World Text}, (resetErrors : M Text Unit).run w₁ = .ok () w₂ →
      w₂ = { w₁ with errors := [] } := fun h => (run_modifyGet_ok.1 h).2.symm
  cases req with
  | add rpcAccount =>
    cases rpcAccount with
    | none => cases hr
    | some rpcAccount =>
      simp only [RPCHandler.handle, RPCHandler.add] at hr
      obtain ⟨act, w₁, hact, hr⟩ := run_bind_ok.1 hr
      obtain ⟨-, rfl⟩ := requestAccount_ok hact
      obtain ⟨_, w₂, hreset, hr⟩ := run_bind_ok.1 hr
      obtain rfl := hempty hreset
      obtain ⟨⟨res, act'⟩, w₃, hcreate, hr⟩ := run_bind_ok.1 hr
      obtain ⟨w₄, w₅, hget, hr⟩ := run_bind_ok.1 hr
      cases hget
      obtain ⟨_, w₆, hassert, hr⟩ := run_bind_ok.1 hr
      obtain ⟨hreply, rfl⟩ := run_pure_ok.1 hr
      cases res with
      | false => cases hassert
      | true =>
        obtain ⟨-, rfl⟩ := run_pure_ok.1 hassert
        cases hreply
        refine ⟨?_, (errors_of_createAccount hcreate).trans (List.nil_append _)⟩
        obtain ⟨path, outcome, hsaved⟩ := saved_of_ok (.create act) hcreate
        exact ⟨act', path, outcome, hsaved.of_resetErrors⟩
  | edit strId rpcAccount =>
    simp only [RPCHandler.handle, RPCHandler.edit] at hr
    split at hr
    · cases hr
    cases rpcAccount with
    | none => cases hr
    | some rpcAccount =>
      obtain ⟨accountId, w₁, hid, hrest⟩ := run_bind_ok.1 hr
      clear hr
      obtain ⟨rfl, rfl⟩ := requestId_ok hid
      obtain ⟨act, w₂, hact, hr⟩ := run_bind_ok.1 hrest
      obtain ⟨-, rfl⟩ := requestAccount_ok hact
      obtain ⟨_, w₃, hreset, hr⟩ := run_bind_ok.1 hr
      obtain rfl := hempty hreset
      obtain ⟨⟨res, act'⟩, w₄, hmodify, hr⟩ := run_bind_ok.1 hr
      obtain ⟨_, w₅, hassert, hr⟩ := run_bind_ok.1 hr
      obtain ⟨w₆, w₇, hget, hr⟩ := run_bind_ok.1 hr
      cases hget
      obtain ⟨hreply, rfl⟩ := run_pure_ok.1 hr
      cases res with
      | false => cases hassert
      | true =>
        obtain ⟨-, rfl⟩ := run_pure_ok.1 hassert
        cases hreply
        obtain ⟨parser, acc, hfind, hread, herrors⟩ := errors_of_modifyAccount hmodify
        have hfind' : findParser env w₁ (env.uuidFromString (cStr (strId.getD ""))).2 false =
            some parser := hfind
        have hread' : parser.read env w₁ (env.uuidFromString (cStr (strId.getD ""))).2 {} =
            .ok acc := hread
        simp only [statusId, hfind', hread']
        refine ⟨?_, herrors.trans (List.nil_append _)⟩
        obtain ⟨path, outcome, hsaved⟩ := saved_of_ok (.modify _ act) hmodify
        exact ⟨act', path, outcome, hsaved.of_resetErrors⟩
  | list providerFilter serviceFilter => cases hr
  | get strId =>
    simp only [RPCHandler.handle, RPCHandler.get] at hr
    obtain ⟨_, _, -, hr⟩ := run_bind_ok.1 hr
    obtain ⟨_, _, -, hr⟩ := run_bind_ok.1 hr
    obtain ⟨act, _, -, hr⟩ := run_bind_ok.1 hr
    cases act with
    | some act => cases (run_pure_ok.1 hr).1
    | none => cases hr
  | setStatus strId stat =>
    simp only [RPCHandler.handle, RPCHandler.setStatus, run_bind_ok, run_pure_ok] at hr
    obtain ⟨_, _, -, _, _, -, _, _, -, _, _, -, hreply, -⟩ := hr
    cases hreply
  | getStatus strId =>
    simp only [RPCHandler.handle, RPCHandler.getStatus, run_bind_ok, run_pure_ok] at hr
    obtain ⟨_, _, -, _, _, -, _, _, -, hreply, -⟩ := hr
    cases hreply
  | remove strId =>
    simp only [RPCHandler.handle, RPCHandler.remove, run_bind_ok, run_pure_ok] at hr
    obtain ⟨_, _, -, _, _, -, _, _, -, _, _, -, hreply, -⟩ := hr
    cases hreply

/-- The reply carries the messages of the plugins if and only if there are none, or the write of the
account left files in which it cannot be read for its status, and the messages are among the errors
that tell why. -/
theorem carries_messages_iff (env : Env Text) (req : Request) (account : RPCAccount)
    (warnings : StringList) (result : Bool) (w w' : World Text)
    (hr : (RPCHandler.handle env req).run w = .ok (.saved result account warnings) w') :
    (pluginMessages w w').Sublist warnings ↔ pluginMessages w w' = [] ∨
      ∃ path data outcome errs, .writeFile path data outcome ∈ w.newCalls w' ∧
        Unreadable env (w.leftBy env path data outcome) (statusId env w req) errs ∧
        (pluginMessages w w').Sublist errs := by
  obtain ⟨⟨act', path, outcome, hsaved⟩, hwarnings⟩ := saved_of_handle hr
  rw [readErrors_congr hsaved.files] at hwarnings
  constructor
  · intro h
    rw [hwarnings] at h
    rcases unreadable_readErrors env (w.leftBy env path (documentText env act') outcome)
      (statusId env w req) with hnone | hunreadable
    · rw [hnone] at h
      exact .inl (List.sublist_nil.1 h)
    · exact .inr ⟨path, _, outcome, _, hsaved.mem_newCalls.2 ⟨rfl, rfl, rfl⟩, hunreadable, h⟩
  · rintro (hnone | ⟨path', data, outcome', errs, hwrite, hunreadable, h⟩)
    · rw [hnone]
      exact List.nil_sublist _
    · obtain ⟨rfl, rfl, rfl⟩ := hsaved.mem_newCalls.1 hwrite
      rwa [hwarnings, hunreadable.readErrors_eq]

/-- A service that authenticates with this message. -/
def reportingEnv (errors : StringList) : Env YamlText :=
  { referenceEnv with
    authenticate := fun _ _ _ => .returned { authenticated := true, errors } }

/-- An account with one service. -/
def postAccount (id : Option String) : RPCAccount where
  id := id
  title := "Post"
  provider := ""
  active := true
  settings := []
  services := [{ name := "mail", params := [] }]

/-- Nothing is lost where the plugin has nothing to say. -/
theorem carries_messages_silent : ∃ (account : RPCAccount) (warnings : StringList)
    (w' : World YamlText), (RPCHandler.handle (reportingEnv []) (.add (some (postAccount none)))).run
        { files := fun _ => ∅ } = .ok (.saved true account warnings) w' ∧
      (pluginMessages { files := fun _ => ∅ } w').Sublist warnings := by
  have hrun : (RPCHandler.handle (reportingEnv []) (.add (some (postAccount none)))).run
      { files := fun _ => ∅ } =
        .ok (.saved true (postAccount (some (referenceEnv.uuidAsString 1))) []) _ :=
    eq_ok_of_result? (by decide +kernel)
  exact ⟨_, _, _, hrun, (carries_messages_iff _ _ _ _ _ _ _ hrun).2 (.inl (by decide +kernel))⟩

/-- The warning of a plugin does not reach the client. -/
theorem warning_is_lost : ¬∀ (env : Env YamlText) (req : Request) (account : RPCAccount)
    (warnings : StringList) (result : Bool) (w w' : World YamlText),
    (RPCHandler.handle env req).run w = .ok (.saved result account warnings) w' →
    (pluginMessages w w').Sublist warnings := by
  intro h
  have hlost := h (reportingEnv ["quota nearly reached"]) (.add (some (postAccount none)))
    (postAccount (some (referenceEnv.uuidAsString 1))) [] true { files := fun _ => ∅ } _
    (eq_ok_of_result? (by decide +kernel))
  exact absurd (List.sublist_nil.1 hlost) (by decide +kernel)

end PxAccounts
