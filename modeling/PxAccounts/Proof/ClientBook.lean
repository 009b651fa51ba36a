import PxAccounts.Proof.Demands
import PxAccounts.Proof.Keeping
import PxAccounts.Proof.Listing

/-!
# What clients know of the service

To its clients the service is a book of accounts, each with an entry and a status.  This is the book,
what each request makes of it and what its replies say, and the states of the service in which the
account files are such a book, with the parameters that some plugins keep themselves.
-/

namespace PxAccounts

open Effect AccountManager
open AccountObject (rest lenient_rest)

variable {Text : Type} {env : Env Text} {custom : Set String} {kept : Set PluginRecord}
  {limit : ℕ}

/-! ## The book -/

/-- The accounts with their statuses. -/
structure Book where
  accounts : AccountMap
  status : Uuid → AccountStatus

/-- The id that a request names, if it names one. -/
def requestedId (env : Env Text) (strId : Option String) : Option Uuid :=
  strId.bind fun s => env.uuid.parse (cStr s)

/-- The account of a message, seen as an entry. -/
def RPCAccount.entry (account : RPCAccount) : AccountEntry where
  title := account.title
  provider := account.provider
  isActive := account.active
  settings := TreeMap.insertAll ∅ account.settings
  services name := (account.services.find? fun svc => svc.name == name).map fun svc key =>
    svc.params.lookup key

/-- The entry passes the filters of a list request. -/
def AccountEntry.Passes (entry : AccountEntry) (providerFilter serviceFilter : List String) : Prop :=
  (providerFilter = [] ∧ serviceFilter = []) ∨ entry.provider ∈ providerFilter ∨
    ∃ name ∈ serviceFilter, (entry.services name).isSome

/-- The reply to a list request has every account that passes the filters, once. -/
structure Book.Lists (env : Env Text) (b : Book) (providerFilter serviceFilter : List String)
    (infos : List RPCAccountInfo) : Prop where
  once : (infos.map RPCAccountInfo.id).Nodup
  infos : ∀ info, info ∈ infos ↔ ∃ id entry, b.accounts id = some entry ∧
    entry.Passes providerFilter serviceFilter ∧
    info = { id := env.uuidAsString id, title := entry.title }

/-- An account that is created automatically for a plugin. -/
structure AccountEntry.DefaultFor (entry : AccountEntry) (name : String) : Prop where
  title : entry.title = "Default - " ++ name
  provider : entry.provider = ""
  isActive : entry.isActive = true
  settings : entry.settings = ∅
  names : ∀ svcName, (entry.services svcName).isSome ↔ svcName = name

/-- How a request ends for the client. -/
inductive Outcome
  | replied (reply : Reply)
  | refused

/-- What happens to the service. -/
inductive Occurrence (Text : Type)
  | request (req : Request) (outcome : Outcome) (calls : List (Call Text))
  | restart

/-- Requests that may be refused: one that reads is refused only where the book has no account of the
id. -/
def Book.MayRefuse (env : Env Text) (b : Book) : Request → Prop
  | .list _ _ => False
  | .get strId => ∀ id, requestedId env strId = some id → b.accounts id = none
  | .setStatus strId _ => ∀ id, requestedId env strId = some id → b.accounts id = none
  | .getStatus strId => requestedId env strId = none
  | .add _ => True
  | .edit _ _ => True
  | .remove _ => True

/-- A start creates accounts for plugins that ask for one and have none, and forgets the statuses. -/
structure Book.Restarts (env : Env Text) (b b' : Book) : Prop where
  status : b'.status = fun _ => .none
  accounts : ∀ id, b'.accounts id = b.accounts id ∨ (b.accounts id = none ∧
    ∃ (name : String) (plugin : PluginContainer) (entry : AccountEntry),
      env.registeredPlugins[name]? = some plugin ∧ plugin.autoInitialize = true ∧
      (∀ id' entry', b.accounts id' = some entry' → entry'.services name = none) ∧
      b'.accounts id = some entry ∧ entry.DefaultFor name)

/-- What an occurrence makes of the book, with plugins of `custom` that keep parameters. -/
inductive Book.Step (env : Env Text) (custom : Set String) : Book → Occurrence Text → Book → Prop
  | listed {b : Book} {providerFilter serviceFilter : Option (List String)}
      {infos : List RPCAccountInfo} {calls : List (Call Text)} :
      b.Lists env ((providerFilter.getD []).map cStr) ((serviceFilter.getD []).map cStr) infos →
      Step env custom b
        (.request (.list providerFilter serviceFilter) (.replied (.accounts infos)) calls) b
  | got {b : Book} {strId : Option String} {id : Uuid} {account : RPCAccount}
      {calls : List (Call Text)} : requestedId env strId = some id →
      account.id = some (env.uuidAsString id) → b.accounts id = some account.entry →
      Step env custom b (.request (.get strId) (.replied (.account account)) calls) b
  | statusGot {b : Book} {strId : Option String} {id : Uuid} {calls : List (Call Text)} :
      requestedId env strId = some id →
      Step env custom b (.request (.getStatus strId) (.replied (.status (b.status id))) calls) b
  | statusSet {b : Book} {strId : Option String} {id : Uuid} {stat : AccountStatus}
      {calls : List (Call Text)} : requestedId env strId = some id → (b.accounts id).isSome →
      Step env custom b (.request (.setStatus strId stat) (.replied (.result true)) calls)
        { b with status := Function.update b.status id stat }
  | added {b : Book} {rpc account : RPCAccount} {act : AccountObject} {id : Uuid}
      {entry : AccountEntry} {warnings : StringList} {calls : List (Call Text)} :
      RPCHandler.rpc2act env rpc = some act → .uuidGenerate id ∈ calls → b.accounts id = none →
      entry.SavedBy env custom act calls → account.id = some (env.uuidAsString id) →
      account.entry.Shows custom calls entry →
      Step env custom b (.request (.add (some rpc)) (.replied (.saved true account warnings)) calls)
        { accounts := Function.update b.accounts id (some entry)
          status := Function.update b.status id .none }
  | edited {b : Book} {strId : Option String} {rpc account : RPCAccount} {act : AccountObject}
      {id : Uuid} {entry : AccountEntry} {warnings : StringList} {calls : List (Call Text)} :
      requestedId env strId = some id → RPCHandler.rpc2act env rpc = some act →
      (b.accounts id).isSome → entry.SavedBy env custom act calls →
      account.id = some (env.uuidAsString id) → account.entry.Shows custom calls entry →
      Step env custom b
        (.request (.edit strId (some rpc)) (.replied (.saved true account warnings)) calls)
        { accounts := Function.update b.accounts id (some entry)
          status := Function.update b.status id .none }
  | removed {b : Book} {strId : Option String} {id : Uuid} {calls : List (Call Text)} :
      requestedId env strId = some id → (b.accounts id).isSome →
      Step env custom b (.request (.remove strId) (.replied (.result true)) calls)
        { accounts := Function.update b.accounts id none
          status := Function.update b.status id .none }
  | refused {b : Book} {req : Request} {calls : List (Call Text)} : b.MayRefuse env req →
      Step env custom b (.request req .refused calls) b
  | restarted {b b' : Book} : b.Restarts env b' → Step env custom b .restart b'

/-- The book that the service keeps. -/
def bookAt (env : Env Text) (w : World Text) : Book where
  accounts := (shelfAt w).entries (accountAt env w)
  status := getStatus env w

/-! ## Directories that are a book -/

/-- Directories as the service leaves them: what the accounts name is on the shelf, and no account has
an id that is still to be generated before the call with the number `limit`. -/
structure Orderly (env : Env Text) (custom : Set String) (limit : ℕ) (w : World Text) : Prop extends
    Canonical env w where
  shelved : Shelved custom (accountAt env w) (shelfAt w)
  notNull : ¬Stored env w Uuid.null
  unused : ∀ n, w.tick ≤ n → n < limit → ¬Stored env w (env.uuidGenerate n)

theorem Canonical.congr {w w' : World Text} (h : Canonical env w) (hfiles : w'.files = w.files) :
    Canonical env w' where
  toTidy := h.toTidy.congr hfiles
  named p hp name hname := h.named p hp name (by rwa [hfiles] at hname)
  readable p hp id hex := by
    rw [World.fileAt_congr hfiles] at hex
    rw [AccountParser.read_congr (World.fileAt_congr hfiles _)]
    exact h.readable p hp id hex

/-- The directories stay, and so does what is on the shelf. -/
theorem Orderly.congr {w w' : World Text} (h : Orderly env custom limit w)
    (hfiles : w'.files = w.files) (hleaving : (leaving Set.univ).rel w w')
    (hserved : Served custom w') : Orderly env custom limit w' where
  toCanonical := h.toCanonical.congr hfiles
  shelved := by
    rw [accountAt_congr hfiles]
    exact h.shelved.grow fun r params hr => kept_of_leaving hleaving hserved trivial hr
  notNull := by
    rw [stored_congr hfiles]
    exact h.notNull
  unused n hn hlt := by
    rw [stored_congr hfiles]
    exact h.unused n ((tick_of_leaving hleaving).trans hn) hlt

/-- What is shown of an account does not change as long as its records are kept. -/
theorem Orderly.shown_eq {w w' : World Text} (h : Orderly env custom limit w)
    (hleaving : (leaving kept).rel w w') (hserved : Served custom w') {id : Uuid}
    {acc : AccountObject} (hacc : accountAt env w id = some acc)
    (hkept : ∀ r, NamesRecord acc r → r.plugin ∈ custom → r ∈ kept) :
    AccountEntry.shown (shelfAt w') acc = AccountEntry.shown (shelfAt w) acc :=
  shown_congr (hserved.of_prefix (prefix_of_leaving hleaving)).own hserved.own
    (h.shelved.held id acc hacc) fun r hnames hcustom _ hr =>
      kept_of_leaving hleaving hserved (hkept r hnames hcustom) hr

/-- The accounts of the book stay with the directories. -/
theorem Orderly.accounts_congr {w w' : World Text} (h : Orderly env custom limit w)
    (hfiles : w'.files = w.files) (hleaving : (leaving Set.univ).rel w w')
    (hserved : Served custom w') :
    (shelfAt w').entries (accountAt env w') = (bookAt env w).accounts := by
  rw [accountAt_congr hfiles]
  exact entries_congr fun id acc hacc => h.shown_eq hleaving hserved hacc fun _ _ _ => trivial

theorem Orderly.bookAt_congr {w w' : World Text} (h : Orderly env custom limit w)
    (hrest : rest w' = rest w) (hleaving : (leaving Set.univ).rel w w') (hserved : Served custom w') :
    bookAt env w' = bookAt env w := by
  have hstat : w'.statDict = w.statDict := congrArg (·.2.1) hrest
  rw [bookAt, h.accounts_congr (congrArg Prod.fst hrest) hleaving hserved, bookAt, Book.mk.injEq]
  refine ⟨rfl, funext fun id => ?_⟩
  rw [getStatus, getStatus, hstat]

/-- The directories after a call that saved an account, which had no file in another directory. -/
theorem Canonical.saved {p : AccountParser} {act' : AccountObject} {event : String}
    {w w₁ w₂ w' : World Text} {sb : Bool} (h : Canonical env w) (hd : Dependable env)
    (hvia : SavedVia env p act' event w w₁ w₂ w' sb)
    (honly : ∀ q ∈ env.parsers, (w.fileAt (q.accountPath env act'.id)).isSome → q = p) :
    Canonical env w' := by
  have hfiles : w'.files = (w₁.written env (p.accountPath env act'.id)
      (documentText env act')).files := hvia.files_eq
  have hwritten : (w₁.written env (p.accountPath env act'.id) (documentText env act')).fileAt
      (p.accountPath env act'.id) = some (documentText env act') := fileAt_written_complete hd _
  refine ⟨hvia.tidy hd h.toTidy honly, fun q hq name hname => ?_, fun q hq id hex => ?_⟩
  · have hfile : (w'.fileAt { dir := q.path, name }).isSome :=
      Std.ExtTreeMap.mem_iff_isSome_getElem?.1 hname
    by_cases hpath : ({ dir := q.path, name } : AccountPath) = p.accountPath env act'.id
    · exact ⟨act'.id, congrArg AccountPath.name hpath⟩
    · rw [World.fileAt_congr hfiles, World.fileAt_written_of_ne _ _ hpath,
        World.fileAt_congr hvia.files₁] at hfile
      exact h.named q hq name (Std.ExtTreeMap.mem_iff_isSome_getElem?.2 hfile)
  · by_cases hpath : q.accountPath env id = p.accountPath env act'.id
    · refine ⟨AccountParser.stored env act', AccountParser.read_ok_iff.2
        ⟨documentText env act', ?_, readText_document hvia.registered⟩⟩
      rw [hpath, World.fileAt_congr hfiles, hwritten]
    · have hsame : w'.fileAt (q.accountPath env id) = w.fileAt (q.accountPath env id) := by
        rw [World.fileAt_congr hfiles, World.fileAt_written_of_ne _ _ hpath,
          World.fileAt_congr hvia.files₁]
      rw [hsame] at hex
      rw [AccountParser.read_congr hsame]
      exact h.readable q hq id hex

theorem Orderly.saved {p : AccountParser} {act act' : AccountObject} {event : String}
    {w w₁ w₂ w' : World Text} {sb : Bool} (h : Orderly env custom limit w) (hd : Dependable env)
    (hvia : SavedVia env p act' event w w₁ w₂ w' sb)
    (honly : ∀ q ∈ env.parsers, (w.fileAt (q.accountPath env act'.id)).isSome → q = p)
    (hleaving : (leaving Set.univ).rel w w') (hserved : Served custom w')
    (hsettled : Settled env custom act act' w w')
    (hid : ∀ n, w'.tick ≤ n → n < limit → env.uuidGenerate n ≠ act'.id) :
    Orderly env custom limit w' where
  toCanonical := h.toCanonical.saved hd hvia honly
  shelved := by
    rw [hvia.accountAt_eq hd]
    apply h.shelved.save
    · exact fun r params hr => kept_of_leaving hleaving hserved trivial hr
    · exact fun r hnames hcustom => (hsettled.records hnames hcustom).2
    · exact fun r hnames hcustom => (hsettled.records hnames hcustom).1
  notNull := by
    rw [hvia.stored_iff hd]
    rintro (hnull | hstored)
    · have hset := hvia.notNull
      rw [← hnull] at hset
      exact absurd hset (by decide)
    · exact h.notNull hstored
  unused n hn hlt := by
    rw [hvia.stored_iff hd]
    rintro (heq | hstored)
    · exact hid n hn hlt heq
    · exact h.unused n ((tick_of_leaving hleaving).trans hn) hlt hstored

/-- The directories after the file of an account was removed, and at most its records with it. -/
theorem Orderly.erased {w w' : World Text} {p : AccountParser} {id : Uuid} {acc : AccountObject}
    (h : Orderly env custom limit w) (hfind : findParser env w id false = some p)
    (hread : p.read env w id {} = .ok acc)
    (hfiles : w'.files = (w.erased (p.accountPath env id)).files)
    (hleaving : (leaving {r | ¬NamesRecord acc r}).rel w w') (hserved : Served custom w') :
    Orderly env custom limit w' := by
  have hp := (findParser_some hfind).1
  have hle : ∀ {path'}, (w'.fileAt path').isSome → (w.fileAt path').isSome ∧
      w'.fileAt path' = w.fileAt path' := by
    intro path' hex
    rw [World.fileAt_congr hfiles] at hex ⊢
    by_cases hpath : path' = p.accountPath env id
    · rw [hpath, World.fileAt_erased_self] at hex
      cases hex
    · rw [World.fileAt_erased_of_ne _ hpath] at hex ⊢
      exact ⟨hex, rfl⟩
  have hstored : ∀ id, Stored env w' id → Stored env w id :=
    fun id ⟨p, hp, hex⟩ => ⟨p, hp, (hle hex).1⟩
  refine ⟨⟨(h.toTidy.erased _).congr hfiles, fun q hq name hname => ?_, fun q hq id hex => ?_⟩,
    ?_, fun hnull => h.notNull (hstored _ hnull),
    fun n hn hlt hn' => h.unused n ((tick_of_leaving hleaving).trans hn) hlt (hstored _ hn')⟩
  · have hfile : (w'.fileAt { dir := q.path, name }).isSome :=
      Std.ExtTreeMap.mem_iff_isSome_getElem?.1 hname
    exact h.named q hq name (Std.ExtTreeMap.mem_iff_isSome_getElem?.2 (hle hfile).1)
  · rw [AccountParser.read_congr (hle hex).2]
    exact h.readable q hq id (hle hex).1
  · rw [accountAt_congr hfiles, accountAt_erased h.toTidy hp (isSome_of_read hread)]
    apply h.shelved.erase (accountAt_eq_some_iff.2 ⟨p, hfind, hread⟩)
    exact fun r hnot params hr => kept_of_leaving hleaving hserved hnot hr

/-! ## Accounts and files -/

/-- Each account file is the one that is found under its id. -/
theorem Orderly.findParser_of_read {w : World Text} (h : Orderly env custom limit w)
    {p : AccountParser} (hp : p ∈ env.parsers) {id : Uuid} {acc : AccountObject}
    (hread : p.read env w id {} = .ok acc) : findParser env w id false = some p := by
  have hid : id ≠ Uuid.null := by
    rintro rfl
    exact h.notNull ⟨p, hp, isSome_of_read hread⟩
  have hsome := (entryAt_isSome_iff h.toCanonical hid).2 ⟨p, hp, isSome_of_read hread⟩
  obtain ⟨entry, hentry⟩ := Option.isSome_iff_exists.1 hsome
  obtain ⟨q, hfind, hq⟩ := Option.bind_eq_some_iff.1 hentry
  cases hread' : q.read env w id {} with
  | error errs =>
    rw [hread'] at hq
    cases hq
  | ok acc' =>
    rw [h.unique p hp q (findParser_some hfind).1 id (isSome_of_read hread) (isSome_of_read hread')]
    exact hfind

theorem Orderly.accountAt_iff {w : World Text} (h : Orderly env custom limit w) {id : Uuid}
    {acc : AccountObject} : accountAt env w id = some acc ↔
      ∃ p ∈ env.parsers, p.read env w id {} = .ok acc := by
  rw [accountAt_eq_some_iff]
  constructor
  · rintro ⟨p, hfind, hread⟩
    exact ⟨p, (findParser_some hfind).1, hread⟩
  · rintro ⟨p, hp, hread⟩
    exact ⟨p, h.findParser_of_read hp hread, hread⟩

/-- The entries are those of the account files. -/
theorem Orderly.accounts_eq_some_iff {w : World Text} (h : Orderly env custom limit w) {id : Uuid}
    {entry : AccountEntry} : (bookAt env w).accounts id = some entry ↔
      ∃ p ∈ env.parsers, ∃ acc, p.read env w id {} = .ok acc ∧
        AccountEntry.shown (shelfAt w) acc = entry := by
  show (accountAt env w id).map _ = some entry ↔ _
  rw [Option.map_eq_some_iff]
  constructor
  · rintro ⟨acc, hacc, rfl⟩
    obtain ⟨p, hp, hread⟩ := h.accountAt_iff.1 hacc
    exact ⟨p, hp, acc, hread, rfl⟩
  · rintro ⟨p, hp, acc, hread, rfl⟩
    exact ⟨acc, h.accountAt_iff.2 ⟨p, hp, hread⟩, rfl⟩

theorem Orderly.listedOnce {w : World Text} (h : Orderly env custom limit w) :
    ListedOnce env w where
  first p hp id := fun ⟨acc, hread⟩ => findParser_eq_some_iff.1 (h.findParser_of_read hp hread)
  named p hp id _ actFile hmem hname := by
    have hfile : actFile ∈ w.files p.path :=
      Std.ExtTreeMap.mem_keys.1 ((env.readdir_perm _).mem_iff.1 (List.mem_of_mem_filter hmem))
    obtain ⟨id', rfl⟩ := h.named p hp actFile hfile
    rw [NamesId, AccountParser.fileStem_accountFile, AccountParser.uuidFromString_uuidAsString,
      Prod.mk.injEq] at hname
    rw [hname.2]

theorem mem_listAccounts_iff {w : World Text} {acc : AccountObject} :
    acc ∈ listAccounts env w [] [] ↔ ∃ p ∈ env.parsers, ∃ id, p.read env w id {} = .ok acc := by
  constructor
  · intro hmem
    obtain ⟨p, hp, actFile, -, id, -, hread⟩ := mem_listAccounts.1 hmem
    exact ⟨p, hp, id, hread⟩
  · rintro ⟨p, hp, id, hread⟩
    exact mem_listAccounts_of_read hp hread

end PxAccounts
