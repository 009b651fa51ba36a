import PxAccounts.Model.Reference
import PxAccounts.Proof.AccountFile
import PxAccounts.Proof.ManagerRun

/-!
# Accepted account files

Which documents the parser accepts, and the id of the account it makes of them.  Nothing ties that
id to the id that was asked for, and a document without an account is accepted as well.
-/

namespace PxAccounts

open Effect AccountManager

variable {Text : Type} {env : Env Text} {w : World Text} {parser : AccountParser} {id : Uuid}

/-! ## Documents -/

/-- The value of an entry of a map. -/
def field (entries : List (Node × Node)) (key : String) : Option Node :=
  (entries.find? fun e => e.1.isKey key).map Prod.snd

/-- `as<string>` does not throw. -/
def Converts (env : Env Text) (node : Option Node) : Prop := ∃ s, env.yaml.asString node = .ok s

/-- The key and the value of an entry are texts. -/
def EntryConverts (env : Env Text) (it : IterValue) : Prop :=
  Converts env it.first ∧ Converts env it.second

/-- The entry is named after a plugin, and its parameters are texts. -/
def ServiceConverts (env : Env Text) (service : IterValue) : Prop :=
  (∃ serviceName, env.yaml.asString service.first = .ok serviceName ∧
    (env.pluginNamed serviceName).isSome) ∧
  ∀ p ∈ Node.iter service.second, EntryConverts env p

/-- The entries of an account that is complete, with the text of its id. -/
structure Complete (env : Env Text) (entries : List (Node × Node)) (idText : String) : Prop where
  id : env.yaml.asString (field entries "id") = .ok idText
  title : Converts env (field entries "title")
  provider : Converts env (field entries "provider")
  active : ∃ isActive, Node.asBool (field entries "active") = .ok isActive
  settings : ∀ it ∈ Node.iter (field entries "settings"), EntryConverts env it
  services : ∀ it ∈ Node.iter (field entries "services"), ∀ service ∈ Node.iter it.node,
    ServiceConverts env service

/-- The document has an `account` map with entries for the id, the title, the provider and the
active flag. -/
def HasAccountMap (cfg : Node) : Prop :=
  ∃ entries, cfg.subscript "account" = .ok (some (.map entries)) ∧
    ∀ key ∈ ["id", "title", "provider", "active"], (field entries key).isSome

/-- An account that is read is one of a document with an account map, and has the id asked for. -/
def AcceptsOwn (env : Env Text) (w : World Text) (parser : AccountParser) (id : Uuid) : Prop :=
  ∀ acc, parser.read env w id {} = .ok acc →
    (∃ text cfg, w.fileAt (parser.accountPath env id) = some text ∧
      env.yaml.load text = some cfg ∧ HasAccountMap cfg) ∧
    acc.id = id

/-- A status that was set is the one that is shown. -/
def StatusTakes (env : Env Text) (w : World Text) (id : Uuid) : Prop :=
  ∀ stat w', (setStatus env id stat).run w = .ok true w' → getStatus env w' id = stat

/-- The document has an `account` entry, and if that is complete, its id is the given one. -/
def OwnsDocument (env : Env Text) (cfg : Node) (id : Uuid) : Prop :=
  cfg.subscript "account" ≠ .ok none ∧
    ∀ entries idText, cfg.subscript "account" = .ok (some (.map entries)) →
      Complete env entries idText → (env.uuidFromString idText).2 = id

/-! ## What is accepted -/

theorem subscript_map (entries : List (Node × Node)) (key : String) :
    (Node.map entries).subscript key = .ok (field entries key) := rfl

theorem isSome_of_converts {node : Option Node} (h : Converts env node) : node.isSome := by
  obtain ⟨s, hs⟩ := h
  cases node with
  | none => cases hs
  | some _ => rfl

theorem isSome_of_asBool {node : Option Node} {b : Bool} (h : Node.asBool node = .ok b) :
    node.isSome := by
  cases node with
  | none => cases h
  | some _ => rfl

theorem Complete.hasAccountMap {cfg : Node} {entries : List (Node × Node)} {idText : String}
    (haccount : cfg.subscript "account" = .ok (some (.map entries)))
    (h : Complete env entries idText) : HasAccountMap cfg := by
  refine ⟨entries, haccount, fun key hkey => ?_⟩
  obtain ⟨isActive, hactive⟩ := h.active
  simp only [List.mem_cons, List.not_mem_nil, or_false] at hkey
  rcases hkey with rfl | rfl | rfl | rfl
  · exact isSome_of_converts ⟨idText, h.id⟩
  · exact isSome_of_converts h.title
  · exact isSome_of_converts h.provider
  · exact isSome_of_asBool hactive

theorem readEntry_returns_iff {it : IterValue} :
    (∃ kv, AccountParser.readEntry env it = .ok kv) ↔ EntryConverts env it := by
  simp only [AccountParser.readEntry, except_bind_ok]
  constructor
  · rintro ⟨_, val, hval, key, hkey, -⟩
    exact ⟨⟨key, hkey⟩, ⟨val, hval⟩⟩
  · rintro ⟨⟨key, hkey⟩, val, hval⟩
    exact ⟨(key, val), val, hval, key, hkey, rfl⟩

theorem readSettings_returns_iff {node : Option Node} {settings : StrStrMap} :
    (∃ settings', AccountParser.readSettings env node settings = .ok settings') ↔
      ∀ it ∈ Node.iter node, EntryConverts env it := by
  refine except_foldlM_returns_iff _ _ fun settings it _ => ?_
  rw [← readEntry_returns_iff]
  simp only [except_bind_ok]
  exact ⟨fun ⟨_, kv, h, _⟩ => ⟨kv, h⟩, fun ⟨kv, h⟩ => ⟨_, kv, h, rfl⟩⟩

theorem readParams_returns_iff {node : Option Node} {svc : AccountService} :
    (∃ svc', AccountParser.readParams env node svc = .ok svc') ↔
      ∀ p ∈ Node.iter node, EntryConverts env p := by
  refine except_foldlM_returns_iff _ _ fun svc p _ => ?_
  rw [← readEntry_returns_iff]
  simp only [except_bind_ok]
  exact ⟨fun ⟨_, kv, h, _⟩ => ⟨kv, h⟩, fun ⟨kv, h⟩ => ⟨_, kv, h, rfl⟩⟩

@[simp] theorem inited_init (svc : AccountService) (name : String) :
    (svc.init env name).inited = (env.pluginNamed name).isSome := rfl

theorem readService_returns_iff {service : IterValue} {services : StrMap AccountService} :
    (∃ services', AccountParser.readService env services service = .ok services') ↔
      ServiceConverts env service := by
  simp only [AccountParser.readService, ServiceConverts, except_bind_ok, inited_init]
  constructor
  · rintro ⟨services', serviceName, hname, h⟩
    cases hplugin : (env.pluginNamed serviceName).isSome with
    | false =>
      simp only [hplugin, Bool.not_false, if_true, except_bind_ok] at h
      obtain ⟨_, hthrow, -⟩ := h
      cases hthrow
    | true =>
      simp only [hplugin, Bool.not_true, Bool.false_eq_true, if_false, except_bind_ok] at h
      obtain ⟨svc, hparams, -⟩ := h
      exact ⟨⟨serviceName, hname, hplugin⟩, readParams_returns_iff.1 ⟨svc, hparams⟩⟩
  · rintro ⟨⟨serviceName, hname, hplugin⟩, hparams⟩
    obtain ⟨svc, hsvc⟩ := readParams_returns_iff.2 hparams
    refine ⟨services.insert serviceName svc, serviceName, hname, ?_⟩
    simp only [hplugin, Bool.not_true, Bool.false_eq_true, if_false, except_bind_ok]
    exact ⟨svc, hsvc, rfl⟩

theorem readServices_returns_iff {node : Option Node} {services : StrMap AccountService} :
    (∃ services', AccountParser.readServices env node services = .ok services') ↔
      ∀ it ∈ Node.iter node, ∀ service ∈ Node.iter it.node, ServiceConverts env service :=
  except_foldlM_returns_iff _ _ fun _ _ _ =>
    except_foldlM_returns_iff _ _ fun _ _ _ => readService_returns_iff

/-- A document is read into an account with the given id: one without an account into the account it
started from, and one with a complete account into that. -/
theorem readDocument_returns_iff {cfg : Node} {account : AccountObject} :
    (∃ acc, AccountParser.readDocument env cfg account = .ok acc ∧ acc.id = id) ↔
      (cfg.subscript "account" = .ok none ∧ account.id = id) ∨
        ∃ entries idText, cfg.subscript "account" = .ok (some (.map entries)) ∧
          Complete env entries idText ∧ (env.uuidFromString idText).2 = id := by
  constructor
  · rintro ⟨acc, hread, rfl⟩
    simp only [AccountParser.readDocument, except_bind_ok] at hread
    obtain ⟨details, haccount, hread⟩ := hread
    cases details with
    | none =>
      cases hread
      exact .inl ⟨haccount, rfl⟩
    | some details =>
      simp only [except_bind_ok] at hread
      obtain ⟨idNode, hidNode, idText, hid, hread⟩ := hread
      cases details with
      | map entries =>
        simp only [subscript_map, Except.ok.injEq, exists_eq_left'] at hidNode hread
        obtain ⟨title, htitle, provider, hprovider, isActive, hactive, settings, hsettings,
          services, hservices, hread⟩ := hread
        subst hidNode
        cases hread
        exact .inr ⟨entries, idText, haccount, ⟨hid, ⟨title, htitle⟩, ⟨provider, hprovider⟩,
          ⟨isActive, hactive⟩, readSettings_returns_iff.1 ⟨settings, hsettings⟩,
          readServices_returns_iff.1 ⟨services, hservices⟩⟩, rfl⟩
      | scalar _ => cases hidNode
      | null =>
        cases hidNode
        cases hid
      | sequence _ =>
        cases hidNode
        cases hid
  · rintro (⟨haccount, hid⟩ | ⟨entries, idText, haccount, hcomplete, hid⟩)
    · refine ⟨account, ?_, hid⟩
      rw [AccountParser.readDocument, haccount]
      rfl
    · obtain ⟨title, htitle⟩ := hcomplete.title
      obtain ⟨provider, hprovider⟩ := hcomplete.provider
      obtain ⟨isActive, hactive⟩ := hcomplete.active
      obtain ⟨settings, hsettings⟩ := readSettings_returns_iff.2 hcomplete.settings
      obtain ⟨services, hservices⟩ := readServices_returns_iff.2 hcomplete.services
      refine ⟨{ account.setId env idText with title, provider, isActive, settings, services },
        ?_, hid⟩
      rw [AccountParser.readDocument, haccount]
      simp only [except_bind_ok, subscript_map, Except.ok.injEq, exists_eq_left']
      exact ⟨idText, hcomplete.id, title, htitle, provider, hprovider, isActive, hactive,
        settings, hsettings, services, hservices, rfl⟩

theorem readText_ok {text : Text} {account acc : AccountObject} :
    AccountParser.readText env text account = .ok acc ↔
      ∃ cfg, env.yaml.load text = some cfg ∧
        AccountParser.readDocument env cfg account = .ok acc := by
  rw [AccountParser.readText]
  cases env.yaml.load text <;> simp

/-- The parser accepts own accounts only, and with that a status set is a status shown, if and only
if the document in the file has an account, which is incomplete or carries the id. -/
theorem accepts_own_iff (env : Env Text) (w : World Text) (parser : AccountParser) (id : Uuid) :
    AcceptsOwn env w parser id ∧
        (findParser env w id false = some parser → StatusTakes env w id) ↔
      ∀ text cfg, w.fileAt (parser.accountPath env id) = some text →
        env.yaml.load text = some cfg → OwnsDocument env cfg id := by
  constructor
  · rintro ⟨howns, -⟩ text cfg htext hload
    have hread : ∀ acc, AccountParser.readDocument env cfg {} = .ok acc →
        parser.read env w id {} = .ok acc := fun acc hdocument =>
      AccountParser.read_ok_iff.2 ⟨text, htext, readText_ok.2 ⟨cfg, hload, hdocument⟩⟩
    constructor
    · intro hnone
      obtain ⟨acc, hacc, -⟩ := readDocument_returns_iff.2 (.inl ⟨hnone, rfl⟩)
      obtain ⟨⟨text', cfg', htext', hload', entries, haccount, -⟩, -⟩ := howns acc (hread acc hacc)
      cases htext.symm.trans htext'
      cases hload.symm.trans hload'
      cases hnone.symm.trans haccount
    · intro entries idText haccount hcomplete
      obtain ⟨acc, hacc, hid⟩ :=
        readDocument_returns_iff.2 (.inr ⟨entries, idText, haccount, hcomplete, rfl⟩)
      rw [← hid]
      exact (howns acc (hread acc hacc)).2
  · intro h
    have howns : AcceptsOwn env w parser id := by
      intro acc hread
      obtain ⟨text, htext, hread⟩ := AccountParser.read_ok_iff.1 hread
      obtain ⟨cfg, hload, hdocument⟩ := readText_ok.1 hread
      obtain ⟨haccount, hid⟩ := h text cfg htext hload
      rcases readDocument_returns_iff.1 ⟨acc, hdocument, rfl⟩ with
        ⟨hnone, -⟩ | ⟨entries, idText, hmap, hcomplete, hacc⟩
      · exact absurd hnone haccount
      · exact ⟨⟨text, cfg, htext, hload, hcomplete.hasAccountMap hmap⟩,
          hacc.symm.trans (hid entries idText hmap hcomplete)⟩
    refine ⟨howns, fun hfind stat w' hset => ?_⟩
    rcases setStatus_ok hset with ⟨h, -⟩ | ⟨parser', acc, act, w₁, -, hok, rfl⟩
    · cases h
    · obtain rfl : parser' = parser := Option.some.inj (hok.parser_eq.symm.trans hfind)
      have hid : act.id = id := hok.id_eq.trans (howns acc hok.read_eq).2
      rw [getStatus, statDict_statusSet, AccountObject.idAsString, hid,
        Std.ExtTreeMap.getD_insert_self]

/-- A directory with an empty file. -/
def emptyFileWorld : World YamlText where
  files _ := (∅ : StrMap YamlText).insert
    (AccountParser.accountFile referenceEnv 7) (.whole .null)

/-- An empty file is accepted, as an account without an id. -/
theorem empty_file_is_accepted : ¬∀ (env : Env YamlText) (w : World YamlText)
    (parser : AccountParser) (id : Uuid), AcceptsOwn env w parser id ∧
      (findParser env w id false = some parser → StatusTakes env w id) := by
  intro h
  obtain ⟨howns, -⟩ := h referenceEnv emptyFileWorld { path := "/accounts", readonly := false } 7
  have hread : AccountParser.read referenceEnv emptyFileWorld
      { path := "/accounts", readonly := false } 7 {} = .ok {} :=
    AccountParser.read_ok_iff.2 ⟨.whole .null, Std.ExtTreeMap.getElem?_insert_self, rfl⟩
  have hid : Uuid.null = 7 := (howns {} hread).2
  exact absurd hid (by decide)

end PxAccounts
