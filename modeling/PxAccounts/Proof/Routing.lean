import PxAccounts.Proof.Storage

/-!
# Which directory an account is in

The directories are tried in order, the user's before the read-only ones, and no two are the same.
So the directory an account is written to is the one it is read from.
-/

namespace PxAccounts

open Effect AccountManager
open AccountObject (Lenient rest lenient_rest)

variable {Text : Type} {env : Env Text}

/-- Every file that reads as an account carries the id of its name. -/
def InnerIds (env : Env Text) (w : World Text) : Prop :=
  ∀ parser ∈ env.parsers, ∀ id acc, parser.read env w id {} = .ok acc → acc.id = id

theorem InnerIds.congr {w w' : World Text} (h : InnerIds env w) (hfiles : w'.files = w.files) :
    InnerIds env w' := fun parser hp id acc hread =>
  h parser hp id acc (by rwa [AccountParser.read_congr (World.fileAt_congr hfiles _)] at hread)

theorem nodup_parsers (env : Env Text) : (env.parsers.map AccountParser.path).Nodup := by
  have h : env.parsers.map AccountParser.path = env.userPaths ++ env.readonlyPaths := by
    simp [Env.parsers, Function.comp_def]
  rw [h]
  exact env.paths_nodup

theorem path_injective {p q : AccountParser} (hp : p ∈ env.parsers) (hq : q ∈ env.parsers)
    (h : p.path = q.path) : p = q := List.inj_on_of_nodup_map (nodup_parsers env) hp hq h

/-- The null id is taken to be in every directory, so that a new account goes to the first one. -/
theorem parsers_of_findParser_null {w : World Text} {p : AccountParser}
    (h : findParser env w Uuid.null true = some p) : ∃ rest, env.parsers = p :: rest := by
  have hnull : uuidIsNull Uuid.null = true := rfl
  simp only [findParser, Env.parsers, hnull, Bool.or_true, Bool.and_true, Bool.not_true,
    Bool.false_or, List.find?_append] at h ⊢
  cases hu : env.userPaths with
  | nil =>
    have hro : List.find? (fun parser : AccountParser => !parser.readonly)
        (env.readonlyPaths.map fun path => { path, readonly := true }) = none := by
      simp
    rw [hu, hro] at h
    cases h
  | cons path paths =>
    rw [hu] at h
    simp only [List.map_cons, List.find?_cons, Bool.not_false, Option.some_or,
      Option.some.injEq] at h
    subst h
    exact ⟨_, rfl⟩

/-- The directory found for writing is the one found for reading. -/
theorem findParser_false_of_true {w : World Text} {id : Uuid} {p : AccountParser}
    (h : findParser env w id true = some p) : findParser env w id false = some p := by
  have hro : List.find? (fun parser : AccountParser => (!true || !parser.readonly) &&
      (parser.hasAccount env w id || uuidIsNull id))
      (env.readonlyPaths.map fun path => { path, readonly := true }) = none := by
    simp
  rw [findParser, Env.parsers, List.find?_append, hro, Option.or_none] at h
  rw [findParser, Env.parsers, List.find?_append]
  have huser : List.find? (fun parser : AccountParser => (!false || !parser.readonly) &&
      (parser.hasAccount env w id || uuidIsNull id))
      (env.userPaths.map fun path => { path, readonly := false }) = some p := by
    rw [← h]
    refine List.find?_congr fun parser hp => ?_
    obtain ⟨path, -, rfl⟩ := List.mem_map.1 hp
    rfl
  rw [huser, Option.some_or]

/-- The directory `p` is the first to have the account, or the first of all. -/
def RoutedTo (env : Env Text) (w : World Text) (id : Uuid) (p : AccountParser) : Prop :=
  findParser env w id true = some p ∨ findParser env w Uuid.null true = some p

theorem RoutedTo.congr {w w' : World Text} {id : Uuid} {p : AccountParser}
    (h : RoutedTo env w id p) (hfiles : w'.files = w.files) : RoutedTo env w' id p := by
  have hcongr : ∀ id, findParser env w' id true = findParser env w id true := fun id =>
    findParser_congr fun parser _ => AccountParser.hasAccount_congr (by rw [hfiles])
  rwa [RoutedTo, hcongr, hcongr]

theorem RoutedTo.mem {w : World Text} {id : Uuid} {p : AccountParser}
    (h : RoutedTo env w id p) : p ∈ env.parsers := by
  rcases h with h | h <;> exact (findParser_some h).1

/-- An account that was written is found where it was written. -/
theorem findParser_written {w : World Text} {id : Uuid} {p : AccountParser} {data : Text}
    (hid : uuidIsNull id = false) (hrouted : RoutedTo env w id p)
    (hex : ((w.written env (p.accountPath env id) data).fileAt (p.accountPath env id)).isSome) :
    findParser env (w.written env (p.accountPath env id) data) id false = some p := by
  have hsplit : ∃ l₁ l₂, env.parsers = l₁ ++ p :: l₂ ∧
      ∀ q ∈ l₁, q.hasAccount env w id = false := by
    rcases hrouted with h | h
    · obtain ⟨-, l₁, l₂, hl, hl₁⟩ := List.find?_eq_some_iff_append.1 (findParser_false_of_true h)
      exact ⟨l₁, l₂, hl, fun q hq => by simpa [hid] using hl₁ q hq⟩
    · obtain ⟨rest, hrest⟩ := parsers_of_findParser_null h
      exact ⟨[], rest, hrest, by simp⟩
  obtain ⟨l₁, l₂, hl, hl₁⟩ := hsplit
  refine List.find?_eq_some_iff_append.2 ⟨?_, l₁, l₂, hl, fun q hq => ?_⟩
  · rw [AccountParser.hasAccount_of_isSome hex]
    rfl
  · have hne : q.path ≠ p.path := by
      have hnodup := nodup_parsers env
      rw [hl, List.map_append, List.map_cons, List.nodup_append] at hnodup
      exact hnodup.2.2 _ (List.mem_map_of_mem hq) _ (by simp)
    have hsame : q.hasAccount env (w.written env (p.accountPath env id) data) id =
        q.hasAccount env w id :=
      AccountParser.hasAccount_congr (by
        rw [World.files_written, Function.update_of_ne (by exact hne)])
    rw [hsame, hl₁ q hq, hid]
    rfl

/-! ## The operations of a run -/

/-- The operations that change accounts or their status. -/
inductive Op
  | create (act : AccountObject)
  | modify (id : Uuid) (act : AccountObject)
  | delete (id : Uuid)
  | setStatus (id : Uuid) (stat : AccountStatus)

namespace Op

def run (env : Env Text) : Op → M Text Bool
  | .create act => do return (← createAccount env act).1
  | .modify id act => do return (← modifyAccount env id act).1
  | .delete id => deleteAccount env id
  | .setStatus id stat => AccountManager.setStatus env id stat

/-- The account an operation is about; a creation is about the id generated for it. -/
def subject (env : Env Text) (w : World Text) : Op → Uuid
  | .create _ => env.uuidGenerate w.tick
  | .modify id _ => id
  | .delete id => id
  | .setStatus id _ => id

theorem run_create_ok {act : AccountObject} {b : Bool} {w w' : World Text} :
    (run env (.create act)).run w = .ok b w' ↔
      ∃ act', (createAccount env act).run w = .ok (b, act') w' := by
  simp only [run, run_bind_ok, run_pure_ok]
  constructor
  · rintro ⟨⟨b', act'⟩, s, hr, rfl, rfl⟩
    exact ⟨act', hr⟩
  · rintro ⟨act', hr⟩
    exact ⟨(b, act'), w', hr, rfl, rfl⟩

theorem run_modify_ok {id : Uuid} {act : AccountObject} {b : Bool} {w w' : World Text} :
    (run env (.modify id act)).run w = .ok b w' ↔
      ∃ act', (modifyAccount env id act).run w = .ok (b, act') w' := by
  simp only [run, run_bind_ok, run_pure_ok]
  constructor
  · rintro ⟨⟨b', act'⟩, s, hr, rfl, rfl⟩
    exact ⟨act', hr⟩
  · rintro ⟨act', hr⟩
    exact ⟨(b, act'), w', hr, rfl, rfl⟩

end Op

/-! ## The account that passed verification -/

theorem details_of_verify {act act' : AccountObject} {b : Bool} {w w' : World Text}
    (hr : (act.verify env).run w = .ok (b, act') w') : AccountObject.SameDetails act act' := by
  rcases AccountObject.verify_ok hr with ⟨-, -, hdetails, -⟩ | ⟨-, w₁, hservices, -⟩
  · exact hdetails
  · exact (AccountObject.sameDetails_prepared act).trans
      (AccountObject.verifyServices_ok hservices).1

theorem id_of_verify {act act' : AccountObject} {b : Bool} {w w' : World Text}
    (hr : (act.verify env).run w = .ok (b, act') w') : act'.id = act.id :=
  congrArg Owner.id (details_of_verify hr).owner_eq

/-- Every service of an account that was accepted is registered. -/
theorem registered_of_verify {act act' : AccountObject} {w w' : World Text}
    (hr : (act.verify env).run w = .ok (true, act') w') :
    ∀ svcName ∈ act'.services, (env.pluginNamed svcName).isSome := by
  intro svcName hmem
  rcases AccountObject.verify_ok hr with ⟨hf, -⟩ | ⟨-, w₁, hservices, -⟩
  · cases hf
  · obtain ⟨-, -, hout⟩ := AccountObject.verifyServices_ok hservices
    obtain ⟨svc', hsvc'⟩ := Option.isSome_iff_exists.1
      (Std.ExtTreeMap.mem_iff_isSome_getElem?.1 hmem)
    obtain ⟨svc, -, -, hdone⟩ := hout svcName svc' hsvc'
    exact (hdone rfl).1

/-! ## The status set after a write -/

/-- A status set right after a write goes to the account that was written, unless the text that was
left reads as another account. -/
theorem statDict_of_written {w₁ w₂ : World Text} {p : AccountParser} {act' : AccountObject}
    {stat : AccountStatus} {b : Bool} (hinner : InnerIds env w₁)
    (hreg : ∀ svcName ∈ act'.services, (env.pluginNamed svcName).isSome)
    (hst : (AccountManager.setStatus env act'.id stat).run (w₁.written env
      (p.accountPath env act'.id) (documentText env act')) = .ok b w₂) :
    (∀ id', id' ≠ act'.id →
        w₂.statDict[env.uuidAsString id']? = w₁.statDict[env.uuidAsString id']?) ∨
      ∃ count acc, env.writeFile w₁.tick (p.accountPath env act'.id) (documentText env act') =
          .cutShort count ∧
        AccountParser.readText env (env.yaml.cut (documentText env act') count) {} = .ok acc ∧
        acc.id ≠ act'.id := by
  rcases setStatus_ok hst with ⟨-, -, errs, rfl⟩ | ⟨q, acc, act, w₃, -, hok, rfl⟩
  · exact .inl fun id' _ => rfl
  have hkeys : ∀ id', id' ≠ acc.id → (statusSet env w₃ act stat).statDict[env.uuidAsString id']? =
      w₁.statDict[env.uuidAsString id']? := by
    intro id' hne
    have hne' : env.uuidAsString acc.id ≠ env.uuidAsString id' := fun he =>
      hne (env.uuid.unparse_inj he).symm
    rw [statDict_statusSet, AccountObject.idAsString, hok.id_eq, TreeMap.getElem?_insert_of_ne hne',
      hok.silent.statDict]
    rfl
  by_cases hid : acc.id = act'.id
  · exact .inl fun id' hne => hkeys id' (hid ▸ hne)
  refine .inr ?_
  have hq : q ∈ env.parsers := (findParser_some hok.parser_eq).1
  obtain ⟨text, hfile, htext⟩ := AccountParser.read_ok_iff.1 hok.read_eq
  have hold : w₁.fileAt (q.accountPath env act'.id) ≠ some text := fun h =>
    hid (hinner q hq _ acc (AccountParser.read_ok_iff.2 ⟨text, h, htext⟩))
  by_cases hpath : q.accountPath env act'.id = p.accountPath env act'.id
  · rw [hpath] at hold
    rw [hpath, World.fileAt_written_self] at hfile
    cases hout : env.writeFile w₁.tick (p.accountPath env act'.id) (documentText env act') with
    | notOpened =>
      rw [hout] at hfile
      exact absurd hfile hold
    | cutShort count =>
      rw [hout] at hfile
      cases hfile
      exact ⟨count, acc, rfl, htext, hid⟩
    | complete =>
      rw [hout] at hfile
      cases hfile
      have hstored : AccountParser.readText env (documentText env act') {} =
          .ok (AccountParser.stored env act') := by
        rw [AccountParser.readText, documentText,
          env.yaml.load_emit _ (AccountParser.document_plain env act')]
        exact AccountParser.readDocument_document hreg
      rw [hstored] at htext
      cases htext
      exact absurd rfl hid
  · exact absurd (by rwa [World.fileAt_written_of_ne _ _ hpath] at hfile) hold

/-- When the file that was written reads as an account, that account gets the status. -/
theorem status_of_written {w₁ w₂ : World Text} {p : AccountParser} {id : Uuid} {data text : Text}
    {stat : AccountStatus} {b : Bool} {acc : AccountObject} (hid : uuidIsNull id = false)
    (hrouted : RoutedTo env w₁ id p)
    (hfile : (w₁.written env (p.accountPath env id) data).fileAt (p.accountPath env id) = some text)
    (htext : AccountParser.readText env text {} = .ok acc)
    (hst : (AccountManager.setStatus env id stat).run
      (w₁.written env (p.accountPath env id) data) = .ok b w₂) :
    b = true ∧ ∃ act w₃, ReadOk env (w₁.written env (p.accountPath env id) data) id p acc act w₃ ∧
      w₂ = statusSet env w₃ act stat := by
  have hfind : findParser env (w₁.written env (p.accountPath env id) data) id false = some p :=
    findParser_written hid hrouted (by rw [hfile]; rfl)
  have hread := AccountParser.read_ok_iff.2 ⟨_, hfile, htext⟩
  rcases setStatus_ok hst with ⟨-, hnone, -⟩ | ⟨q, acc', act, w₃, hb, hok, hw₂⟩
  · exact absurd hread (hnone p hfind acc)
  · have hq : p = q := Option.some.inj (hfind.symm.trans hok.parser_eq)
    subst hq
    have hacc : acc = acc' := Except.ok.inj (hread.symm.trans hok.read_eq)
    subst hacc
    exact ⟨hb, act, w₃, hok, hw₂⟩

/-! ## A call that saved an account -/

section Saved

variable {p : AccountParser} {act' : AccountObject} {event : String} {w w₁ w₂ w' : World Text}
  {b : Bool}

/-- A call that verified an account, wrote it, set its status and at last published an event. -/
structure SavedVia (env : Env Text) (p : AccountParser) (act' : AccountObject) (event : String)
    (w w₁ w₂ w' : World Text) (b : Bool) : Prop where
  before : rest w₁ = rest w
  calls₁ : (callsOf fun c => ¬c.IsOutput).rel w w₁
  notNull : uuidIsNull act'.id = false
  routed : RoutedTo env w₁ act'.id p
  registered : ∀ svcName ∈ act'.services, (env.pluginNamed svcName).isSome
  status : (setStatus env act'.id .none).run (w₁.written env (p.accountPath env act'.id)
    (documentText env act')) = .ok b w₂
  calls₂ : (callsOf Call.WritesNothing).rel w₂ w'
  announced : ∃ w₃ account, rest w₃ = rest w₂ ∧ account.id = act'.id ∧
    w' = w₃.published env event (EventManager.accountParams env account)

theorem SavedVia.files₁ (h : SavedVia env p act' event w w₁ w₂ w' b) : w₁.files = w.files :=
  congrArg Prod.fst h.before

theorem SavedVia.statDict₁ (h : SavedVia env p act' event w w₁ w₂ w' b) :
    w₁.statDict = w.statDict := congrArg (·.2.1) h.before

theorem SavedVia.files₂ (h : SavedVia env p act' event w w₁ w₂ w' b) : w'.files = w₂.files := by
  obtain ⟨w₃, account, hrest, -, rfl⟩ := h.announced
  exact (World.files_published _ _ _).trans (congrArg Prod.fst hrest)

theorem SavedVia.statDict₂ (h : SavedVia env p act' event w w₁ w₂ w' b) :
    w'.statDict = w₂.statDict := by
  obtain ⟨w₃, account, hrest, -, rfl⟩ := h.announced
  exact (World.statDict_published _ _ _).trans (congrArg (·.2.1) hrest)

theorem SavedVia.saved (h : SavedVia env p act' event w w₁ w₂ w' b) :
    Saved env w act' w' (p.accountPath env act'.id)
      (env.writeFile w₁.tick (p.accountPath env act'.id) (documentText env act')) := by
  obtain ⟨hfiles, hcalls⟩ := setStatus_writesNothing h.status
  exact saved_of_written rfl h.files₁ h.calls₁ (h.files₂.trans hfiles)
    ((callsOf _).trans hcalls h.calls₂)

end Saved

theorem savedVia_of_created {p : AccountParser} {act act' : AccountObject} {id : Uuid}
    {w w₁ w₂ : World Text} {b : Bool} (hfind : findParser env w Uuid.null true = some p)
    (hverify : (AccountObject.verify env { act with id := id }).run
      (w.record (.uuidGenerate id)) = .ok (true, act') w₁)
    (hid : uuidIsNull act'.id = false)
    (hstatus : (setStatus env id .none).run (w₁.written env (p.accountPath env act'.id)
      (env.yaml.emit (AccountParser.document env act'))) = .ok b w₂) :
    SavedVia env p act' "account_create" w w₁ w₂
      (w₂.published env "account_create" (EventManager.accountParams env act')) b := by
  have hgen : w.Silent (w.record (.uuidGenerate id)) := fun F hF => hF.record _ _ trivial
  have hactid : act'.id = id := id_of_verify hverify
  obtain ⟨hfiles, hcalls⟩ := verify_noOutput hverify
  have hrest := ((lenient_rest env).verify _).rel_of_ok hverify
  rw [← hactid] at hstatus
  exact ⟨hrest, (callsOf _).trans (silent_noOutput env hgen) hcalls, hid,
    RoutedTo.congr (.inr hfind) hfiles, registered_of_verify hverify, hstatus,
    published_writesNothing _ _ _, w₂, act', rfl, rfl, rfl⟩

theorem savedVia_of_modified {p q : AccountParser} {act act' acc oldAct : AccountObject} {id : Uuid}
    {w w₁ w₂ w₃ w₄ : World Text} {b : Bool} (hok : ReadOk env w id q acc oldAct w₁)
    (hfind : findParser env w₁ oldAct.id true = some p) (holdid : oldAct.id = id)
    (hverify : (AccountObject.verify env { act with id := id }).run w₁ = .ok (true, act') w₂)
    (hid : uuidIsNull act'.id = false)
    (hstatus : (setStatus env oldAct.id .none).run (w₂.written env (p.accountPath env act'.id)
      (env.yaml.emit (AccountParser.document env act'))) = .ok b w₃)
    (hclean : (oldAct.cleanup env act').run w₃ = .ok true w₄) :
    SavedVia env p act' "account_modify" w w₂ w₃
      (w₄.published env "account_modify" (EventManager.accountParams env oldAct)) b := by
  have hactid : act'.id = id := id_of_verify hverify
  have hcleancalls := ((lenient_callsOf env fun c => Call.writesNothing_of_not_isOutput).cleanup
    oldAct act').rel_of_ok hclean
  obtain ⟨hfiles, hcalls⟩ := verify_noOutput hverify
  have hread : rest w₁ = rest w := hok.silent _ (lenient_rest env).toQuiet
  have hrest : rest w₂ = rest w₁ := ((lenient_rest env).verify _).rel_of_ok hverify
  have hcleanrest : rest w₄ = rest w₃ := ((lenient_rest env).cleanup oldAct act').rel_of_ok hclean
  rw [holdid, ← hactid] at hstatus hfind
  exact ⟨hrest.trans hread, (callsOf _).trans (silent_noOutput env hok.silent) hcalls, hid,
    RoutedTo.congr (.inl hfind) hfiles, registered_of_verify hverify, hstatus,
    (callsOf _).trans hcleancalls (published_writesNothing _ _ _), w₄, oldAct, hcleanrest,
    holdid.trans hactid.symm, rfl⟩

/-! ## An account under the null id -/

/-- A directory with an account under the null uuid, which is online. -/
def nullAccountWorld : World YamlText where
  files := fun _ => (∅ : StrMap YamlText).insert (AccountParser.accountFile referenceEnv Uuid.null)
    (.whole (AccountParser.document referenceEnv { title := "Null" }))
  statDict := (∅ : StrMap AccountStatus).insert (referenceEnv.uuidAsString Uuid.null) .online

theorem read_nullAccountWorld {answers : Answers YamlText} {parser : AccountParser} {id : Uuid}
    {acc : AccountObject}
    (h : parser.read { referenceConfig, answers with } nullAccountWorld id {} = .ok acc) :
    id = Uuid.null ∧ acc = { title := "Null" } := by
  obtain ⟨text, hfile, htext⟩ := AccountParser.read_ok_iff.1 h
  rw [World.fileAt, AccountParser.accountPath] at hfile
  by_cases hid : AccountParser.accountFile referenceEnv Uuid.null =
      AccountParser.accountFile referenceEnv id
  · have hnull := AccountParser.accountFile_inj hid
    subst hnull
    have hdoc : text = .whole (AccountParser.document referenceEnv { title := "Null" }) :=
      (Option.some.inj ((Std.ExtTreeMap.getElem?_insert_self.symm).trans hfile)).symm
    subst hdoc
    have hread : AccountParser.readDocument { referenceConfig, answers with }
        (AccountParser.document { referenceConfig, answers with } { title := "Null" }) {} =
        .ok (AccountParser.stored { referenceConfig, answers with } { title := "Null" }) :=
      AccountParser.readDocument_document (by simp)
    cases hread.symm.trans htext
    refine ⟨rfl, ?_⟩
    simp [AccountParser.stored, Uuid.null]
  · have hget : nullAccountWorld.fileAt
        (parser.accountPath { referenceConfig, answers with } id) = none :=
      (TreeMap.getElem?_insert_of_ne hid).trans Std.ExtTreeMap.getElem?_empty
    cases hget.symm.trans hfile

theorem innerIds_nullAccountWorld (answers : Answers YamlText) :
    InnerIds { referenceConfig, answers with } nullAccountWorld := by
  intro parser _ id acc h
  obtain ⟨rfl, rfl⟩ := read_nullAccountWorld h
  rfl

end PxAccounts
