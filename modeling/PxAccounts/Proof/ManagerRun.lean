import PxAccounts.Proof.ObjectRun
import PxAccounts.Proof.WorldSteps

/-!
# Runs of the operations

For each operation of the account manager: the ways in which a call that returns can have gone, with
the states it passed through.
-/

namespace PxAccounts

open Effect

variable {Text : Type} {env : Env Text}

/-! ## Inversion of the small steps -/

namespace AccountManager

open World

theorem addErrorList_ok {errs : StringList} {w w' : World Text} {u : Unit} :
    (addErrorList errs).run w = .ok u w' ↔ w' = w.addErrors errs := by
  rw [addErrorList, modify, run_modifyGet_ok]
  exact ⟨fun h => h.2.symm, fun h => ⟨rfl, h.symm⟩⟩

theorem findParser_some {w : World Text} {id : Uuid} {onlyWritables : Bool}
    {parser : AccountParser} (h : findParser env w id onlyWritables = some parser) :
    parser ∈ env.parsers ∧ (onlyWritables = true → parser.readonly = false) ∧
      (parser.hasAccount env w id = true ∨ uuidIsNull id = true) := by
  have hfound := List.find?_some h
  rw [Bool.and_eq_true, Bool.or_eq_true, Bool.or_eq_true] at hfound
  refine ⟨List.mem_of_find?_eq_some h, fun honly => ?_, hfound.2⟩
  simpa [honly] using hfound.1

/-- The services of an account keep their links in the custom reads. -/
theorem performCustomRead_ok {svc svc' : AccountService} {w w' : World Text}
    (hr : (svc.performCustomRead env).run w = .ok svc' w') :
    svc'.link = svc.link ∧ Silent w w' := by
  rw [AccountService.performCustomRead] at hr
  cases hparam : svc.params[pluginIdParam]? with
  | none =>
    rw [hparam, run_pure_ok] at hr
    obtain ⟨rfl, rfl⟩ := hr
    exact ⟨rfl, .refl _⟩
  | some pluginId =>
    simp only [hparam] at hr
    obtain ⟨plugin, w₁, hderef, hr⟩ := run_bind_ok.1 hr
    obtain ⟨-, rfl⟩ := AccountService.derefPlugin_ok hderef
    obtain ⟨result, w₂, hread, hr⟩ := run_bind_ok.1 hr
    have hsilent : Silent w w₂ := fun F hF =>
      ((within_callRead hF plugin pluginId).bind fun _ => within_pure _).rel_of_ok hread
    cases result with
    | ok params =>
      rw [run_pure_ok] at hr
      obtain ⟨rfl, rfl⟩ := hr
      exact ⟨rfl, hsilent⟩
    | error what =>
      rw [run_pure_ok] at hr
      obtain ⟨rfl, rfl⟩ := hr
      exact ⟨rfl, hsilent⟩

/-- The custom reads change the parameters of services only. -/
structure ReadBack (acc act : AccountObject) : Prop where
  details : act = { acc with services := act.services }
  links : ∀ name : String, act.services[name]?.map AccountService.link =
    acc.services[name]?.map AccountService.link

theorem readServices_ok {acc act : AccountObject} {w w' : World Text}
    (hr : (readServices env acc).run w = .ok act w') : ReadBack acc act ∧ Silent w w' := by
  have hend := foldlM_ok_induction (fun l act s => (∀ kv ∈ l, acc.services[kv.1]? = some kv.2) ∧
    ReadBack acc act ∧ Silent w s) ?_ acc.services.toList
    (b := acc) (s := w) ⟨fun kv hkv => Std.ExtTreeMap.mem_toList_iff_getElem?_eq_some.1 hkv,
      ⟨rfl, fun _ => rfl⟩, .refl w⟩ hr
  · exact hend.2
  · rintro ⟨name, svc⟩ l act s act' s' ⟨hl, hback, hsilent⟩ hs
    simp only [run_bind_ok, run_pure_ok] at hs
    obtain ⟨svc', s₁, hread, rfl, rfl⟩ := hs
    obtain ⟨hlink, hsilent'⟩ := performCustomRead_ok hread
    refine ⟨fun kv hkv => hl kv (by simp [hkv]), ⟨?_, fun name' => ?_⟩, hsilent.trans hsilent'⟩
    · rw [hback.details]
    · by_cases he : name = name'
      · subst he
        have hname : acc.services[name]? = some svc := hl (name, svc) (by simp)
        rw [Std.ExtTreeMap.getElem?_insert_self, hname, Option.map_some, Option.map_some, hlink]
      · rw [TreeMap.getElem?_insert_of_ne he]
        exact hback.links name'

/-- A read that succeeded: the account in the file, and what the custom reads made of it. -/
structure ReadOk (env : Env Text) (w : World Text) (id : Uuid) (parser : AccountParser)
    (acc act : AccountObject) (w' : World Text) : Prop where
  parser_eq : findParser env w id false = some parser
  read_eq : parser.read env w id {} = .ok acc
  run_eq : (readServices env acc).run w = .ok act w'

theorem ReadOk.back {w w' : World Text} {id : Uuid} {parser : AccountParser}
    {acc act : AccountObject} (h : ReadOk env w id parser acc act w') : ReadBack acc act :=
  (readServices_ok h.run_eq).1

theorem ReadOk.silent {w w' : World Text} {id : Uuid} {parser : AccountParser}
    {acc act : AccountObject} (h : ReadOk env w id parser acc act w') : Silent w w' :=
  (readServices_ok h.run_eq).2

theorem ReadOk.id_eq {w w' : World Text} {id : Uuid} {parser : AccountParser}
    {acc act : AccountObject} (h : ReadOk env w id parser acc act w') : act.id = acc.id := by
  rw [h.back.details]

theorem readAccount_ok {id : Uuid} {r : Option AccountObject} {w w' : World Text}
    (hr : (readAccount env id).run w = .ok r w') :
    (r = none ∧ (∀ parser, findParser env w id false = some parser →
        ∀ acc, parser.read env w id {} ≠ .ok acc) ∧ ∃ errs, w' = w.addErrors errs) ∨
      ∃ parser acc act, r = some act ∧ ReadOk env w id parser acc act w' := by
  simp only [readAccount] at hr
  obtain ⟨w₀, w₁, hget, hr⟩ := run_bind_ok.1 hr
  cases hget
  cases hfind : findParser env w id false with
  | none =>
    simp only [hfind, addError, run_bind_ok, addErrorList_ok, run_pure_ok] at hr
    obtain ⟨_, _, rfl, rfl, rfl⟩ := hr
    exact .inl ⟨rfl, by simp, _, rfl⟩
  | some parser =>
    simp only [hfind] at hr
    obtain ⟨w₀, w₁, hget, hr⟩ := run_bind_ok.1 hr
    cases hget
    cases hread : parser.read env w id {} with
    | error errs =>
      simp only [hread, addError, run_bind_ok, addErrorList_ok, run_pure_ok] at hr
      obtain ⟨_, _, rfl, _, _, rfl, rfl, rfl⟩ := hr
      refine .inl ⟨rfl, ?_, _, addErrors_addErrors _ _ _⟩
      rintro parser' he acc hacc
      cases he
      rw [hread] at hacc
      cases hacc
    | ok acc =>
      simp only [hread, run_bind_ok, run_pure_ok] at hr
      obtain ⟨act, w₁, hrun, rfl, rfl⟩ := hr
      exact .inr ⟨parser, acc, act, rfl, hfind, hread, hrun⟩

theorem ReadOk.run_readAccount {w w' : World Text} {id : Uuid} {parser : AccountParser}
    {acc act : AccountObject} (h : ReadOk env w id parser acc act w') :
    (readAccount env id).run w = .ok (some act) w' := by
  simp only [readAccount]
  refine run_bind_ok.2 ⟨w, w, rfl, ?_⟩
  rw [h.parser_eq]
  refine run_bind_ok.2 ⟨w, w, rfl, ?_⟩
  rw [h.read_eq]
  exact run_bind_ok.2 ⟨act, w', h.run_eq, rfl⟩

end AccountManager

theorem EventManager.emit_ok {event : String} {params : StrStrMap} {b : Bool}
    {w w' : World Text} (hr : (EventManager.emit env event params).run w = .ok b w') :
    env.eventManagerInited = true ∧ w' = w.published env event params := by
  simp only [EventManager.emit] at hr
  split at hr
  · exact absurd hr run_throw_ne_ok
  next hinit =>
    rw [Bool.not_eq_true', Bool.not_eq_false] at hinit
    obtain ⟨w₀, w₁, hget, hr⟩ := run_bind_ok.1 hr
    cases hget
    simp only [run_bind_ok, run_pure_ok] at hr
    obtain ⟨delivery, w₁, hemit, -, rfl⟩ := hr
    exact ⟨hinit, (congrArg final hemit).symm⟩

theorem AccountParser.write_ok {parser : AccountParser} {account : AccountObject} {b : Bool}
    {w w' : World Text} (hr : (parser.write env account).run w = .ok b w') :
    (b = false ∧ w = w' ∧ (uuidIsNull account.id = true ∨ parser.readonly = true)) ∨
      (b = true ∧ uuidIsNull account.id = false ∧ parser.readonly = false ∧
        w' = w.written env (parser.accountPath env account.id)
          (env.yaml.emit (document env account))) := by
  simp only [AccountParser.write] at hr
  split at hr
  next hid =>
    rw [run_pure_ok] at hr
    obtain ⟨rfl, rfl⟩ := hr
    exact .inl ⟨rfl, rfl, .inl hid⟩
  next hid =>
    split at hr
    next hro =>
      rw [run_pure_ok] at hr
      obtain ⟨rfl, rfl⟩ := hr
      exact .inl ⟨rfl, rfl, .inr hro⟩
    next hro =>
      simp only [FILE.write, run_bind_ok, run_pure_ok] at hr
      obtain ⟨outcome, w₁, hwrite, rfl, rfl⟩ := hr
      refine .inr ⟨rfl, by simpa using hid, by simpa using hro, ?_⟩
      rw [World.written, hwrite]
      rfl

theorem AccountParser.remove_ok {parser : AccountParser} {id : Uuid} {b : Bool}
    {w w' : World Text} (hr : (parser.remove env id).run w = .ok b w') :
    (b = false ∧ w = w') ∨
      (parser.readonly = false ∧ (w.fileAt (parser.accountPath env id)).isSome ∧
        b = env.removeFile w.tick (parser.accountPath env id) ∧
        w' = w.unlinked env (parser.accountPath env id)) := by
  simp only [AccountParser.remove] at hr
  split at hr
  next hro =>
    rw [run_pure_ok] at hr
    exact .inl ⟨hr.1.symm, hr.2⟩
  next hro =>
    obtain ⟨w₀, w₁, hget, hr⟩ := run_bind_ok.1 hr
    cases hget
    split at hr
    next hex =>
      rw [run_pure_ok] at hr
      exact .inl ⟨hr.1.symm, hr.2⟩
    next hex =>
      have hex' : (w.fileAt (parser.accountPath env id)).isSome = true := by
        simpa only [FILE.fileExists, Bool.not_eq_true', Bool.not_eq_false] using hex
      rw [FILE.remove] at hr
      refine .inr ⟨by simpa using hro, hex', ?_, ?_⟩
      · rw [Env.callRemoveFile, run_modifyGet_ok] at hr
        rw [← hr.1, hex', Bool.true_and]
      · rw [World.unlinked, hr]
        rfl

theorem AccountParser.remove_false {parser : AccountParser} {id : Uuid} {w w' : World Text}
    (hr : (parser.remove env id).run w = .ok false w') :
    w' = w ∨ w' = w.record (.removeFile (parser.accountPath env id) false) := by
  rcases AccountParser.remove_ok hr with ⟨-, rfl⟩ | ⟨-, -, hrm, rfl⟩
  · exact .inl rfl
  · exact .inr (World.unlinked_of_kept _ _ hrm.symm)

theorem AccountParser.remove_true {parser : AccountParser} {id : Uuid} {w w' : World Text}
    (hr : (parser.remove env id).run w = .ok true w') :
    parser.readonly = false ∧ (w.fileAt (parser.accountPath env id)).isSome ∧
      w' = (w.erased (parser.accountPath env id)).record
        (.removeFile (parser.accountPath env id) true) := by
  rcases AccountParser.remove_ok hr with ⟨hf, -⟩ | ⟨hro, hex, hrm, rfl⟩
  · cases hf
  · exact ⟨hro, hex, World.unlinked_of_removed _ _ hex hrm.symm⟩

namespace AccountManager

open World

/-! ## Setting a status -/

/-- The state after a status is set: an event is published if it is a new one. -/
def statusSet (env : Env Text) (w : World Text) (act : AccountObject) (stat : AccountStatus) :
    World Text :=
  let strId := act.idAsString env
  let oldStat := w.statDict.getD strId .none
  if oldStat ≠ stat then
    (w.setStat strId stat).published env "account_status_change"
      (((EventManager.accountParams env act).insert "old" (accountStatusString oldStat)).insert "new"
        (accountStatusString stat))
  else w.setStat strId stat

@[simp] theorem files_statusSet (w : World Text) (act : AccountObject) (stat : AccountStatus) :
    (statusSet env w act stat).files = w.files := by
  rw [statusSet]
  split <;> simp

@[simp] theorem secrets_statusSet (w : World Text) (act : AccountObject) (stat : AccountStatus) :
    (statusSet env w act stat).secrets = w.secrets := by
  rw [statusSet]
  split <;> simp

@[simp] theorem records_statusSet (w : World Text) (act : AccountObject) (stat : AccountStatus) :
    (statusSet env w act stat).records = w.records := by
  rw [statusSet]
  split <;> simp

theorem statDict_statusSet (w : World Text) (act : AccountObject) (stat : AccountStatus) :
    (statusSet env w act stat).statDict = w.statDict.insert (act.idAsString env) stat := by
  rw [statusSet]
  split <;> simp

theorem setStatus_ok {id : Uuid} {stat : AccountStatus} {b : Bool} {w w' : World Text}
    (hr : (setStatus env id stat).run w = .ok b w') :
    (b = false ∧ (∀ parser, findParser env w id false = some parser →
        ∀ acc, parser.read env w id {} ≠ .ok acc) ∧ ∃ errs, w' = w.addErrors errs) ∨
      ∃ parser acc act w₁, b = true ∧ ReadOk env w id parser acc act w₁ ∧
        w' = statusSet env w₁ act stat := by
  simp only [setStatus] at hr
  obtain ⟨r, w₁, hread, hr⟩ := run_bind_ok.1 hr
  rcases readAccount_ok hread with ⟨rfl, hnone, hw₁⟩ | ⟨parser, acc, act, rfl, hok⟩
  · rw [run_pure_ok] at hr
    obtain ⟨rfl, rfl⟩ := hr
    exact .inl ⟨rfl, hnone, hw₁⟩
  · refine .inr ⟨parser, acc, act, w₁, ?_⟩
    obtain ⟨w₀, w₂, hget, hr⟩ := run_bind_ok.1 hr
    cases hget
    obtain ⟨_, w₂, hset, hr⟩ := run_bind_ok.1 hr
    rw [modify, run_modifyGet_ok] at hset
    obtain ⟨-, rfl⟩ := hset
    rw [statusSet]
    split at hr
    next hne =>
      obtain ⟨_, w₂, hemit, hr⟩ := run_bind_ok.1 hr
      rw [run_pure_ok] at hr
      obtain ⟨rfl, rfl⟩ := hr
      rw [if_pos hne]
      exact ⟨rfl, hok, (EventManager.emit_ok hemit).2⟩
    next heq =>
      rw [run_pure_ok] at hr
      obtain ⟨rfl, rfl⟩ := hr
      rw [if_neg heq]
      exact ⟨rfl, hok, rfl⟩

/-! ## Creation -/

theorem checkLimits_ok {registered : List AccountObject} {l : List (String × AccountService)}
    {b : Bool} {w w' : World Text} (hr : (checkLimits registered l).run w = .ok b w') :
    (b = true ∧ w = w') ∨ (b = false ∧ ∃ errs, w' = w.addErrors errs) := by
  induction l with
  | nil =>
    rw [checkLimits, run_pure_ok] at hr
    exact .inl ⟨hr.1.symm, hr.2⟩
  | cons kv l ih =>
    obtain ⟨svcName, svc⟩ := kv
    simp only [checkLimits] at hr
    obtain ⟨plugin, w₁, hderef, hr⟩ := run_bind_ok.1 hr
    obtain ⟨-, rfl⟩ := AccountService.derefPlugin_ok hderef
    split at hr
    · simp only [addError, run_bind_ok, addErrorList_ok, run_pure_ok] at hr
      obtain ⟨_, _, rfl, rfl, rfl⟩ := hr
      exact .inr ⟨rfl, _, rfl⟩
    · exact ih hr

/-- The ways of `createAccount` after a directory and the id are chosen. -/
inductive CreateCase (env : Env Text) (parser : AccountParser) (w : World Text)
    (act : AccountObject) : Bool → AccountObject → World Text → Prop
  | limit {errs : StringList} : CreateCase env parser w act false act (w.addErrors errs)
  | refused {act' : AccountObject} {w₁ : World Text} {errs : StringList} :
      (verifyAccountCreationLimits env act).run w = .ok true w →
      (act.verify env).run w = .ok (false, act') w₁ →
      CreateCase env parser w act false act' (w₁.addErrors errs)
  | unwritten {act' : AccountObject} {w₁ : World Text} {errs : StringList} :
      (verifyAccountCreationLimits env act).run w = .ok true w →
      (act.verify env).run w = .ok (true, act') w₁ →
      (uuidIsNull act'.id = true ∨ parser.readonly = true) →
      CreateCase env parser w act false act' (w₁.addErrors errs)
  | created {act' : AccountObject} {w₁ w₂ : World Text} {b : Bool} :
      (verifyAccountCreationLimits env act).run w = .ok true w →
      (act.verify env).run w = .ok (true, act') w₁ →
      uuidIsNull act'.id = false → parser.readonly = false →
      (setStatus env act.id .none).run (w₁.written env (parser.accountPath env act'.id)
        (env.yaml.emit (AccountParser.document env act'))) = .ok b w₂ →
      CreateCase env parser w act true act'
        (w₂.published env "account_create" (EventManager.accountParams env act'))

theorem createAccount_ok {act act' : AccountObject} {b : Bool} {w w' : World Text}
    (hr : (createAccount env act).run w = .ok (b, act') w') :
    (b = false ∧ ∃ errs, w' = w.addErrors errs) ∨
      ∃ parser, findParser env w Uuid.null true = some parser ∧
        CreateCase env parser (w.record (.uuidGenerate (env.uuidGenerate w.tick)))
          { act with id := env.uuidGenerate w.tick } b act' w' := by
  simp only [createAccount] at hr
  obtain ⟨w₀, w₁, hget, hr⟩ := run_bind_ok.1 hr
  cases hget
  cases hfind : findParser env w Uuid.null true with
  | none =>
    simp only [hfind, addError, run_bind_ok, addErrorList_ok, run_pure_ok] at hr
    obtain ⟨_, _, rfl, he, rfl⟩ := hr
    cases he
    exact .inl ⟨rfl, _, rfl⟩
  | some parser =>
    refine .inr ⟨parser, rfl, ?_⟩
    simp only [hfind] at hr
    obtain ⟨id, w₁, hgen, hr⟩ := run_bind_ok.1 hr
    rw [Env.callUuidGenerate, run_modifyGet_ok] at hgen
    obtain ⟨rfl, rfl⟩ := hgen
    obtain ⟨⟨v, act₁⟩, w₂, hverify, hr⟩ := run_bind_ok.1 hr
    simp only [verifyNewAccount] at hverify
    obtain ⟨lb, w₃, hlimit, hverify⟩ := run_bind_ok.1 hverify
    have hlimit' := hlimit
    simp only [verifyAccountCreationLimits] at hlimit'
    obtain ⟨w₄, w₅, hget, hcheck⟩ := run_bind_ok.1 hlimit'
    cases hget
    rcases checkLimits_ok hcheck with ⟨rfl, rfl⟩ | ⟨rfl, errs, rfl⟩
    · rw [if_pos rfl] at hverify
      cases v with
      | false =>
        rw [if_pos (by simp)] at hr
        simp only [addError, run_bind_ok, addErrorList_ok, run_pure_ok] at hr
        obtain ⟨_, _, rfl, _, _, rfl, he, rfl⟩ := hr
        cases he
        rw [addErrors_addErrors]
        exact .refused hlimit hverify
      | true =>
        rw [if_neg (by simp)] at hr
        obtain ⟨wb, w₅, hwrite, hr⟩ := run_bind_ok.1 hr
        rcases AccountParser.write_ok hwrite with ⟨rfl, rfl, hwhy⟩ | ⟨rfl, hid, hro, rfl⟩
        · rw [if_pos (by simp)] at hr
          simp only [addError, run_bind_ok, addErrorList_ok, run_pure_ok] at hr
          obtain ⟨_, _, rfl, he, rfl⟩ := hr
          cases he
          exact .unwritten hlimit hverify hwhy
        · rw [if_neg (by simp)] at hr
          obtain ⟨sb, w₆, hstatus, hr⟩ := run_bind_ok.1 hr
          obtain ⟨_, w₇, hemit, hr⟩ := run_bind_ok.1 hr
          rw [run_pure_ok] at hr
          obtain ⟨he, rfl⟩ := hr
          cases he
          rw [(EventManager.emit_ok hemit).2]
          exact .created hlimit hverify hid hro hstatus
    · rw [if_neg (by simp), run_pure_ok] at hverify
      obtain ⟨he, rfl⟩ := hverify
      cases he
      rw [if_pos (by simp)] at hr
      simp only [addError, run_bind_ok, addErrorList_ok, run_pure_ok] at hr
      obtain ⟨_, _, rfl, _, _, rfl, he, rfl⟩ := hr
      cases he
      rw [addErrors_addErrors, addErrors_addErrors]
      exact .limit

/-! ## Modification -/

/-- The ways of `modifyAccount` after the old account is read and a directory is found. -/
inductive ModifyCase (env : Env Text) (parser : AccountParser) (oldAct : AccountObject)
    (w : World Text) (act : AccountObject) : Bool → AccountObject → World Text → Prop
  | refused {act' : AccountObject} {w₁ : World Text} {errs : StringList} :
      (act.verify env).run w = .ok (false, act') w₁ →
      ModifyCase env parser oldAct w act false act' (w₁.addErrors errs)
  | unwritten {act' : AccountObject} {w₁ : World Text} {errs : StringList} :
      (act.verify env).run w = .ok (true, act') w₁ →
      (uuidIsNull act'.id = true ∨ parser.readonly = true) →
      ModifyCase env parser oldAct w act false act' (w₁.addErrors errs)
  | modified {act' : AccountObject} {w₁ w₂ w₃ : World Text} {b : Bool} :
      (act.verify env).run w = .ok (true, act') w₁ →
      uuidIsNull act'.id = false → parser.readonly = false →
      (setStatus env oldAct.id .none).run (w₁.written env (parser.accountPath env act'.id)
        (env.yaml.emit (AccountParser.document env act'))) = .ok b w₂ →
      (oldAct.cleanup env act').run w₂ = .ok true w₃ →
      ModifyCase env parser oldAct w act true act'
        (w₃.published env "account_modify" (EventManager.accountParams env oldAct))

theorem modifyAccount_ok {id : Uuid} {act act' : AccountObject} {b : Bool} {w w' : World Text}
    (hr : (modifyAccount env id act).run w = .ok (b, act') w') :
    (b = false ∧ ∃ w₁ errs, w' = w₁.addErrors errs ∧ Silent w w₁) ∨
      ∃ parser acc oldAct w₁ parser', ReadOk env w id parser acc oldAct w₁ ∧
        findParser env w₁ oldAct.id true = some parser' ∧
        ModifyCase env parser' oldAct w₁ { act with id := id } b act' w' := by
  simp only [modifyAccount] at hr
  obtain ⟨r, w₁, hread, hr⟩ := run_bind_ok.1 hr
  rcases readAccount_ok hread with ⟨rfl, -, errs, rfl⟩ | ⟨parser, acc, oldAct, rfl, hok⟩
  · simp only [addError, run_bind_ok, addErrorList_ok, run_pure_ok] at hr
    obtain ⟨_, _, rfl, he, rfl⟩ := hr
    cases he
    exact .inl ⟨rfl, w, _, addErrors_addErrors _ _ _, .refl w⟩
  obtain ⟨w₀, w₂, hget, hr⟩ := run_bind_ok.1 hr
  cases hget
  cases hfind : findParser env w₁ oldAct.id true with
  | none =>
    simp only [hfind, addError, run_bind_ok, addErrorList_ok, run_pure_ok] at hr
    obtain ⟨_, _, rfl, he, rfl⟩ := hr
    cases he
    exact .inl ⟨rfl, w₁, _, rfl, hok.silent⟩
  | some parser' =>
    refine .inr ⟨parser, acc, oldAct, w₁, parser', hok, hfind, ?_⟩
    simp only [hfind] at hr
    obtain ⟨⟨v, act₁⟩, w₂, hverify, hr⟩ := run_bind_ok.1 hr
    cases v with
    | false =>
      rw [if_pos (by simp)] at hr
      simp only [addError, run_bind_ok, addErrorList_ok, run_pure_ok] at hr
      obtain ⟨_, _, rfl, _, _, rfl, he, rfl⟩ := hr
      cases he
      rw [addErrors_addErrors]
      exact .refused hverify
    | true =>
      rw [if_neg (by simp)] at hr
      obtain ⟨wb, w₃, hwrite, hr⟩ := run_bind_ok.1 hr
      rcases AccountParser.write_ok hwrite with ⟨rfl, rfl, hwhy⟩ | ⟨rfl, hid, hro, rfl⟩
      · rw [if_pos (by simp)] at hr
        simp only [addError, run_bind_ok, addErrorList_ok, run_pure_ok] at hr
        obtain ⟨_, _, rfl, he, rfl⟩ := hr
        cases he
        exact .unwritten hverify hwhy
      · rw [if_neg (by simp)] at hr
        obtain ⟨sb, w₄, hstatus, hr⟩ := run_bind_ok.1 hr
        obtain ⟨cb, w₅, hclean, hr⟩ := run_bind_ok.1 hr
        have hclean' : (oldAct.cleanup env act₁).run w₄ = .ok true w₅ := by
          simp only [AccountObject.cleanup] at hclean ⊢
          obtain ⟨_, w₆, hloop, hpure⟩ := run_bind_ok.1 hclean
          rw [run_pure_ok] at hpure
          obtain ⟨-, rfl⟩ := hpure
          exact run_bind_ok.2 ⟨_, _, hloop, rfl⟩
        obtain ⟨_, w₆, hemit, hr⟩ := run_bind_ok.1 hr
        rw [run_pure_ok] at hr
        obtain ⟨he, rfl⟩ := hr
        cases he
        rw [(EventManager.emit_ok hemit).2]
        exact .modified hverify hid hro hstatus hclean'

/-! ## Deletion -/

/-- The ways of `deleteAccount` after the account is read. -/
inductive DeleteCase (env : Env Text) (parser : AccountParser) (id : Uuid) (w : World Text)
    (act : AccountObject) : Bool → World Text → Prop
  | kept {act' : AccountObject} {w₁ : World Text} {errs : StringList} :
      (act.performAccountRemoval env).run w = .ok (false, act') w₁ →
      DeleteCase env parser id w act false (w₁.addErrors errs)
  | unremoved {act' : AccountObject} {w₁ w₂ : World Text} {errs : StringList} :
      (act.performAccountRemoval env).run w = .ok (true, act') w₁ →
      (parser.remove env id).run w₁ = .ok false w₂ →
      DeleteCase env parser id w act false (w₂.addErrors errs)
  | deleted {act' : AccountObject} {w₁ w₂ : World Text} :
      (act.performAccountRemoval env).run w = .ok (true, act') w₁ →
      (parser.remove env id).run w₁ = .ok true w₂ →
      DeleteCase env parser id w act true
        (({ w₂ with statDict := w₂.statDict.erase (act.idAsString env) } : World Text).published env
          "account_delete" (EventManager.accountParams env act))

theorem performAccountRemoval_ok {act act' : AccountObject} {b : Bool} {w w' : World Text}
    (hr : (act.performAccountRemoval env).run w = .ok (b, act') w') :
    ∃ errs, act' = act.addErrorList errs := by
  simp only [AccountObject.performAccountRemoval] at hr
  obtain ⟨r, w₁, -, hr⟩ := run_bind_ok.1 hr
  cases r with
  | some svc =>
    rw [run_pure_ok] at hr
    obtain ⟨he, -⟩ := hr
    cases he
    exact ⟨_, rfl⟩
  | none =>
    obtain ⟨removed, w₂, -, hr⟩ := run_bind_ok.1 hr
    split at hr
    · rw [run_pure_ok] at hr
      obtain ⟨he, -⟩ := hr
      cases he
      exact ⟨[], by simp [AccountObject.addErrorList]⟩
    · rw [run_pure_ok] at hr
      obtain ⟨he, -⟩ := hr
      cases he
      exact ⟨_, rfl⟩

theorem deleteAccount_ok {id : Uuid} {b : Bool} {w w' : World Text}
    (hr : (deleteAccount env id).run w = .ok b w') :
    (b = false ∧ ∃ errs, w' = w.addErrors errs) ∨
      ∃ parser act, findParser env w id true = some parser ∧
        parser.read env w id {} = .ok act ∧ DeleteCase env parser id w act b w' := by
  simp only [deleteAccount] at hr
  obtain ⟨w₀, w₁, hget, hr⟩ := run_bind_ok.1 hr
  cases hget
  cases hfind : findParser env w id true with
  | none =>
    simp only [hfind, addError, run_bind_ok, addErrorList_ok, run_pure_ok] at hr
    obtain ⟨_, _, rfl, rfl, rfl⟩ := hr
    exact .inl ⟨rfl, _, rfl⟩
  | some parser =>
    simp only [hfind] at hr
    obtain ⟨w₀, w₁, hget, hr⟩ := run_bind_ok.1 hr
    cases hget
    cases hread : parser.read env w id {} with
    | error errs =>
      simp only [hread, addError, run_bind_ok, addErrorList_ok, run_pure_ok] at hr
      obtain ⟨_, _, rfl, rfl, rfl⟩ := hr
      exact .inl ⟨rfl, _, rfl⟩
    | ok act =>
      refine .inr ⟨parser, act, rfl, hread, ?_⟩
      simp only [hread] at hr
      obtain ⟨⟨removed, act₁⟩, w₁, hremoval, hr⟩ := run_bind_ok.1 hr
      obtain ⟨errs, rfl⟩ := performAccountRemoval_ok hremoval
      cases removed with
      | false =>
        rw [if_pos (by simp)] at hr
        simp only [run_bind_ok, addErrorList_ok, run_pure_ok] at hr
        obtain ⟨_, _, rfl, rfl, rfl⟩ := hr
        exact .kept hremoval
      | true =>
        rw [if_neg (by simp)] at hr
        obtain ⟨rb, w₂, hremove, hr⟩ := run_bind_ok.1 hr
        cases rb with
        | false =>
          rw [if_pos (by simp)] at hr
          simp only [addError, run_bind_ok, addErrorList_ok, run_pure_ok] at hr
          obtain ⟨_, _, rfl, rfl, rfl⟩ := hr
          exact .unremoved hremoval hremove
        | true =>
          rw [if_neg (by simp)] at hr
          obtain ⟨_, w₃, herase, hr⟩ := run_bind_ok.1 hr
          rw [modify, run_modifyGet_ok] at herase
          obtain ⟨-, rfl⟩ := herase
          obtain ⟨_, w₄, hemit, hr⟩ := run_bind_ok.1 hr
          rw [run_pure_ok] at hr
          obtain ⟨rfl, rfl⟩ := hr
          rw [(EventManager.emit_ok hemit).2]
          exact .deleted hremoval hremove

/-! ## What the steps around a write change -/

section

variable {F : Frame (World Text)}

theorem rel_of_setStatus (hF : Quiet F) (herr : ∀ w errs, F.rel w (w.addErrors errs))
    (hstat : ∀ w strId stat, F.rel w (w.setStat strId stat))
    (hpub : ∀ w event params, F.rel w (w.published env event params))
    {id : Uuid} {stat : AccountStatus} {b : Bool} {w w' : World Text}
    (hr : (setStatus env id stat).run w = .ok b w') : F.rel w w' := by
  rcases setStatus_ok hr with ⟨-, -, errs, rfl⟩ | ⟨parser, acc, act, w₁, -, hok, rfl⟩
  · exact herr w errs
  · refine F.trans (hok.silent F hF) ?_
    rw [statusSet]
    split
    · exact F.trans (hstat _ _ _) (hpub _ _ _)
    · exact hstat _ _ _

end

end AccountManager

end PxAccounts
