import PxAccounts.Proof.Routing
import PxAccounts.Proof.SecretStore

/-!
# Accounts are isolated from each other

An operation about one account leaves the files, the status and the secrets of every other account
alone.  The one exception is a write that is cut short: what is left of the file may read as another
account, an empty file as the null one, and then that account is given the status.
-/

namespace PxAccounts

open Effect AccountManager
open AccountObject (Lenient lenient_rest)

variable {Text : Type} {env : Env Text}

/-- Everything that belongs to accounts other than `id` is the same in both states. -/
structure Isolated (env : Env Text) (id : Uuid) (w w' : World Text) : Prop where
  files : ∀ parser ∈ env.parsers, ∀ id', id' ≠ id →
    w'.fileAt (parser.accountPath env id') = w.fileAt (parser.accountPath env id')
  status : ∀ id', id' ≠ id →
    w'.statDict[env.uuidAsString id']? = w.statDict[env.uuidAsString id']?
  secrets : ∀ id', id' ≠ id → ∀ s : RPCSecretItem,
    s.attr "account_id" = some (env.uuidAsString id') → (s ∈ w'.secrets ↔ s ∈ w.secrets)

/-- No write was cut short so that the text left reads as another account with another status. -/
def CutsReadBack (env : Env Text) (id : Uuid) (w w' : World Text) : Prop :=
  ∀ path data count, .writeFile path data (.cutShort count) ∈ w.newCalls w' →
    ∀ acc, AccountParser.readText env (env.yaml.cut data count) {} = .ok acc →
      acc.id = id ∨ w.statDict[env.uuidAsString acc.id]? = some .none

/-! ## Secrets -/

/-- The secrets of the account `id` stay. -/
def secretsOf (env : Env Text) (id : Uuid) : Frame (World Text) where
  rel w w' := ∀ s : RPCSecretItem, s.attr "account_id" = some (env.uuidAsString id) →
    (s ∈ w'.secrets ↔ s ∈ w.secrets)
  refl _ _ _ := Iff.rfl
  trans h₁ h₂ s hs := (h₂ s hs).trans (h₁ s hs)

theorem quiet_secretsOf (id : Uuid) : Quiet (secretsOf env id) where
  record _ _ _ _ _ := Iff.rfl
  log _ _ _ _ := Iff.rfl

variable {id id' : Uuid}

/-- Items linked to an account have no part in the secrets of another. -/
theorem allowsLinked_secretsOf (hset : SetsOnlySame env) (hne : id' ≠ id) (svcName : String) :
    AllowsLinked env (secretsOf env id') {"account_id"} id svcName := by
  intro item hlinked w s hs
  refine hset _ _ _ _ fun he => hne ?_
  have hitem : item.attributes["account_id"]? = some (env.uuidAsString id) :=
    hlinked ("account_id", env.uuidAsString id) (by simp [linkAttributes]) rfl
  rw [← attr_toRpc, RPCSecretItem.attr, ← he, ← RPCSecretItem.attr, hs] at hitem
  exact env.uuid.unparse_inj (Option.some.inj hitem)

theorem within_callDeleteSecret_secretsOf (hdel : DeletesExactly env) (hne : id' ≠ id)
    {attributes : List (String × String)} (h : ("account_id", env.uuidAsString id) ∈ attributes) :
    Within (secretsOf env id') (env.callDeleteSecret attributes) := by
  intro w s hs
  refine (hdel _ _ _ _).trans (and_iff_left fun hcarries => hne ?_)
  have hid := hcarries _ h
  rw [hs] at hid
  exact env.uuid.unparse_inj (Option.some.inj hid)

theorem within_removeService_secretsOf (hdel : DeletesExactly env) (hne : id' ≠ id)
    (svcName : String) :
    Within (secretsOf env id') (SecretManager.removeService env id svcName) := by
  refine (within_callDeleteSecret_secretsOf hdel hne ?_).bind fun _ => within_pure _
  rw [Std.ExtTreeMap.mem_toList_iff_getElem?_eq_some, TreeMap.getElem?_insert_of_ne (by decide),
    Std.ExtTreeMap.getElem?_insert_self]

theorem within_removeAccount_secretsOf (hdel : DeletesExactly env) (hne : id' ≠ id) :
    Within (secretsOf env id') (SecretManager.removeAccount env id) := by
  refine (within_callDeleteSecret_secretsOf hdel hne ?_).bind fun _ => within_pure _
  rw [Std.ExtTreeMap.mem_toList_iff_getElem?_eq_some, Std.ExtTreeMap.getElem?_insert_self]

/-- The verification of an account keeps the secrets of the others. -/
theorem within_verify_secretsOf (hset : SetsOnlySame env) (hdel : DeletesExactly env)
    (hlack : TokensLack env {"account_id"}) {act : AccountObject} (hne : id' ≠ act.id) :
    Within (secretsOf env id') (act.verify env) :=
  AccountObject.within_verify (quiet_secretsOf id').asking hlack (fun _ _ _ _ _ _ => Iff.rfl)
    (fun _ svc _ => allowsLinked_secretsOf hset hne svc.name)
    fun _ svc _ _ => within_removeService_secretsOf hdel hne svc.name

/-! ## Calls that write no file -/

theorem cutsReadBack_of_writesNothing {w w' : World Text}
    (hcalls : (callsOf Call.WritesNothing).rel w w') : CutsReadBack env id w w' := by
  obtain ⟨cs, hcs, hnothing⟩ := hcalls
  intro path data count hc
  rw [newCalls_eq hcs] at hc
  exact absurd rfl (hnothing _ hc _ _ _)

theorem isolated_of_same {w w' : World Text} (hfiles : w'.files = w.files)
    (hstat : w'.statDict = w.statDict) (hsecrets : ∀ id', id' ≠ id → (secretsOf env id').rel w w') :
    Isolated env id w w' where
  files parser _ _ _ := World.fileAt_congr hfiles _
  status _ _ := by rw [hstat]
  secrets := hsecrets

theorem callsOf_mono {P Q : Call Text → Prop} (h : ∀ c, P c → Q c) {w w' : World Text}
    (hcalls : (callsOf P).rel w w') : (callsOf Q).rel w w' := by
  obtain ⟨cs, hcs, hP⟩ := hcalls
  exact ⟨cs, hcs, fun c hc => h c (hP c hc)⟩

/-- A call that only verified, if anything. -/
theorem isolated_iff_of_verified (hset : SetsOnlySame env) (hdel : DeletesExactly env)
    (hlack : TokensLack env {"account_id"}) {act act' : AccountObject} {v : Bool}
    {w w₁ w₂ : World Text} {errs : StringList} (hsilent : w.Silent w₁)
    (hverify : (act.verify env).run w₁ = .ok (v, act') w₂) :
    Isolated env act.id w (w₂.addErrors errs) ↔ CutsReadBack env act.id w (w₂.addErrors errs) := by
  have hrest := ((lenient_rest env).verify act).rel_of_ok hverify
  refine iff_of_true (isolated_of_same ?_ ?_ fun id' hne => ?_) (cutsReadBack_of_writesNothing ?_)
  · exact (congrArg Prod.fst hrest).trans hsilent.files
  · exact (congrArg (·.2.1) hrest).trans hsilent.statDict
  · have hsecrets := (within_verify_secretsOf hset hdel hlack hne).rel_of_ok hverify
    exact (secretsOf env id').trans (hsilent _ (quiet_secretsOf id')) hsecrets
  · exact callsOf_mono (fun _ => Call.writesNothing_of_not_isOutput)
      ((callsOf _).trans (silent_noOutput env hsilent)
        ((callsOf _).trans (verify_noOutput hverify).2 (callsOf_addErrors _ _)))

/-! ## Calls that save an account -/

section Saved

variable {p : AccountParser} {act' : AccountObject} {event : String} {w w₁ w₂ w' : World Text}
  {b : Bool}

/-- The account whose status a misread write changes. -/
theorem SavedVia.misread (h : SavedVia env p act' event w w₁ w₂ w' b) {path : AccountPath} {data : Text}
    {count : ℕ} {acc : AccountObject}
    (hc : .writeFile path data (.cutShort count) ∈ w.newCalls w')
    (htext : AccountParser.readText env (env.yaml.cut data count) {} = .ok acc) :
    w'.statDict = w.statDict.insert (env.uuidAsString acc.id) .none := by
  obtain ⟨rfl, rfl, hout⟩ := h.saved.mem_newCalls.1 hc
  have hfile : (w₁.written env (p.accountPath env act'.id) (documentText env act')).fileAt
      (p.accountPath env act'.id) = some (env.yaml.cut (documentText env act') count) := by
    rw [World.fileAt_written_self, ← hout]
    rfl
  obtain ⟨-, act, w₃, hok, rfl⟩ := status_of_written h.notNull h.routed hfile htext h.status
  rw [h.statDict₂, statDict_statusSet, AccountObject.idAsString, hok.id_eq, hok.silent.statDict,
    World.statDict_written, h.statDict₁]

theorem SavedVia.isolated_of_cuts_iff (h : SavedVia env p act' event w w₁ w₂ w' b) (hinner : InnerIds env w)
    (hsecrets : ∀ id', id' ≠ act'.id → (secretsOf env id').rel w w') :
    Isolated env act'.id w w' ↔ CutsReadBack env act'.id w w' := by
  constructor
  · intro hiso path data count hc acc htext
    refine or_iff_not_imp_left.2 fun hne => ?_
    rw [← hiso.status acc.id hne, h.misread hc htext, Std.ExtTreeMap.getElem?_insert_self]
  · intro hcuts
    refine ⟨fun parser _ id' hne => ?_, fun id' hne => ?_, hsecrets⟩
    · have hpath : parser.accountPath env id' ≠ p.accountPath env act'.id := fun he =>
        hne (AccountParser.accountPath_inj he).2
      rw [World.fileAt_congr (h.files₂.trans (setStatus_writesNothing h.status).1),
        World.fileAt_written_of_ne _ _ hpath, World.fileAt_congr h.files₁]
    · rcases statDict_of_written (hinner.congr h.files₁) h.registered h.status with
        hsame | ⟨count, acc, hout, htext, hacc⟩
      · rw [h.statDict₂, hsame id' hne, h.statDict₁]
      · have hc := h.saved.mem_newCalls.2 ⟨rfl, rfl, hout.symm⟩
        have hnone := (hcuts _ _ _ hc acc htext).resolve_left hacc
        rw [h.misread hc htext]
        by_cases he : env.uuidAsString acc.id = env.uuidAsString id'
        · rw [he, Std.ExtTreeMap.getElem?_insert_self, ← he, hnone]
        · rw [TreeMap.getElem?_insert_of_ne he]

end Saved

/-! ## The operations -/

theorem secretsOf_written (id' : Uuid) (w : World Text) (path : AccountPath) (data : Text) :
    (secretsOf env id').rel w (w.written env path data) := fun _ _ => Iff.rfl

theorem secretsOf_published (id' : Uuid) (w : World Text) (event : String) (params : StrStrMap) :
    (secretsOf env id').rel w (w.published env event params) := fun s _ => by
  rw [World.secrets_published]

theorem secretsOf_of_setStatus {id₀ : Uuid} {stat : AccountStatus} {b : Bool} {w w' : World Text}
    (hr : (setStatus env id₀ stat).run w = .ok b w') : (secretsOf env id').rel w w' := by
  exact rel_of_setStatus (quiet_secretsOf id') (fun _ _ _ _ => Iff.rfl)
    (fun _ _ _ _ _ => Iff.rfl) (secretsOf_published id') hr

theorem removal_keeps {act act' : AccountObject} {removed : Bool} {w w' : World Text}
    (hdel : DeletesExactly env) (hr : (act.performAccountRemoval env).run w = .ok (removed, act') w') :
    w'.files = w.files ∧ w'.statDict = w.statDict ∧
      (∀ id', id' ≠ act.id → (secretsOf env id').rel w w') ∧
      (callsOf Call.WritesNothing).rel w w' := by
  have hrest := ((lenient_rest env).performAccountRemoval act).rel_of_ok hr
  refine ⟨congrArg Prod.fst hrest, congrArg (·.2.1) hrest, fun id' hne => ?_, ?_⟩
  · exact (AccountObject.within_performAccountRemoval (F := secretsOf env id')
      (fun _ _ _ _ _ => Iff.rfl) (within_removeAccount_secretsOf hdel hne)).rel_of_ok hr
  · exact ((lenient_callsOf env fun c => Call.writesNothing_of_not_isOutput).performAccountRemoval
      act).rel_of_ok hr

theorem isolated_of_delete {p : AccountParser} {act : AccountObject} {b : Bool} {w w' : World Text}
    (hdel : DeletesExactly env) (hactid : act.id = id)
    (h : DeleteCase env p id w act b w') : Isolated env id w w' := by
  cases h with
  | kept hremoval =>
    obtain ⟨hfiles, hstat, hsecrets, -⟩ := removal_keeps hdel hremoval
    exact isolated_of_same hfiles hstat (hactid ▸ hsecrets)
  | unremoved hremoval hremove =>
    obtain ⟨hfiles, hstat, hsecrets, -⟩ := removal_keeps hdel hremoval
    rcases AccountParser.remove_false hremove with rfl | rfl
    · exact isolated_of_same hfiles hstat (hactid ▸ hsecrets)
    · exact isolated_of_same hfiles hstat (hactid ▸ hsecrets)
  | deleted hremoval hremove =>
    obtain ⟨hfiles, hstat, hsecrets, -⟩ := removal_keeps hdel hremoval
    obtain ⟨-, -, rfl⟩ := AccountParser.remove_true hremove
    refine ⟨fun parser _ id' hne => ?_, fun id' hne => ?_, fun id' hne => ?_⟩
    · have hpath : parser.accountPath env id' ≠ p.accountPath env id := fun he =>
        hne (AccountParser.accountPath_inj he).2
      rw [World.fileAt_congr (World.files_published _ _ _)]
      exact (World.fileAt_erased_of_ne _ hpath).trans (World.fileAt_congr hfiles _)
    · have hne' : act.idAsString env ≠ env.uuidAsString id' := fun he =>
        hne ((env.uuid.unparse_inj he).symm.trans hactid)
      rw [World.statDict_published]
      exact (TreeMap.getElem?_erase_of_ne hne').trans (by rw [← hstat]; rfl)
    · exact (secretsOf env id').trans (hactid ▸ hsecrets id' (hactid ▸ hne))
        (secretsOf_published id' _ _ _)

theorem writesNothing_of_delete {p : AccountParser} {act : AccountObject} {b : Bool}
    {w w' : World Text} (hdel : DeletesExactly env)
    (h : DeleteCase env p id w act b w') : (callsOf Call.WritesNothing).rel w w' := by
  cases h with
  | kept hremoval =>
    exact (callsOf _).trans (removal_keeps hdel hremoval).2.2.2 (callsOf_addErrors _ _)
  | unremoved hremoval hremove =>
    refine (callsOf _).trans (removal_keeps hdel hremoval).2.2.2 ?_
    rcases AccountParser.remove_false hremove with rfl | rfl
    · exact callsOf_addErrors _ _
    · exact callsOf_record rfl fun _ _ _ h => by cases h
  | deleted hremoval hremove =>
    obtain ⟨-, -, rfl⟩ := AccountParser.remove_true hremove
    refine (callsOf _).trans (removal_keeps hdel hremoval).2.2.2 ?_
    refine (callsOf _).trans ?_ (published_writesNothing _ _ _)
    exact callsOf_record rfl fun _ _ _ h => by cases h

/-- In a state whose account files carry the ids of their names, an operation leaves what belongs to
other accounts unchanged if and only if the write it made, if any, was not cut short so that another
account is read from the file. -/
theorem isolated_iff (env : Env Text) (hset : SetsOnlySame env) (hdel : DeletesExactly env)
    (hlack : TokensLack env {"account_id"}) (op : Op) (b : Bool) (w w' : World Text)
    (hinner : InnerIds env w) (hr : (op.run env).run w = .ok b w') :
    Isolated env (op.subject env w) w w' ↔ CutsReadBack env (op.subject env w) w w' := by
  cases op with
  | create act =>
    obtain ⟨act', hr⟩ := Op.run_create_ok.1 hr
    rcases createAccount_ok hr with ⟨rfl, errs, rfl⟩ | ⟨p, hfind, hcase⟩
    · exact iff_of_true (isolated_of_same rfl rfl fun id' _ => (secretsOf env id').refl _)
        (cutsReadBack_of_writesNothing (callsOf_addErrors _ _))
    have hgen : w.Silent (w.record (.uuidGenerate (env.uuidGenerate w.tick))) :=
      fun F hF => hF.record _ _ trivial
    cases hcase with
    | limit =>
      exact iff_of_true (isolated_of_same rfl rfl fun id' _ => (secretsOf env id').refl _)
        (cutsReadBack_of_writesNothing (callsOf_record rfl fun _ _ _ h => by cases h))
    | refused _ hverify => exact isolated_iff_of_verified hset hdel hlack hgen hverify
    | unwritten _ hverify _ => exact isolated_iff_of_verified hset hdel hlack hgen hverify
    | created _ hverify hid _ hstatus =>
      have hvia := savedVia_of_created hfind hverify hid hstatus
      have hsub : act'.id = Op.subject env w (.create act) := id_of_verify hverify
      rw [← hsub]
      refine hvia.isolated_of_cuts_iff hinner fun id' hne => ?_
      have hverified := (within_verify_secretsOf hset hdel hlack (hsub ▸ hne :)).rel_of_ok hverify
      exact (secretsOf env id').trans hverified <| (secretsOf env id').trans
        (secretsOf_written id' _ _ _) <| (secretsOf env id').trans (secretsOf_of_setStatus hstatus)
          (secretsOf_published id' _ _ _)
  | modify id act =>
    obtain ⟨act', hr⟩ := Op.run_modify_ok.1 hr
    rcases modifyAccount_ok hr with ⟨rfl, w₁, errs, rfl, hsilent⟩ |
      ⟨q, acc, oldAct, w₁, p, hok, hfind, hcase⟩
    · exact iff_of_true (isolated_of_same hsilent.files hsilent.statDict
        fun id' _ => hsilent _ (quiet_secretsOf id'))
        (cutsReadBack_of_writesNothing (callsOf_mono (fun _ => Call.writesNothing_of_not_isOutput)
          ((callsOf _).trans (silent_noOutput env hsilent) (callsOf_addErrors _ _))))
    have holdid : oldAct.id = id :=
      hok.id_eq.trans (hinner q (findParser_some hok.parser_eq).1 id acc hok.read_eq)
    cases hcase with
    | refused hverify => exact isolated_iff_of_verified hset hdel hlack hok.silent hverify
    | unwritten hverify _ => exact isolated_iff_of_verified hset hdel hlack hok.silent hverify
    | modified hverify hid _ hstatus hclean =>
      have hvia := savedVia_of_modified hok hfind holdid hverify hid hstatus hclean
      have hactid : act'.id = id := id_of_verify hverify
      rw [show Op.subject env w (.modify id act) = act'.id from hactid.symm]
      refine hvia.isolated_of_cuts_iff hinner fun id' hne => ?_
      rw [hactid] at hne
      have hverified := (within_verify_secretsOf hset hdel hlack hne).rel_of_ok hverify
      have hcleaned := (AccountObject.within_cleanup (F := secretsOf env id') fun _ svc _ _ _ =>
        within_removeService_secretsOf hdel (holdid.symm ▸ hne) svc.name).rel_of_ok hclean
      exact (secretsOf env id').trans (hok.silent _ (quiet_secretsOf id')) <|
        (secretsOf env id').trans hverified <| (secretsOf env id').trans
          (secretsOf_written id' _ _ _) <| (secretsOf env id').trans (secretsOf_of_setStatus hstatus) <|
            (secretsOf env id').trans hcleaned (secretsOf_published id' _ _ _)
  | delete id =>
    rcases deleteAccount_ok hr with ⟨rfl, errs, rfl⟩ | ⟨p, act, hfind, hread, hcase⟩
    · exact iff_of_true (isolated_of_same rfl rfl fun id' _ => (secretsOf env id').refl _)
        (cutsReadBack_of_writesNothing (callsOf_addErrors _ _))
    have hactid : act.id = id := hinner p (findParser_some hfind).1 id act hread
    exact iff_of_true (isolated_of_delete hdel hactid hcase)
      (cutsReadBack_of_writesNothing (writesNothing_of_delete hdel hcase))
  | setStatus id stat =>
    rcases setStatus_ok hr with ⟨rfl, -, errs, rfl⟩ | ⟨p, acc, act, w₁, rfl, hok, rfl⟩
    · exact iff_of_true (isolated_of_same rfl rfl fun id' _ => (secretsOf env id').refl _)
        (cutsReadBack_of_writesNothing (callsOf_addErrors _ _))
    have hactid : act.id = id :=
      hok.id_eq.trans (hinner p (findParser_some hok.parser_eq).1 id acc hok.read_eq)
    obtain ⟨hfiles, hcalls⟩ := setStatus_writesNothing hr
    refine iff_of_true ⟨fun parser _ id' _ => World.fileAt_congr hfiles _, fun id' hne => ?_,
      fun id' _ => secretsOf_of_setStatus hr⟩ (cutsReadBack_of_writesNothing hcalls)
    have hne' : act.idAsString env ≠ env.uuidAsString id' := fun he =>
      hne ((env.uuid.unparse_inj he).symm.trans hactid)
    rw [statDict_statusSet, TreeMap.getElem?_insert_of_ne hne', hok.silent.statDict]

theorem isolated_iff_reference :
    Isolated referenceEnv 1 { files := fun _ => ∅ }
        (final (((Op.create { title := "Mail" }).run referenceEnv).run { files := fun _ => ∅ })) ↔
      CutsReadBack referenceEnv 1 { files := fun _ => ∅ }
        (final (((Op.create { title := "Mail" }).run referenceEnv).run { files := fun _ => ∅ })) :=
  isolated_iff referenceEnv reference_setsOnlySame reference_deletesExactly
    (reference_tokensLack _) (.create { title := "Mail" }) true { files := fun _ => ∅ } _
    (fun parser _ id acc h => by
      obtain ⟨text, hfile, -⟩ := AccountParser.read_ok_iff.1 h
      simp [World.fileAt] at hfile) rfl

/-- The reference service on a disk that is full: a file is opened and emptied, and that is all. -/
def fullDiskEnv : Env YamlText := { referenceEnv with writeFile := fun _ _ _ => .cutShort 0 }

/-- A creation on a full disk resets the status of the account under the null uuid. -/
theorem creation_touches_another_account : ¬∀ (env : Env YamlText) (op : Op) (b : Bool)
    (w w' : World YamlText), SetsOnlySame env → DeletesExactly env →
      TokensLack env {"account_id"} → InnerIds env w →
      (∀ parser ∈ env.parsers, parser.hasAccount env w (env.uuidGenerate w.tick) = false) →
      (op.run env).run w = .ok b w' → Isolated env (op.subject env w) w w' := by
  intro h
  have hiso := h fullDiskEnv (.create { title := "Mail" }) true nullAccountWorld _
    reference_setsOnlySame reference_deletesExactly (reference_tokensLack _)
    (innerIds_nullAccountWorld fullDiskEnv.toAnswers) (by decide +kernel) rfl
  have hnull := hiso.status Uuid.null (by decide)
  exact absurd hnull (by decide +kernel)

end PxAccounts
