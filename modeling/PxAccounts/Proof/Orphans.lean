import PxAccounts.Lib.Run
import PxAccounts.Proof.Links
import PxAccounts.Proof.SecretStore

/-!
# No orphaned secrets

Every secret in the store that is linked to an account belongs to a service named in the file of
that account, after every run of creations, modifications and deletions.
-/

namespace PxAccounts

open Effect Run AccountManager
open AccountObject (rest lenient_rest)

variable {Text : Type} {env : Env Text}

/-- The secret is linked to an account whose file names the service of the secret. -/
def Owned (env : Env Text) (w : World Text) (s : RPCSecretItem) : Prop :=
  ∃ id, ∃ p ∈ env.parsers, ∃ acc, p.read env w id {} = .ok acc ∧
    ∃ svcName ∈ acc.services, s.Of env id svcName

/-- Every secret with an `account_id` is owned. -/
def NoOrphans (env : Env Text) (w : World Text) : Prop :=
  ∀ s ∈ w.secrets, (s.attr "account_id").isSome → Owned env w s

/-! ## What verification leaves -/

theorem mem_services_of_name {act : AccountObject} (hinit : AllInited env act.services)
    {kv : String × AccountService} (hkv : kv ∈ act.services.toList) : kv.2.name = kv.1 :=
  (hinit kv.1 kv.2 (Std.ExtTreeMap.mem_toList_iff_getElem?_eq_some.1 hkv)).name_eq

/-- A verification adds only secrets of services of the account. -/
theorem secrets_of_verify (hset : StoresOrRefuses env) (hdel : DeletesExactly env)
    (hlack : TokensLack env {"account_id", "service"}) {act act' : AccountObject}
    {b : Bool} {w w' : World Text} (hr : (act.verify env).run w = .ok (b, act') w')
    (hinit : AllInited env act.services) :
    ∀ s ∈ w'.secrets, s ∈ w.secrets ∨ ∃ svcName ∈ act.services, s.Of env act.id svcName := by
  intro s hs
  rcases (within_verify_addsOnly hset hdel hlack act).rel_of_ok hr s hs with hold | ⟨kv, hkv, hof⟩
  · exact .inl hold
  · refine .inr ⟨kv.1, TreeMap.mem_of_mem_toList hkv, ?_⟩
    rwa [← mem_services_of_name hinit hkv]

/-- A refused verification takes back what it added. -/
theorem secrets_of_refused (hset : StoresOrRefuses env) (hdel : DeletesExactly env)
    (hlack : TokensLack env {"account_id", "service"}) {act act' : AccountObject}
    {w w' : World Text} (hr : (act.verify env).run w = .ok (false, act') w')
    (hid : uuidIsNull act.id = false) (hinit : AllInited env act.services) :
    ∀ s ∈ w'.secrets, s ∈ w.secrets := by
  rcases AccountObject.verify_ok hr with ⟨-, rfl, -⟩ | ⟨hreach, w₁, -, hend⟩
  · exact fun s hs => hs
  obtain ⟨hinit', hnames⟩ := services_of_verify hreach hr hinit
  obtain ⟨hb, -⟩ | ⟨-, hremove⟩ := hend
  · cases hb
  have hid' : act'.id = act.id := id_of_verify hr
  have hremoved := removeAllSecrets_ok hdel (hid' ▸ hid) hremove
  intro s hs
  rcases secrets_of_verify hset hdel hlack hr hinit s hs with hold | ⟨svcName, hmem, hof⟩
  · exact hold
  · obtain ⟨svc, hsvc⟩ := Option.isSome_iff_exists.1
      (Std.ExtTreeMap.mem_iff_isSome_getElem?.1 ((hnames svcName).2 hmem))
    refine absurd ?_ (((hremoved s).1 hs).2 (svcName, svc)
      (Std.ExtTreeMap.mem_toList_iff_getElem?_eq_some.2 hsvc))
    rw [hid', (hinit' svcName svc hsvc).name_eq]
    exact hof

theorem secrets_of_setStatus {id : Uuid} {stat : AccountStatus} {b : Bool} {w w' : World Text}
    (hr : (setStatus env id stat).run w = .ok b w') : w'.secrets = w.secrets :=
  rel_of_setStatus (F := Frame.eqOn World.secrets) ⟨fun _ _ _ => rfl, fun _ _ => rfl⟩
    (fun _ _ => rfl) (fun _ _ _ => rfl) (fun w _ _ => w.secrets_published _ _) hr

/-! ## The operations -/

/-- The modification of the account under the null id. -/
def Op.EditsNull : Op → Prop
  | .modify id _ => id = Uuid.null
  | _ => False

/-- A call that does not modify the account under the null id. -/
def Op.ProperCall (env : Env Text) (w : World Text) (call : Op × Bool) (w' : World Text) : Prop :=
  Op.RequestedCall env w call w' ∧ ¬call.1.EditsNull

theorem Owned.congr {w w' : World Text} (hfiles : w'.files = w.files) {s : RPCSecretItem}
    (h : Owned env w s) : Owned env w' s := by
  obtain ⟨id, p, hp, acc, hread, hsvc⟩ := h
  refine ⟨id, p, hp, acc, ?_, hsvc⟩
  rwa [AccountParser.read_congr (World.fileAt_congr hfiles _)]

/-- Secrets may go while the files stay. -/
theorem NoOrphans.congr {w w' : World Text} (h : NoOrphans env w) (hfiles : w'.files = w.files)
    (hsecrets : ∀ s ∈ w'.secrets, s ∈ w.secrets) : NoOrphans env w' :=
  fun s hs hattr => (h s (hsecrets s hs) hattr).congr hfiles

/-- What the runs keep. -/
structure Kept (env : Env Text) (w : World Text) : Prop where
  inner : InnerIds env w
  owned : NoOrphans env w

theorem Kept.congr {w w' : World Text} (h : Kept env w) (hfiles : w'.files = w.files)
    (hsecrets : ∀ s ∈ w'.secrets, s ∈ w.secrets) : Kept env w' :=
  ⟨h.inner.congr hfiles, h.owned.congr hfiles hsecrets⟩

/-- An account is saved in `p`: its own file names the services of the secrets that came, and every
other secret of the account that stays is of a service that is still named. -/
theorem kept_of_saved {w w' : World Text} {p : AccountParser} {act' : AccountObject}
    (hd : Dependable env) (h : Kept env w) (hp : p ∈ env.parsers)
    (hreg : ∀ svcName ∈ act'.services, (env.pluginNamed svcName).isSome)
    (hfiles : w'.files = (w.written env (p.accountPath env act'.id) (documentText env act')).files)
    (hsecrets : ∀ s ∈ w'.secrets, s ∈ w.secrets ∨ ∃ svcName ∈ act'.services,
      s.Of env act'.id svcName)
    (hstays : ∀ s ∈ w'.secrets, ∀ acc, p.read env w act'.id {} = .ok acc → ∀ svcName ∈ acc.services,
      s.Of env act'.id svcName → svcName ∈ act'.services) : Kept env w' := by
  have hread : p.read env w' act'.id {} = .ok (AccountParser.stored env act') := by
    refine AccountParser.read_ok_iff.2 ⟨documentText env act', ?_, readText_document hreg⟩
    rw [World.fileAt_congr hfiles, fileAt_written_complete hd]
  have hnew : ∀ s : RPCSecretItem, ∀ svcName ∈ act'.services, s.Of env act'.id svcName →
      Owned env w' s := by
    intro s svcName hmem hof
    refine ⟨act'.id, p, hp, _, hread, svcName, ?_, hof⟩
    rwa [Std.ExtTreeMap.mem_iff_isSome_getElem?, AccountParser.stored_services_getElem?,
      Option.isSome_map, ← Std.ExtTreeMap.mem_iff_isSome_getElem?]
  refine ⟨(h.inner.written hd hreg).congr hfiles, fun s hs hattr => ?_⟩
  rcases hsecrets s hs with hold | ⟨svcName, hmem, hof⟩
  · obtain ⟨id, q, hq, acc, hreadq, svcName, hmem, hof⟩ := h.owned s hold hattr
    by_cases hpath : q.accountPath env id = p.accountPath env act'.id
    · obtain ⟨hdir, rfl⟩ := AccountParser.accountPath_inj hpath
      rw [path_injective hq hp hdir] at hreadq
      exact hnew s svcName (hstays s hs acc hreadq svcName hmem hof) hof
    · refine ⟨id, q, hq, acc, ?_, svcName, hmem, hof⟩
      rwa [AccountParser.read_congr ((World.fileAt_congr hfiles _).trans
        (World.fileAt_written_of_ne _ _ hpath))]
  · exact hnew s svcName hmem hof

theorem not_unwritten {w w₁ : World Text} {p : AccountParser} {act act' : AccountObject} {id : Uuid}
    (hid : act.id ≠ Uuid.null) (hfind : findParser env w id true = some p) {v : Bool}
    (hverify : (act.verify env).run w₁ = .ok (v, act') w') :
    ¬(uuidIsNull act'.id = true ∨ p.readonly = true) := by
  rw [id_of_verify hverify, (findParser_some hfind).2.1 rfl]
  simp [uuidIsNull, hid]

section Step

variable (hset : StoresOrRefuses env) (hdel : DeletesExactly env)
  (hlack : TokensLack env {"account_id", "service"}) (hd : Dependable env)
include hset hdel hlack hd

theorem kept_of_create {act act' : AccountObject} {b : Bool} {w w' : World Text}
    (h : Kept env w) (hproper : (Op.create act).Requested env w)
    (hr : (createAccount env act).run w = .ok (b, act') w') : Kept env w' := by
  obtain ⟨hdec, hnull, hfresh⟩ := hproper
  have hid : uuidIsNull (env.uuidGenerate w.tick) = false := by simpa [uuidIsNull] using hnull
  rcases createAccount_ok hr with ⟨-, errs, rfl⟩ | ⟨p, hfind, hcase⟩
  · exact h.congr rfl fun s hs => hs
  cases hcase with
  | limit => exact h.congr rfl fun s hs => hs
  | refused _ hverify =>
    exact h.congr ((verify_noOutput hverify).1 :)
      (secrets_of_refused hset hdel hlack hverify hid hdec.allInited :)
  | unwritten _ hverify hwhy => exact absurd hwhy (not_unwritten hnull hfind hverify)
  | @created act' w₁ w₂ b _ hverify hid' _ hstatus =>
    have hvia := savedVia_of_created hfind hverify hid' hstatus
    have hactid : act'.id = env.uuidGenerate w.tick := id_of_verify hverify
    have hadded := secrets_of_verify hset hdel hlack hverify hdec.allInited
    have hreach := reaches_of_verified hverify
    obtain ⟨-, hnames⟩ := services_of_verify hreach hverify hdec.allInited
    refine kept_of_saved hd h hvia.routed.mem hvia.registered
      (hvia.files_eq.trans (files_written_congr hd hvia.files₁ _)) (fun s hs => ?_)
      fun s hs acc hread => ?_
    · rw [World.secrets_published, secrets_of_setStatus hstatus, World.secrets_written] at hs
      refine (hadded s hs).imp_right ?_
      rintro ⟨svcName, hmem, hof⟩
      exact ⟨svcName, (hnames svcName).2 hmem, hactid ▸ hof⟩
    · rw [hactid] at hread
      exact absurd ⟨p, hvia.routed.mem, isSome_of_read hread⟩ hfresh

theorem kept_of_modify {id : Uuid} {act act' : AccountObject} {b : Bool} {w w' : World Text}
    (h : Kept env w) (hdec : Decoded env act) (hnull : id ≠ Uuid.null)
    (hr : (modifyAccount env id act).run w = .ok (b, act') w') : Kept env w' := by
  have hid : uuidIsNull id = false := by simpa [uuidIsNull] using hnull
  rcases modifyAccount_ok hr with ⟨-, w₁, errs, rfl, hsilent⟩ |
    ⟨q, acc, oldAct, w₁, p, hok, hfind, hcase⟩
  · exact h.congr (hsilent.files :) fun s hs => hsilent.secrets ▸ hs
  have holdid : oldAct.id = id :=
    hok.id_eq.trans (h.inner q (findParser_some hok.parser_eq).1 id acc hok.read_eq)
  cases hcase with
  | refused hverify =>
    have hback := secrets_of_refused hset hdel hlack hverify hid hdec.allInited
    exact h.congr ((verify_noOutput hverify).1.trans hok.silent.files :)
      fun s hs => hok.silent.secrets ▸ hback s hs
  | unwritten hverify hwhy => exact absurd hwhy (not_unwritten hnull hfind hverify)
  | @modified act' w₂ w₃ w₄ b hverify hid' _ hstatus hclean =>
    have hvia := savedVia_of_modified hok hfind holdid hverify hid' hstatus hclean
    have hactid : act'.id = id := id_of_verify hverify
    have hadded := secrets_of_verify hset hdel hlack hverify hdec.allInited
    have hreach := reaches_of_verified hverify
    obtain ⟨-, hnames⟩ := services_of_verify hreach hverify hdec.allInited
    have hcleaned := cleanup_ok hdel (holdid.symm ▸ hid) hclean
    have hpq := findParser_false_of_true hfind
    rw [findParser_of_files hok.silent.files, holdid, hok.parser_eq] at hpq
    cases hpq
    refine kept_of_saved hd h hvia.routed.mem hvia.registered
      (hvia.files_eq.trans (files_written_congr hd hvia.files₁ _)) (fun s hs => ?_)
      fun s hs acc' hread svcName hmem hof => ?_
    · rw [World.secrets_published, hcleaned s, secrets_of_setStatus hstatus,
        World.secrets_written] at hs
      rcases hadded s hs.1 with hold | ⟨svcName, hmem, hof⟩
      · exact .inl (hok.silent.secrets ▸ hold)
      · exact .inr ⟨svcName, (hnames svcName).2 hmem, hactid ▸ hof⟩
    · -- A service that only the old account has is cleaned up.
      rw [hactid, hok.read_eq] at hread
      cases hread
      rw [World.secrets_published, hcleaned s] at hs
      by_contra hnot
      have hmem' : svcName ∈ oldAct.services := by
        rw [Std.ExtTreeMap.mem_iff_isSome_getElem?] at hmem ⊢
        rw [← Option.isSome_map (f := AccountService.link), hok.back.links, Option.isSome_map]
        exact hmem
      obtain ⟨svc, hsvc⟩ := Option.isSome_iff_exists.1
        (Std.ExtTreeMap.mem_iff_isSome_getElem?.1 hmem')
      refine hs.2 (svcName, svc) (Std.ExtTreeMap.mem_toList_iff_getElem?_eq_some.2 hsvc)
        ⟨hnot, ?_⟩
      rw [(hok.allInited svcName svc hsvc).name_eq, holdid, ← hactid]
      exact hof

omit hset hlack hd in
theorem kept_of_delete {id : Uuid} {b : Bool} {w w' : World Text} (h : Kept env w)
    (hr : (deleteAccount env id).run w = .ok b w') : Kept env w' := by
  rcases deleteAccount_ok hr with ⟨-, errs, rfl⟩ | ⟨p, act, hfind, hread, hcase⟩
  · exact h.congr rfl fun s hs => hs
  have hactid : act.id = id := h.inner p (findParser_some hfind).1 id act hread
  cases hcase with
  | kept hremoval =>
    exact h.congr (congrArg Prod.fst (rest_of_removal hremoval) :)
      fun s hs => (removal_ok hdel hremoval s hs).1
  | unremoved hremoval hremove =>
    have hfiles : _ = w.files := congrArg Prod.fst (rest_of_removal hremoval)
    rcases AccountParser.remove_false hremove with rfl | rfl
    · exact h.congr hfiles fun s hs => (removal_ok hdel hremoval s hs).1
    · exact h.congr hfiles fun s hs => (removal_ok hdel hremoval s hs).1
  | @deleted act₁ w₁ w₂ hremoval hremove =>
    have hfiles₁ : w₁.files = w.files := congrArg Prod.fst (rest_of_removal hremoval)
    obtain ⟨-, -, rfl⟩ := AccountParser.remove_true hremove
    have hfiles : ∀ stat event params, (World.published env { (w₁.erased (p.accountPath env id)).record
        (.removeFile (p.accountPath env id) true) with statDict := stat } event params).files =
        (w.erased (p.accountPath env id)).files := by
      intro stat event params
      rw [World.files_published, World.files_erased, ← hfiles₁]
      rfl
    refine ⟨(h.inner.erased _).congr (hfiles _ _ _), fun s hs hattr => ?_⟩
    rw [World.secrets_published] at hs
    obtain ⟨hold, hother⟩ := removal_ok hdel hremoval s hs
    obtain ⟨id', q, hq, acc, hreadq, svcName, hmem, hof⟩ := h.owned s hold hattr
    have hne : id' ≠ id := by
      rintro rfl
      exact hother rfl (hactid ▸ hof.1)
    refine ⟨id', q, hq, acc, ?_, svcName, hmem, hof⟩
    rwa [AccountParser.read_congr ((World.fileAt_congr (hfiles _ _ _) _).trans
      (World.fileAt_erased_of_ne _ (accountPath_ne hne)))]

/-- One call keeps the secrets owned. -/
theorem kept_of_call {w w' : World Text} {call : Op × Bool} (h : Kept env w)
    (hcall : Op.ProperCall env w call w') : Kept env w' := by
  obtain ⟨op, b⟩ := call
  obtain ⟨⟨hproper, hr⟩, hnull⟩ := hcall
  cases op with
  | create act =>
    obtain ⟨act', hr⟩ := Op.run_create_ok.1 hr
    exact kept_of_create hset hdel hlack hd h hproper hr
  | modify id act =>
    obtain ⟨act', hr⟩ := Op.run_modify_ok.1 hr
    exact kept_of_modify hset hdel hlack hd h hproper hnull hr
  | delete id => exact kept_of_delete hdel h hr
  | setStatus id stat =>
    refine h.congr (setStatus_writesNothing hr).1 fun s hs => ?_
    rwa [secrets_of_setStatus hr] at hs

end Step

/-- After every run of calls the secrets that are linked to an account belong to a service named in
the file of that account. -/
theorem no_orphans (env : Env Text) (hset : StoresOrRefuses env) (hdel : DeletesExactly env)
    (hlack : TokensLack env {"account_id", "service"}) (hd : Dependable env) (w₀ w : World Text)
    (calls : List (Op × Bool)) (hinner : InnerIds env w₀) (howned : NoOrphans env w₀)
    (hrun : Runs (Op.ProperCall env) w₀ calls w) : NoOrphans env w :=
  (hrun.invariant (P := Kept env) (fun _ _ _ h hcall => kept_of_call hset hdel hlack hd h hcall)
    ⟨hinner, howned⟩).owned

/-- A creation stores a secret of the service, which the account file names. -/
theorem no_orphans_reference : NoOrphans tokenEnv
    (final (((Op.create (requestedMail tokenEnv)).run tokenEnv).run { files := fun _ => ∅ })) := by
  have hfresh : ¬Stored tokenEnv { files := fun _ => ∅ } 1 := by decide +kernel
  have hcall : ((Op.create (requestedMail tokenEnv)).run tokenEnv).run { files := fun _ => ∅ } =
      .ok true _ := eq_ok_of_result? (by decide +kernel)
  refine no_orphans tokenEnv ⟨reference_storesOrRefuses.stores, reference_storesOrRefuses.refuses⟩
    reference_deletesExactly tokenEnv_tokensLack ⟨fun _ _ _ => rfl, fun _ _ => rfl⟩
    { files := fun _ => ∅ } _ [(.create (requestedMail tokenEnv), true)]
    (tidy_of_empty fun _ => rfl).inner (fun s hs => by cases hs) (.single ⟨⟨?_, hcall⟩, id⟩)
  exact ⟨decoded_requestedMail tokenEnv.toAnswers, by decide, hfresh⟩

/-- Without the condition on the null id secrets are orphaned: those of a modification of the null
account stay although it is refused. -/
theorem orphans_of_null_account : ¬∀ (env : Env YamlText) (w₀ w : World YamlText)
    (calls : List (Op × Bool)), StoresOrRefuses env → DeletesExactly env →
      TokensLack env {"account_id", "service"} → Dependable env → env.eventManagerInited = true →
      InnerIds env w₀ → NoOrphans env w₀ → Runs (Op.RequestedCall env) w₀ calls w →
      NoOrphans env w := by
  intro h
  have hinner := innerIds_nullAccountWorld tokenEnv.toAnswers
  have hcall : ((Op.modify Uuid.null (requestedMail tokenEnv)).run tokenEnv).run nullAccountWorld =
      .ok false _ := eq_ok_of_result? (by decide +kernel)
  have hno := h tokenEnv nullAccountWorld _ [(.modify Uuid.null (requestedMail tokenEnv), false)]
    ⟨reference_storesOrRefuses.stores, reference_storesOrRefuses.refuses⟩
    reference_deletesExactly tokenEnv_tokensLack ⟨fun _ _ _ => rfl, fun _ _ => rfl⟩ rfl hinner
    (fun s hs => by cases hs) (.single ⟨(decoded_requestedMail tokenEnv.toAnswers), hcall⟩)
  have hsecret : ∃ s ∈ (final (((Op.modify Uuid.null (requestedMail tokenEnv)).run tokenEnv).run
      nullAccountWorld)).secrets, (s.attr "account_id").isSome := by decide +kernel
  have hrest := Op.rest_of_false hinner hcall
  generalize final (((Op.modify Uuid.null (requestedMail tokenEnv)).run tokenEnv).run
    nullAccountWorld) = w' at hno hsecret hrest
  obtain ⟨s, hs, hattr⟩ := hsecret
  obtain ⟨id, p, hp, acc, hread, svcName, hmem, -⟩ := hno s hs hattr
  rw [AccountParser.read_congr (World.fileAt_congr (congrArg Prod.fst hrest) _)] at hread
  obtain ⟨-, rfl⟩ := read_nullAccountWorld hread
  exact absurd hmem Std.ExtTreeMap.not_mem_empty

end PxAccounts
