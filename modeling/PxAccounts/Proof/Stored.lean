import PxAccounts.Proof.Routing

/-!
# Stored accounts

The accounts that have a file, and what the operations do to the files when writes and unlinks
succeed: a creation adds one account, a modification replaces one, a deletion removes one.
-/

namespace PxAccounts

open Effect AccountManager
open AccountObject (rest lenient_rest)

variable {Text : Type} {env : Env Text}

/-- Some directory holds the file of the account. -/
def Stored (env : Env Text) (w : World Text) (id : Uuid) : Prop :=
  ∃ parser ∈ env.parsers, (w.fileAt (parser.accountPath env id)).isSome

instance (env : Env Text) (w : World Text) (id : Uuid) : Decidable (Stored env w id) :=
  inferInstanceAs (Decidable (∃ parser ∈ env.parsers,
    (w.fileAt (parser.accountPath env id)).isSome))

/-- The account files carry the ids of their names, and no account is in two directories. -/
structure Tidy (env : Env Text) (w : World Text) : Prop where
  inner : InnerIds env w
  unique : ∀ p ∈ env.parsers, ∀ q ∈ env.parsers, ∀ id,
    (w.fileAt (p.accountPath env id)).isSome → (w.fileAt (q.accountPath env id)).isSome → p = q

/-- Writes and unlinks of account files succeed. -/
structure Dependable (env : Env Text) : Prop where
  writes : ∀ n path data, env.writeFile n path data = .complete
  unlinks : ∀ n path, env.removeFile n path = true

theorem stored_congr {w w' : World Text} (h : w'.files = w.files) (id : Uuid) :
    Stored env w' id ↔ Stored env w id := by
  simp only [Stored, World.fileAt_congr h]

theorem Tidy.congr {w w' : World Text} (h : Tidy env w) (hfiles : w'.files = w.files) :
    Tidy env w' where
  inner := h.inner.congr hfiles
  unique p hp q hq id h₁ h₂ := by
    rw [World.fileAt_congr hfiles] at h₁ h₂
    exact h.unique p hp q hq id h₁ h₂

theorem tidy_of_empty {w : World Text} (h : ∀ dir, w.files dir = ∅) : Tidy env w := by
  have hnone : ∀ path, w.fileAt path = none := fun path => by
    rw [World.fileAt, h, Std.ExtTreeMap.getElem?_empty]
  refine ⟨fun parser _ id acc hread => ?_, fun p _ q _ id hex _ => ?_⟩
  · obtain ⟨text, hfile, -⟩ := AccountParser.read_ok_iff.1 hread
    rw [hnone] at hfile
    cases hfile
  · rw [hnone] at hex
    cases hex

theorem accountPath_ne {p q : AccountParser} {id id' : Uuid} (h : id' ≠ id) :
    q.accountPath env id' ≠ p.accountPath env id :=
  fun he => h (AccountParser.accountPath_inj he).2

/-! ## One file written -/

section Written

variable {w : World Text} {p : AccountParser} {id : Uuid} {data : Text}

theorem fileAt_written_complete (hd : Dependable env) (path : AccountPath) :
    (w.written env path data).fileAt path = some data := by
  rw [World.fileAt_written_self, hd.writes]
  rfl

theorem files_written_congr (hd : Dependable env) {w' : World Text} (h : w'.files = w.files)
    (path : AccountPath) :
    (w'.written env path data).files = (w.written env path data).files := by
  rw [World.files_written, World.files_written, hd.writes, hd.writes, h]

theorem stored_written (hd : Dependable env) (hp : p ∈ env.parsers) (id' : Uuid) :
    Stored env (w.written env (p.accountPath env id) data) id' ↔ id' = id ∨ Stored env w id' := by
  by_cases hid : id' = id
  · subst hid
    refine iff_of_true ⟨p, hp, ?_⟩ (.inl rfl)
    rw [fileAt_written_complete hd]
    rfl
  · simp only [Stored, World.fileAt_written_of_ne _ _ (accountPath_ne hid), hid, false_or]

theorem readText_document {act : AccountObject}
    (hreg : ∀ svcName ∈ act.services, (env.pluginNamed svcName).isSome) :
    AccountParser.readText env (documentText env act) {} = .ok (AccountParser.stored env act) := by
  rw [AccountParser.readText, documentText,
    env.yaml.load_emit _ (AccountParser.document_plain env act)]
  exact AccountParser.readDocument_document hreg

/-- After a complete write, what is read is the account written or was there before. -/
theorem read_written {act acc : AccountObject}
    (hreg : ∀ svcName ∈ act.services, (env.pluginNamed svcName).isSome)
    (hcomplete : env.writeFile w.tick (p.accountPath env act.id) (documentText env act) = .complete)
    {q : AccountParser} {id' : Uuid}
    (hread : q.read env (w.written env (p.accountPath env act.id) (documentText env act)) id' {} =
      .ok acc) :
    (id' = act.id ∧ acc = AccountParser.stored env act) ∨ q.read env w id' {} = .ok acc := by
  obtain ⟨text, hfile, htext⟩ := AccountParser.read_ok_iff.1 hread
  by_cases hpath : q.accountPath env id' = p.accountPath env act.id
  · rw [hpath, World.fileAt_written_self, hcomplete] at hfile
    cases hfile
    rw [readText_document hreg] at htext
    cases htext
    exact .inl ⟨(AccountParser.accountPath_inj hpath).2, rfl⟩
  · rw [World.fileAt_written_of_ne _ _ hpath] at hfile
    exact .inr (AccountParser.read_ok_iff.2 ⟨text, hfile, htext⟩)

theorem InnerIds.written (h : InnerIds env w) (hd : Dependable env) {act : AccountObject}
    (hreg : ∀ svcName ∈ act.services, (env.pluginNamed svcName).isSome) :
    InnerIds env (w.written env (p.accountPath env act.id) (documentText env act)) := by
  intro q hq id' acc hread
  rcases read_written hreg (hd.writes _ _ _) hread with ⟨rfl, rfl⟩ | hold
  · rfl
  · exact h q hq id' acc hold

theorem Tidy.written (h : Tidy env w) (hd : Dependable env) (hp : p ∈ env.parsers)
    {act : AccountObject} (hreg : ∀ svcName ∈ act.services, (env.pluginNamed svcName).isSome)
    (honly : ∀ q ∈ env.parsers, (w.fileAt (q.accountPath env act.id)).isSome → q = p) :
    Tidy env (w.written env (p.accountPath env act.id) (documentText env act)) where
  inner := h.inner.written hd hreg
  unique := by
    have honly' : ∀ q ∈ env.parsers, ∀ id', ((w.written env (p.accountPath env act.id)
        (documentText env act)).fileAt (q.accountPath env id')).isSome →
        (id' = act.id ∧ q = p) ∨ id' ≠ act.id ∧ (w.fileAt (q.accountPath env id')).isSome := by
      intro q hq id' hex
      by_cases hid : id' = act.id
      · subst hid
        refine .inl ⟨rfl, ?_⟩
        by_cases hpath : q.accountPath env act.id = p.accountPath env act.id
        · exact path_injective hq hp (AccountParser.accountPath_inj hpath).1
        · rw [World.fileAt_written_of_ne _ _ hpath] at hex
          exact honly q hq hex
      · rw [World.fileAt_written_of_ne _ _ (accountPath_ne hid)] at hex
        exact .inr ⟨hid, hex⟩
    intro q hq q' hq' id' h₁ h₂
    rcases honly' q hq id' h₁ with ⟨rfl, rfl⟩ | ⟨hne, h₁⟩
    · rcases honly' q' hq' _ h₂ with ⟨-, rfl⟩ | ⟨hne, -⟩
      · rfl
      · exact absurd rfl hne
    · rcases honly' q' hq' id' h₂ with ⟨he, -⟩ | ⟨-, h₂⟩
      · exact absurd he hne
      · exact h.unique q hq q' hq' id' h₁ h₂

end Written

/-! ## One file removed -/

section Erased

variable {w : World Text} {p : AccountParser} {id : Uuid}

theorem fileAt_of_erased {path path' : AccountPath} (h : ((w.erased path).fileAt path').isSome) :
    path' ≠ path ∧ (w.erased path).fileAt path' = w.fileAt path' := by
  have hne : path' ≠ path := by
    rintro rfl
    rw [World.fileAt_erased_self] at h
    cases h
  exact ⟨hne, World.fileAt_erased_of_ne w hne⟩

theorem read_of_erased {path : AccountPath} {q : AccountParser} {id' : Uuid} {acc : AccountObject}
    (hread : q.read env (w.erased path) id' {} = .ok acc) : q.read env w id' {} = .ok acc := by
  obtain ⟨text, hfile, htext⟩ := AccountParser.read_ok_iff.1 hread
  rw [(fileAt_of_erased (by rw [hfile]; rfl)).2] at hfile
  exact AccountParser.read_ok_iff.2 ⟨text, hfile, htext⟩

theorem InnerIds.erased (h : InnerIds env w) (path : AccountPath) :
    InnerIds env (w.erased path) :=
  fun q hq id' acc hread => h q hq id' acc (read_of_erased hread)

theorem Tidy.erased (h : Tidy env w) (path : AccountPath) : Tidy env (w.erased path) where
  inner := h.inner.erased path
  unique := by
    intro q hq q' hq' id' h₁ h₂
    rw [(fileAt_of_erased h₁).2] at h₁
    rw [(fileAt_of_erased h₂).2] at h₂
    exact h.unique q hq q' hq' id' h₁ h₂

theorem stored_erased (h : Tidy env w) (hp : p ∈ env.parsers)
    (hex : (w.fileAt (p.accountPath env id)).isSome) (id' : Uuid) :
    Stored env (w.erased (p.accountPath env id)) id' ↔ id' ≠ id ∧ Stored env w id' := by
  constructor
  · rintro ⟨q, hq, hq'⟩
    obtain ⟨hne, hsame⟩ := fileAt_of_erased hq'
    rw [hsame] at hq'
    refine ⟨?_, q, hq, hq'⟩
    rintro rfl
    exact hne (by rw [h.unique q hq p hp id' hq' hex])
  · rintro ⟨hne, q, hq, hq'⟩
    refine ⟨q, hq, ?_⟩
    rwa [World.fileAt_erased_of_ne _ (accountPath_ne hne)]

end Erased

/-! ## Calls that save an account -/

section Saved

variable {p : AccountParser} {act' : AccountObject} {event : String} {w w₁ w₂ w' : World Text}
  {b : Bool}

/-- When writes succeed, the account is read back and its status set. -/
theorem SavedVia.status_eq (h : SavedVia env p act' event w w₁ w₂ w' b) (hd : Dependable env) :
    b = true ∧ ∃ act w₃, rest w₃ = rest (w₁.written env (p.accountPath env act'.id)
      (documentText env act')) ∧ act.id = act'.id ∧ w₂ = statusSet env w₃ act .none := by
  obtain ⟨hb, act, w₃, hok, hw₂⟩ := status_of_written h.notNull h.routed
    (fileAt_written_complete hd _) (readText_document h.registered) h.status
  exact ⟨hb, act, w₃, hok.silent _ (lenient_rest env).toQuiet, hok.id_eq, hw₂⟩

theorem SavedVia.files_eq (h : SavedVia env p act' event w w₁ w₂ w' b) :
    w'.files = (w₁.written env (p.accountPath env act'.id) (documentText env act')).files :=
  h.files₂.trans (setStatus_writesNothing h.status).1

theorem SavedVia.calls_prefix (h : SavedVia env p act' event w w₁ w₂ w' b) :
    w₁.calls <+: w'.calls := by
  obtain ⟨cs, hcs, -⟩ := (setStatus_writesNothing h.status).2
  obtain ⟨cs', hcs', -⟩ := h.calls₂
  rw [hcs', hcs, World.calls_written, List.append_assoc, List.append_assoc]
  exact List.prefix_append _ _

theorem SavedVia.stored_iff (h : SavedVia env p act' event w w₁ w₂ w' b) (hd : Dependable env)
    (id' : Uuid) : Stored env w' id' ↔ id' = act'.id ∨ Stored env w id' := by
  rw [stored_congr h.files_eq, stored_written hd h.routed.mem, stored_congr h.files₁]

theorem SavedVia.tidy (h : SavedVia env p act' event w w₁ w₂ w' b) (hd : Dependable env)
    (htidy : Tidy env w)
    (honly : ∀ q ∈ env.parsers, (w.fileAt (q.accountPath env act'.id)).isSome → q = p) :
    Tidy env w' := by
  refine Tidy.congr (Tidy.written (htidy.congr h.files₁) hd h.routed.mem h.registered ?_) h.files_eq
  intro q hq hex
  rw [World.fileAt_congr h.files₁] at hex
  exact honly q hq hex

end Saved

/-- An account that was read has its file in the directory found. -/
theorem isSome_of_read {w : World Text} {p : AccountParser} {id : Uuid} {acc : AccountObject}
    (h : p.read env w id {} = .ok acc) : (w.fileAt (p.accountPath env id)).isSome := by
  obtain ⟨text, hfile, -⟩ := AccountParser.read_ok_iff.1 h
  rw [hfile]
  rfl

/-! ## The ways of a call -/

theorem findParser_of_files {w w' : World Text} (h : w'.files = w.files) (id : Uuid)
    (onlyWritables : Bool) : findParser env w' id onlyWritables = findParser env w id onlyWritables :=
  findParser_congr fun parser _ => AccountParser.hasAccount_congr (by rw [h])

theorem rest_of_verify {act act' : AccountObject} {b : Bool} {w w' : World Text}
    (hr : (act.verify env).run w = .ok (b, act') w') : rest w' = rest w :=
  ((lenient_rest env).verify act).rel_of_ok hr

theorem rest_of_removal {act act' : AccountObject} {b : Bool} {w w' : World Text}
    (hr : (act.performAccountRemoval env).run w = .ok (b, act') w') : rest w' = rest w :=
  ((lenient_rest env).performAccountRemoval act).rel_of_ok hr

/-- A creation fails without a trace in the files, the statuses and the events, or saves the account
under the generated id. -/
theorem create_cases {act act' : AccountObject} {b : Bool} {w w' : World Text}
    (hr : (createAccount env act).run w = .ok (b, act') w') :
    (b = false ∧ rest w' = rest w) ∨
      (b = true ∧ act'.id = env.uuidGenerate w.tick ∧ ∃ p w₁ w₂ sb,
        (AccountObject.verify env { act with id := env.uuidGenerate w.tick }).run
          (w.record (.uuidGenerate (env.uuidGenerate w.tick))) = .ok (true, act') w₁ ∧
        SavedVia env p act' "account_create" w w₁ w₂ w' sb) := by
  rcases createAccount_ok hr with ⟨rfl, errs, rfl⟩ | ⟨p, hfind, hcase⟩
  · exact .inl ⟨rfl, rfl⟩
  cases hcase with
  | limit => exact .inl ⟨rfl, rfl⟩
  | refused _ hverify => exact .inl ⟨rfl, (rest_of_verify hverify :)⟩
  | unwritten _ hverify _ => exact .inl ⟨rfl, (rest_of_verify hverify :)⟩
  | created _ hverify hid _ hstatus =>
    exact .inr ⟨rfl, id_of_verify hverify, p, _, _, _, hverify,
      savedVia_of_created hfind hverify hid hstatus⟩

/-- A modification fails without such a trace, or replaces the file of the account. -/
theorem modify_cases {id : Uuid} {act act' : AccountObject} {b : Bool} {w w' : World Text}
    (hinner : InnerIds env w) (hr : (modifyAccount env id act).run w = .ok (b, act') w') :
    (b = false ∧ rest w' = rest w) ∨
      (b = true ∧ act'.id = id ∧ ∃ p acc oldAct w₀ w₁ w₂ sb, ReadOk env w id p acc oldAct w₀ ∧
        (AccountObject.verify env { act with id := id }).run w₀ = .ok (true, act') w₁ ∧
        SavedVia env p act' "account_modify" w w₁ w₂ w' sb) := by
  rcases modifyAccount_ok hr with ⟨rfl, w₁, errs, rfl, hsilent⟩ |
    ⟨q, acc, oldAct, w₁, p, hok, hfind, hcase⟩
  · exact .inl ⟨rfl, (hsilent _ (lenient_rest env).toQuiet :)⟩
  have hread : rest w₁ = rest w := hok.silent _ (lenient_rest env).toQuiet
  have holdid : oldAct.id = id :=
    hok.id_eq.trans (hinner q (findParser_some hok.parser_eq).1 id acc hok.read_eq)
  cases hcase with
  | refused hverify => exact .inl ⟨rfl, ((rest_of_verify hverify).trans hread :)⟩
  | unwritten hverify _ => exact .inl ⟨rfl, ((rest_of_verify hverify).trans hread :)⟩
  | modified hverify hid _ hstatus hclean =>
    have hfind' := findParser_false_of_true hfind
    rw [findParser_of_files hok.silent.files, holdid, hok.parser_eq] at hfind'
    cases hfind'
    exact .inr ⟨rfl, id_of_verify hverify, q, acc, oldAct, w₁, _, _, _, hok, hverify,
      savedVia_of_modified hok hfind holdid hverify hid hstatus hclean⟩

/-- A deletion fails without such a trace, or removes the file and the status of the account. -/
theorem delete_cases {id : Uuid} {b : Bool} {w w' : World Text} (hinner : InnerIds env w)
    (hr : (deleteAccount env id).run w = .ok b w') :
    (b = false ∧ rest w' = rest w) ∨
      (b = true ∧ ∃ p act w₁, findParser env w id true = some p ∧
        p.read env w id {} = .ok act ∧ act.id = id ∧
        rest w₁ = ((w.erased (p.accountPath env id)).files,
          w.statDict.erase (env.uuidAsString id), w.events) ∧
        w' = w₁.published env "account_delete" (EventManager.accountParams env act)) := by
  rcases deleteAccount_ok hr with ⟨rfl, errs, rfl⟩ | ⟨p, act, hfind, hread, hcase⟩
  · exact .inl ⟨rfl, rfl⟩
  have hp := (findParser_some hfind).1
  cases hcase with
  | kept hremoval => exact .inl ⟨rfl, (rest_of_removal hremoval :)⟩
  | unremoved hremoval hremove =>
    have hrest := rest_of_removal hremoval
    rcases AccountParser.remove_false hremove with rfl | rfl
    · exact .inl ⟨rfl, hrest⟩
    · exact .inl ⟨rfl, hrest⟩
  | @deleted act₁ w₁ w₂ hremoval hremove =>
    have hrest := rest_of_removal hremoval
    have hactid : act.id = id := hinner p hp id act hread
    obtain ⟨-, -, rfl⟩ := AccountParser.remove_true hremove
    refine .inr ⟨rfl, p, act, _, hfind, hread, hactid, ?_, rfl⟩
    have hfiles : w₁.files = w.files := congrArg Prod.fst hrest
    have hstat : w₁.statDict = w.statDict := congrArg (·.2.1) hrest
    have hevents : w₁.events = w.events := congrArg (·.2.2) hrest
    simp only [rest, World.files_record, World.statDict_record, World.events_record,
      World.files_erased, World.statDict_erased, World.events_erased, hfiles, hstat, hevents,
      AccountObject.idAsString, hactid]

/-- A call that fails leaves the files, the statuses and the events as they are. -/
theorem Op.rest_of_false {op : Op} {w w' : World Text} (hinner : InnerIds env w)
    (hr : (op.run env).run w = .ok false w') : rest w' = rest w := by
  cases op with
  | create act =>
    obtain ⟨act', hr⟩ := Op.run_create_ok.1 hr
    rcases create_cases hr with ⟨-, h⟩ | ⟨hb, -⟩
    · exact h
    · cases hb
  | modify id act =>
    obtain ⟨act', hr⟩ := Op.run_modify_ok.1 hr
    rcases modify_cases hinner hr with ⟨-, h⟩ | ⟨hb, -⟩
    · exact h
    · cases hb
  | delete id =>
    rcases delete_cases hinner hr with ⟨-, h⟩ | ⟨hb, -⟩
    · exact h
    · cases hb
  | setStatus id stat =>
    rcases setStatus_ok hr with ⟨-, -, errs, rfl⟩ | ⟨p, acc, act, w₁, hb, -⟩
    · rfl
    · cases hb

end PxAccounts
