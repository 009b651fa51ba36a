import PxAccounts.Proof.Endings
import PxAccounts.Proof.Modification

/-!
# Deletions that fail

A deletion takes the plugin records and the secrets of the account before it removes the file, and
puts nothing back when the file stays.  So a failed deletion leaves the account whole exactly when
there was nothing to take.
-/

namespace PxAccounts

open Effect AccountManager
open AccountObject (Lenient rest lenient_rest)

variable {Text : Type} {env : Env Text} {id : Uuid}

/-- The removal of records and of secrets takes away only, and no secret that was not asked for. -/
structure OnlyTakes (env : Env Text) : Prop where
  records : ∀ n plugin id records, ∀ r ∈ (env.remove n plugin id records).2, r ∈ records
  secrets : ∀ n attributes store, ∀ s ∈ (env.deleteSecret n attributes store).2, s ∈ store
  others : ∀ n attributes store, ∀ s ∈ store, ¬s.Carries attributes →
    s ∈ (env.deleteSecret n attributes store).2

/-- The record is named by the `PLUGIN_ID` of a service of the account. -/
def NamesRecord (act : AccountObject) (r : PluginRecord) : Prop :=
  ∃ svc, act.services[r.plugin]? = some svc ∧ svc.params[pluginIdParam]? = some r.id

/-- The account read for the deletion keeps its file, its status, its secrets and the plugin records
of its services. -/
structure Whole (env : Env Text) (id : Uuid) (w w' : World Text) : Prop
    extends Unchanged env id w w' where
  records : ∀ p act, findParser env w id true = some p → p.read env w id {} = .ok act →
    ∀ r, NamesRecord act r → (r ∈ w'.records ↔ r ∈ w.records)

/-- However the plugins, the secret service and the file system answer, a deletion that returns
false leaves the account whole. -/
def DeletesSafely (env : Env Text) (w : World Text) (id : Uuid) : Prop :=
  ∀ answers, OnlyTakes (env.withAnswers answers) → ∀ w',
    (deleteAccount (env.withAnswers answers) id).run w = .ok false w' → Whole env id w w'

/-- The deletion gets to the account, and a record or a secret is there to be taken. -/
def SomethingToTake (env : Env Text) (w : World Text) (id : Uuid) : Prop :=
  ∃ p act, findParser env w id true = some p ∧ p.read env w id {} = .ok act ∧
    ((∃ r ∈ w.records, NamesRecord act r) ∨
      act.id = id ∧ ∃ s ∈ w.secrets, s.attr "account_id" = some (env.uuidAsString id))

/-! ## Nothing to take -/

/-- Secrets and records become fewer. -/
def fewer : Frame (World Text) where
  rel w w' := (∀ s ∈ w'.secrets, s ∈ w.secrets) ∧ ∀ r ∈ w'.records, r ∈ w.records
  refl _ := ⟨fun _ h => h, fun _ h => h⟩
  trans h₁ h₂ := ⟨fun s hs => h₁.1 s (h₂.1 s hs), fun r hr => h₁.2 r (h₂.2 r hr)⟩

theorem fewer_of_removal (htakes : OnlyTakes env) {act act' : AccountObject} {b : Bool}
    {w w' : World Text} (hr : (act.performAccountRemoval env).run w = .ok (b, act') w') :
    fewer.rel w w' := by
  refine (AccountObject.within_performAccountRemoval (fun plugin rid w => ?_) ?_).rel_of_ok hr
  · exact ⟨fun _ h => h, fun r h => htakes.records _ _ _ _ r h⟩
  · refine Within.bind (fun w => ?_) fun _ => within_pure _
    exact ⟨fun s h => htakes.secrets _ _ _ s h, fun _ h => h⟩

theorem secretsOf_of_removal (htakes : OnlyTakes env) {act act' : AccountObject} {b : Bool}
    {w w' : World Text} (hne : act.id ≠ id)
    (hr : (act.performAccountRemoval env).run w = .ok (b, act') w') :
    (secretsOf env id).rel w w' := by
  refine (AccountObject.within_performAccountRemoval (F := secretsOf env id)
    (fun _ _ _ _ _ => Iff.rfl) ?_).rel_of_ok hr
  refine Within.bind (fun w s hs => ?_) fun _ => within_pure _
  refine ⟨fun h => htakes.secrets _ _ _ s h, fun h => htakes.others _ _ _ s h fun hcarries => ?_⟩
  rw [carries_account, hs, Option.some.injEq] at hcarries
  exact hne (env.uuid.unparse_inj hcarries).symm

theorem whole_of_nothing {answers : Answers Text} (htakes : OnlyTakes (env.withAnswers answers))
    {w w' : World Text} (hnot : ¬SomethingToTake env w id)
    (hr : (deleteAccount (env.withAnswers answers) id).run w = .ok false w') :
    Whole env id w w' := by
  rcases deleteAccount_ok hr with ⟨-, errs, rfl⟩ | ⟨p, act, hfind, hread, hcase⟩
  · exact ⟨⟨fun _ _ => rfl, rfl, fun _ _ => Iff.rfl⟩, fun _ _ _ _ _ _ => Iff.rfl⟩
  have hfind₀ : findParser env w id true = some p := hfind
  have hread₀ : p.read env w id {} = .ok act := hread
  have hrecords : ∀ r ∈ w.records, ¬NamesRecord act r := fun r hmem hnames =>
    hnot ⟨p, act, hfind₀, hread₀, .inl ⟨r, hmem, hnames⟩⟩
  have hsecrets : act.id = id → ∀ s ∈ w.secrets, s.attr "account_id" ≠ some (env.uuidAsString id) :=
    fun hid s hmem hs => hnot ⟨p, act, hfind₀, hread₀, .inr ⟨hid, s, hmem, hs⟩⟩
  have hwhole : ∀ {b act' w₁}, (act.performAccountRemoval (env.withAnswers answers)).run w =
      .ok (b, act') w₁ → ∀ {w₂ : World Text}, w₂.files = w₁.files → w₂.statDict = w₁.statDict →
      w₂.secrets = w₁.secrets → w₂.records = w₁.records → Whole env id w w₂ := by
    intro b act' w₁ hremoval w₂ hfiles hstat hsec hrec
    obtain ⟨hfewer, hfewer'⟩ := fewer_of_removal htakes hremoval
    have hrest := rest_of_removal hremoval
    refine ⟨⟨fun _ _ => World.fileAt_congr (hfiles.trans (congrArg Prod.fst hrest)) _, ?_, ?_⟩, ?_⟩
    · rw [hstat, show w₁.statDict = w.statDict from congrArg (·.2.1) hrest]
    · intro s hs
      rw [hsec]
      by_cases hid : act.id = id
      · exact iff_of_false (fun h => hsecrets hid s (hfewer s h) hs) fun h => hsecrets hid s h hs
      · exact secretsOf_of_removal htakes hid hremoval s hs
    · intro q act₂ hfind₂ hread₂ r hr₂
      rw [hfind₀] at hfind₂
      cases hfind₂
      rw [hread₀] at hread₂
      cases hread₂
      rw [hrec]
      exact iff_of_false (fun h => hrecords r (hfewer' r h) hr₂) fun h => hrecords r h hr₂
  cases hcase with
  | kept hremoval => exact hwhole hremoval rfl rfl rfl rfl
  | unremoved hremoval hremove =>
    rcases AccountParser.remove_false hremove with rfl | rfl
    · exact hwhole hremoval rfl rfl rfl rfl
    · exact hwhole hremoval rfl rfl rfl rfl

/-! ## A file that stays -/

/-- Plugins and a secret service that remove what they are asked to, and a file system that does
not. -/
def unlinkRefused : Answers Text :=
  { referenceAnswers with
    remove := fun _ plugin id records =>
      (some (.returned true), records.filter (· ≠ { plugin := plugin.title, id }))
    removeFile := fun _ _ => false }

theorem unlinkRefused_onlyTakes : OnlyTakes (env.withAnswers unlinkRefused) where
  records _ _ _ _ _ h := (List.mem_filter.1 h).1
  secrets _ _ _ _ h := (List.mem_filter.1 h).1
  others _ _ _ _ h hnot := List.mem_filter.2 ⟨h, by simpa using hnot⟩

theorem unlinkRefused_deletesExactly : DeletesExactly (env.withAnswers unlinkRefused) :=
  fun _ _ _ _ => (List.mem_filter).trans (and_congr_right fun _ => decide_eq_true_iff)

/-- The records are those that the services do not name, and all else is as before. -/
structure RecordsTaken (l : List (String × AccountService)) (w w' : World Text) : Prop where
  files : w'.files = w.files
  secrets : w'.secrets = w.secrets
  records : ∀ r, r ∈ w'.records ↔ r ∈ w.records ∧ ∀ kv ∈ l,
    kv.2.params[pluginIdParam]? = some r.id → kv.1 ≠ r.plugin

theorem run_removeService_refused {name : String} {svc : AccountService}
    (h : svc.LinkedAs env name) (w : World Text) :
    ∃ w', (svc.performServiceCustomRemoval (env.withAnswers unlinkRefused)).run w = .ok true w' ∧
      RecordsTaken [(name, svc)] w w' := by
  cases hparam : svc.params[pluginIdParam]? with
  | none =>
    refine ⟨w, ?_, rfl, rfl, fun r => ?_⟩
    · rw [AccountService.performServiceCustomRemoval, hparam]
      rfl
    · simp [hparam]
  | some rid =>
    obtain ⟨plugin, hplugin⟩ := Option.isSome_iff_exists.1 h.registered
    have htitle := title_of_pluginNamed hplugin
    have hrun : (svc.performServiceCustomRemoval (env.withAnswers unlinkRefused)).run w = .ok true
        (({ w with records := w.records.filter (· ≠ { plugin := plugin.title, id := rid }) } :
          World Text).record (.remove plugin.title rid (some (.returned true)))) := by
      rw [AccountService.performServiceCustomRemoval, hparam]
      refine run_bind_ok.2 ⟨plugin, w, ?_, rfl⟩
      rw [AccountService.derefPlugin, h.plugin_eq, hplugin]
      rfl
    refine ⟨_, hrun, rfl, rfl, fun r => ?_⟩
    rw [World.records_record, List.mem_filter, decide_eq_true_iff, htitle]
    refine and_congr_right fun _ => ⟨fun hne kv hkv hid hname => hne ?_, fun hall he => ?_⟩
    · obtain rfl := List.mem_singleton.1 hkv
      rw [hparam, Option.some.injEq] at hid
      rw [hid, show name = r.plugin from hname]
    · subst he
      exact hall (name, svc) (by simp) hparam rfl

variable (env) in
theorem run_removeServices_refused {l : List (String × AccountService)}
    (h : ∀ kv ∈ l, kv.2.LinkedAs env kv.1) (w : World Text) :
    ∃ w', (AccountObject.removeServices (env.withAnswers unlinkRefused) (l.map Prod.snd)).run w =
      .ok none w' ∧ RecordsTaken l w w' := by
  induction l generalizing w with
  | nil => exact ⟨w, rfl, rfl, rfl, fun r => by simp⟩
  | cons kv l ih =>
    obtain ⟨w₁, hrun₁, htaken₁⟩ := run_removeService_refused (h kv (by simp)) w
    obtain ⟨w₂, hrun₂, htaken₂⟩ := ih (fun kv' hkv' => h kv' (by simp [hkv'])) w₁
    refine ⟨w₂, run_bind_ok.2 ⟨true, w₁, hrun₁, hrun₂⟩, htaken₂.files.trans htaken₁.files,
      htaken₂.secrets.trans htaken₁.secrets, fun r => ?_⟩
    simp only [htaken₂.records, htaken₁.records, List.forall_mem_cons, List.not_mem_nil,
      false_implies, implies_true, and_true, and_assoc]

theorem run_deleteAccount_refused {w : World Text} {p : AccountParser} {act : AccountObject}
    (hfind : findParser env w id true = some p) (hread : p.read env w id {} = .ok act) :
    ∃ w', (deleteAccount (env.withAnswers unlinkRefused) id).run w = .ok false w' ∧
      (∀ s, s ∈ w'.secrets ↔ s ∈ w.secrets ∧ s.attr "account_id" ≠ some (env.uuidAsString act.id)) ∧
      ∀ r, r ∈ w'.records → ¬NamesRecord act r := by
  have hall := allInited_of_read hread
  obtain ⟨w₁, hservices, htaken⟩ := run_removeServices_refused env (l := act.services.toList)
    (fun kv hkv => hall kv.1 kv.2 (Std.ExtTreeMap.mem_toList_iff_getElem?_eq_some.1 hkv)) w
  obtain ⟨b, w₂, hdelete⟩ : ∃ b w₂,
      (SecretManager.removeAccount (env.withAnswers unlinkRefused) act.id).run w₁ = .ok b w₂ :=
    ⟨_, _, rfl⟩
  have hremoval : ∃ act', (act.performAccountRemoval (env.withAnswers unlinkRefused)).run w =
      .ok (true, act') w₂ := by
    cases b with
    | true => exact ⟨_, run_bind_ok.2 ⟨none, w₁, hservices, run_bind_ok.2 ⟨true, w₂, hdelete, rfl⟩⟩⟩
    | false => exact ⟨_, run_bind_ok.2 ⟨none, w₁, hservices, run_bind_ok.2 ⟨false, w₂, hdelete, rfl⟩⟩⟩
  obtain ⟨act', hremoval⟩ := hremoval
  obtain ⟨removed, w₃, hremove⟩ := returns_of_ends
    (m := p.remove (env.withAnswers unlinkRefused) id) (fun _ => ends_remove records_callsFrame p id) w₂
  have hkept : removed = false ∧ w₃.secrets = w₂.secrets ∧ w₃.records = w₂.records := by
    rcases AccountParser.remove_ok hremove with ⟨rfl, rfl⟩ | ⟨-, -, rfl, rfl⟩
    · exact ⟨rfl, rfl, rfl⟩
    · rw [World.unlinked_of_kept _ _ rfl]
      exact ⟨rfl, rfl, rfl⟩
  obtain ⟨rfl, hsecrets, hrecords⟩ := hkept
  refine ⟨w₃.addErrors ["Could not remove account file."],
    run_bind_ok.2 ⟨w, w, rfl, ?_⟩, fun s => ?_, fun r hr => ?_⟩
  · simp only [show findParser (env.withAnswers unlinkRefused) w id true = some p from hfind]
    refine run_bind_ok.2 ⟨w, w, rfl, ?_⟩
    simp only [show p.read (env.withAnswers unlinkRefused) w id {} = .ok act from hread]
    exact run_bind_ok.2 ⟨_, _, hremoval, run_bind_ok.2 ⟨false, w₃, hremove, rfl⟩⟩
  · rw [World.secrets_addErrors, hsecrets,
      removeAccount_ok unlinkRefused_deletesExactly hdelete s,
      htaken.secrets]
    rfl
  · rw [World.records_addErrors, hrecords] at hr
    rintro ⟨svc, hsvc, hid⟩
    have hr₁ : r ∈ w₁.records := by
      obtain ⟨reply, w₂', hcall, -, rfl⟩ := run_bind_ok.1 hdelete
      cases hcall
      exact hr
    exact ((htaken.records r).1 hr₁).2 (r.plugin, svc)
      (Std.ExtTreeMap.mem_toList_iff_getElem?_eq_some.2 hsvc) hid rfl

/-- Whatever the answers from outside, a deletion that returns false leaves the account whole if and
only if there is nothing it could take before it fails. -/
theorem deletesSafely_iff (env : Env Text) (w : World Text) (id : Uuid) :
    DeletesSafely env w id ↔ ¬SomethingToTake env w id := by
  constructor
  · rintro hsafe ⟨p, act, hfind, hread, hlost⟩
    obtain ⟨w', hrun, hsecrets, hrecords⟩ := run_deleteAccount_refused hfind hread
    have hwhole := hsafe unlinkRefused unlinkRefused_onlyTakes w' hrun
    rcases hlost with ⟨r, hr, hnames⟩ | ⟨hid, s, hs, hattr⟩
    · exact hrecords r ((hwhole.records p act hfind hread r hnames).2 hr) hnames
    · refine ((hsecrets s).1 ((hwhole.secrets s hattr).2 hs)).2 ?_
      rw [hattr, hid]
  · exact fun hnot answers htakes w' hr => whole_of_nothing htakes hnot hr

/-- The reference service on a file system that removes nothing. -/
def stuckFileEnv : Env YamlText := { referenceEnv with removeFile := fun _ _ => false }

theorem stuckFile_onlyTakes : OnlyTakes stuckFileEnv where
  records _ _ _ _ _ h := h
  secrets _ _ _ _ h := (List.mem_filter.1 h).1
  others _ _ _ _ h hnot := List.mem_filter.2 ⟨h, by simpa using hnot⟩

/-- The file stays, and the secret of the account is gone. -/
theorem failed_deletion_loses_secrets : ¬∀ (env : Env YamlText) (w w' : World YamlText) (id : Uuid),
    OnlyTakes env → Stored env w id → (deleteAccount env id).run w = .ok false w' →
      Whole env id w w' := by
  intro h
  have hrun : (deleteAccount stuckFileEnv 7).run mailWorld = .ok false _ :=
    eq_ok_of_result? (by decide +kernel)
  have hwhole := h stuckFileEnv mailWorld _ 7 stuckFile_onlyTakes (by decide +kernel) hrun
  have hgone : (final ((deleteAccount stuckFileEnv 7).run mailWorld)).secrets = [] := by
    decide +kernel
  have hstays := hwhole.secrets
  rw [hgone] at hstays
  have hmem := (hstays (mailWorld.secrets.getD 0 ⟨"", [], []⟩) (by decide +kernel)).2
    (by decide +kernel)
  cases hmem

end PxAccounts
