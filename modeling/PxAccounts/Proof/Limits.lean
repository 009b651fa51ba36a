import PxAccounts.Proof.Deletion
import PxAccounts.Proof.RecordIds

/-!
# Limits on the number of accounts

A plugin can limit how many accounts have its service.  A creation counts the accounts that are
listed; a modification counts nothing, so it can put the service into one account too many.
-/

namespace PxAccounts

open Effect Run AccountManager

variable {Text : Type} {env : Env Text}

/-- The account files that read as an account with the service. -/
def holders (env : Env Text) (w : World Text) (svcName : String) : Set (AccountParser × Uuid) :=
  {h | h.1 ∈ env.parsers ∧ ∃ acc, h.1.read env w h.2 {} = .ok acc ∧ svcName ∈ acc.services}

/-- The plugin of the service allows only so many accounts. -/
def Limited (env : Env Text) (svcName : String) (m : ℕ) : Prop :=
  ∃ plugin, env.registeredPlugins[svcName]? = some plugin ∧ plugin.maxInstanceCount = m

/-- No limit is exceeded. -/
def WithinLimits (env : Env Text) (w : World Text) : Prop :=
  ∀ svcName m, Limited env svcName m → (holders env w svcName).encard ≤ m

/-- What is left by a write that is cut short reads as an account with no other services. -/
def CutsAddNothing (env : Env Text) (cs : List (Call Text)) : Prop :=
  ∀ path data count, .writeFile path data (.cutShort count) ∈ cs → ∀ acc,
    AccountParser.readText env (env.yaml.cut data count) {} = .ok acc → ∀ svcName ∈ acc.services,
      ∃ whole, AccountParser.readText env data {} = .ok whole ∧ svcName ∈ whole.services

/-- The file has the service already, or there is room for one more account with it. -/
def HasRoom (env : Env Text) (w : World Text) (path : AccountPath) (services : StrMap AccountService) :
    Prop :=
  ∀ svcName ∈ services, ∀ m, Limited env svcName m →
    (∃ h ∈ holders env w svcName, h.1.accountPath env h.2 = path) ∨
      (holders env w svcName).encard < m

/-! ## Counting -/

theorem pluginNamed_of_registered {svcName : String} {plugin : PluginContainer}
    (h : env.registeredPlugins[svcName]? = some plugin) : env.pluginNamed svcName = some plugin := by
  have hmem : (svcName, plugin) ∈ env.registeredPlugins.toList :=
    Std.ExtTreeMap.mem_toList_iff_getElem?_eq_some.2 h
  have hsome : (env.registeredPlugins.toList.find? fun kv => kv.2.title == svcName).isSome :=
    List.find?_isSome.2 ⟨_, hmem, beq_iff_eq.2 (env.title_registered svcName plugin h)⟩
  obtain ⟨⟨name, plugin'⟩, hfind⟩ := Option.isSome_iff_exists.1 hsome
  have hfound : env.registeredPlugins[name]? = some plugin' :=
    Std.ExtTreeMap.mem_toList_iff_getElem?_eq_some.1 (List.mem_of_find?_eq_some hfind)
  have htitle : plugin'.title = svcName := beq_iff_eq.1 (List.find?_some hfind :)
  obtain rfl : name = svcName := (env.title_registered name plugin' hfound).symm.trans htitle
  rw [Env.pluginNamed, hfind, ← h, hfound]
  rfl

/-- The accounts that can be listed, each with its file. -/
def listedFiles (env : Env Text) (w : World Text) : List ((AccountParser × Uuid) × AccountObject) :=
  env.parsers.flatMap fun p => (p.accountFiles env w).filterMap fun actFile =>
    match env.uuidFromString (fileStem actFile) with
    | (true, id) => (p.read env w id {}).toOption.map fun acc => ((p, id), acc)
    | (false, _) => none

theorem map_listedFiles (env : Env Text) (w : World Text) :
    (listedFiles env w).map Prod.snd = listAccounts env w [] [] := by
  rw [listAccounts_eq, listedFiles, List.map_flatMap]
  congr 1
  funext p
  rw [List.map_filterMap]
  congr 1
  funext actFile
  unfold listedAt
  rcases env.uuidFromString (fileStem actFile) with ⟨_ | _, id⟩
  · rfl
  · rw [Option.map_map]
    exact Option.map_id'

theorem mem_listedFiles {w : World Text} {p : AccountParser} (hp : p ∈ env.parsers) {id : Uuid}
    {acc : AccountObject} (hread : p.read env w id {} = .ok acc) :
    ((p, id), acc) ∈ listedFiles env w := by
  refine List.mem_flatMap.2 ⟨p, hp, List.mem_filterMap.2 ⟨AccountParser.accountFile env id,
    AccountParser.mem_accountFiles.2 (isSome_of_read hread), ?_⟩⟩
  rw [AccountParser.fileStem_accountFile, AccountParser.uuidFromString_uuidAsString]
  simp [hread, Except.toOption]

/-- The listing shows at least as many accounts with a service as there are. -/
theorem encard_holders_le (env : Env Text) (w : World Text) (svcName : String) :
    (holders env w svcName).encard ≤
      ((listAccounts env w [] []).filter (·.hasService svcName)).length := by
  classical
  set l := ((listedFiles env w).filter (·.2.hasService svcName)).map Prod.fst with hl
  have hlength : ((listAccounts env w [] []).filter (·.hasService svcName)).length = l.length := by
    rw [← map_listedFiles, List.filter_map, List.length_map, hl, List.length_map]
    rfl
  have hsub : holders env w svcName ⊆ (l.toFinset : Set (AccountParser × Uuid)) := by
    rintro ⟨p, id⟩ ⟨hp, acc, hread, hmem⟩
    rw [Finset.mem_coe, List.mem_toFinset]
    refine List.mem_map.2 ⟨((p, id), acc), List.mem_filter.2 ⟨mem_listedFiles hp hread, ?_⟩, rfl⟩
    exact Std.ExtTreeMap.mem_iff_contains.1 hmem
  calc (holders env w svcName).encard
      ≤ (l.toFinset : Set (AccountParser × Uuid)).encard := Set.encard_le_encard hsub
    _ = (l.toFinset.card : ℕ∞) := Set.encard_coe_eq_coe_finsetCard _
    _ ≤ ((listAccounts env w [] []).filter (·.hasService svcName)).length := by
      rw [hlength]
      exact_mod_cast l.toFinset_card_le

/-- A check that passes has found room for every service. -/
theorem checkLimits_true {registered : List AccountObject} {l : List (String × AccountService)}
    {w w' : World Text} (hr : (checkLimits registered l).run w = .ok true w') :
    ∀ kv ∈ l, ∃ plugin, kv.2.plugin = some plugin ∧ ∀ m : ℕ, plugin.maxInstanceCount = m →
      (registered.filter (·.hasService kv.1)).length < m := by
  induction l with
  | nil => simp
  | cons kv l ih =>
    obtain ⟨svcName, svc⟩ := kv
    simp only [checkLimits] at hr
    obtain ⟨plugin, w₁, hderef, hr⟩ := run_bind_ok.1 hr
    obtain ⟨hplugin, rfl⟩ := AccountService.derefPlugin_ok hderef
    split at hr
    · simp only [run_bind_ok, run_pure_ok] at hr
      obtain ⟨_, _, -, hfalse, -⟩ := hr
      cases hfalse
    next hroom =>
      intro kv hkv
      rcases List.mem_cons.1 hkv with rfl | hkv
      · exact ⟨plugin, hplugin, fun m hm => by dsimp only; omega⟩
      · exact ih hr kv hkv

/-! ## Calls that keep to the limits -/

variable {w w' : World Text} {path : AccountPath} {services services' : StrMap AccountService}

/-- The writes among the calls are allowed by `A`, and none leaves a text that is misread. -/
structure Allowed (env : Env Text) (A : AccountPath → Prop) (cs : List (Call Text)) : Prop where
  cuts : CutsAddNothing env cs
  paths : ∀ path data outcome, .writeFile path data outcome ∈ cs → A path

variable {A : AccountPath → Prop}

theorem Allowed.of_append {cs cs' : List (Call Text)} (h : Allowed env A (cs ++ cs')) :
    Allowed env A cs ∧ Allowed env A cs' := by
  constructor
  · exact ⟨fun path data count hc => h.cuts path data count (List.mem_append_left _ hc),
      fun path data outcome hc => h.paths path data outcome (List.mem_append_left _ hc)⟩
  · exact ⟨fun path data count hc => h.cuts path data count (List.mem_append_right _ hc),
      fun path data outcome hc => h.paths path data outcome (List.mem_append_right _ hc)⟩

/-- No limit is exceeded that was kept before, as long as the writes are allowed. -/
def limiting (env : Env Text) (A : AccountPath → Prop) : Frame (World Text) where
  rel w w' := ∃ cs, w'.calls = w.calls ++ cs ∧
    (Allowed env A cs → WithinLimits env w → WithinLimits env w')
  refl w := ⟨[], by simp, fun _ h => h⟩
  trans := by
    rintro w₁ w₂ w₃ ⟨cs, hcs, h⟩ ⟨cs', hcs', h'⟩
    refine ⟨cs ++ cs', by rw [hcs', hcs, List.append_assoc], fun hallowed hw => ?_⟩
    exact h' hallowed.of_append.2 (h hallowed.of_append.1 hw)

theorem holders_mono (h : ∀ (p : AccountParser) id acc, p.read env w' id {} = .ok acc →
    p.read env w id {} = .ok acc) (svcName : String) :
    holders env w' svcName ⊆ holders env w svcName := by
  rintro ⟨p, id⟩ ⟨hp, acc, hread, hmem⟩
  exact ⟨hp, acc, h p id acc hread, hmem⟩

theorem read_of_files (hfiles : w'.files = w.files) (p : AccountParser) (id : Uuid)
    (acc : AccountObject) (hread : p.read env w' id {} = .ok acc) :
    p.read env w id {} = .ok acc := by
  rwa [AccountParser.read_congr (World.fileAt_congr hfiles _)] at hread

theorem holders_congr (hfiles : w'.files = w.files) (svcName : String) :
    holders env w' svcName = holders env w svcName :=
  (holders_mono (read_of_files hfiles) svcName).antisymm
    (holders_mono (read_of_files hfiles.symm) svcName)

theorem limiting_of_reads {cs : List (Call Text)} (hcs : w'.calls = w.calls ++ cs)
    (h : ∀ (p : AccountParser) id acc, p.read env w' id {} = .ok acc →
      p.read env w id {} = .ok acc) : (limiting env A).rel w w' :=
  ⟨cs, hcs, fun _ hw svcName m hm =>
    (Set.encard_le_encard (holders_mono h svcName)).trans (hw svcName m hm)⟩

theorem limiting_of_files {cs : List (Call Text)} (hcs : w'.calls = w.calls ++ cs)
    (hfiles : w'.files = w.files) : (limiting env A).rel w w' :=
  limiting_of_reads hcs (read_of_files hfiles)

theorem limiting_of_sameCalls (hcalls : w'.calls = w.calls) (hfiles : w'.files = w.files) :
    (limiting env A).rel w w' := limiting_of_files (hcalls.trans (List.append_nil _).symm) hfiles

theorem lenient_limiting (env : Env Text) (A : AccountPath → Prop) :
    AccountObject.Lenient env (limiting env A) where
  record _ _ _ := limiting_of_files rfl rfl
  log _ _ := limiting_of_sameCalls rfl rfl
  setSecret _ _ := limiting_of_files rfl rfl
  deleteSecret _ _ := limiting_of_files rfl rfl
  write _ _ _ _ := limiting_of_files rfl rfl
  remove _ _ _ := limiting_of_files rfl rfl

theorem bookkeeping_limiting (env : Env Text) (A : AccountPath → Prop) :
    Bookkeeping env (limiting env A) where
  errors _ _ := limiting_of_sameCalls rfl rfl
  statDict _ _ := limiting_of_sameCalls rfl rfl
  emit _ _ _ _ := limiting_of_files rfl rfl
  erase _ _ _ _ _ _ := limiting_of_reads rfl fun _ _ _ hread => read_of_erased hread
  keep _ _ := limiting_of_files rfl rfl

theorem limiting_readAccount (id : Uuid) : Within (limiting env A) (readAccount env id) :=
  within_readAccount (lenient_limiting env A).toQuiet
    (fun w _ => (bookkeeping_limiting env A).errors w _) id

theorem limiting_setStatus (id : Uuid) (stat : AccountStatus) :
    Within (limiting env A) (setStatus env id stat) :=
  (bookkeeping_limiting env A).setStatus (limiting_readAccount id) stat

theorem limiting_verifyNewAccount (act : AccountObject) :
    Within (limiting env A) (verifyNewAccount env act) :=
  (within_get.bind fun _ => within_checkLimits
    (fun w _ => (bookkeeping_limiting env A).errors w _) _ _).bind
      fun _ => within_ite (fun _ => (lenient_limiting env A).verify act) fun _ => within_pure _

/-! ## The write of an account -/

theorem HasRoom.congr (h : HasRoom env w path services) (hfiles : w'.files = w.files)
    (hnames : ∀ name : String, name ∈ services' → name ∈ services) :
    HasRoom env w' path services' := by
  intro svcName hmem m hm
  rw [holders_congr hfiles]
  exact h svcName (hnames svcName hmem) m hm

/-- Only the account that is written can come to have a service. -/
theorem holders_written {p q : AccountParser} {id : Uuid} {act : AccountObject} {svcName : String}
    (hp : p ∈ env.parsers) (hreg : ∀ name ∈ act.services, (env.pluginNamed name).isSome)
    (hcuts : CutsAddNothing env [.writeFile (p.accountPath env act.id) (documentText env act)
      (env.writeFile w.tick (p.accountPath env act.id) (documentText env act))])
    (h : (q, id) ∈ holders env (w.written env (p.accountPath env act.id) (documentText env act))
      svcName) :
    (q, id) ∈ holders env w svcName ∨ (q, id) = (p, act.id) ∧ svcName ∈ act.services := by
  obtain ⟨hq, acc, hread, hmem⟩ := h
  dsimp only at hq hread
  obtain ⟨text, hfile, htext⟩ := AccountParser.read_ok_iff.1 hread
  have hnames : ∀ {whole : AccountObject},
      AccountParser.readText env (documentText env act) {} = .ok whole →
        svcName ∈ whole.services → svcName ∈ act.services := by
    intro whole hwhole hname
    rw [readText_document hreg] at hwhole
    cases hwhole
    rwa [Std.ExtTreeMap.mem_iff_isSome_getElem?, AccountParser.stored_services_getElem?,
      Option.isSome_map, ← Std.ExtTreeMap.mem_iff_isSome_getElem?] at hname
  by_cases hpath : q.accountPath env id = p.accountPath env act.id
  · have hsame : (q, id) = (p, act.id) := by
      obtain ⟨hdir, rfl⟩ := AccountParser.accountPath_inj hpath
      rw [path_injective hq hp hdir]
    rw [hpath, World.fileAt_written_self] at hfile
    cases houtcome : env.writeFile w.tick (p.accountPath env act.id) (documentText env act) with
    | notOpened =>
      rw [houtcome] at hfile
      refine .inl ⟨hq, acc, AccountParser.read_ok_iff.2 ⟨text, ?_, htext⟩, hmem⟩
      rw [hpath]
      exact hfile
    | cutShort count =>
      rw [houtcome] at hfile hcuts
      cases hfile
      obtain ⟨whole, hwhole, hname⟩ := hcuts (p.accountPath env act.id)
        (documentText env act) count (List.mem_singleton_self _) acc htext svcName hmem
      exact .inr ⟨hsame, hnames hwhole hname⟩
    | complete =>
      rw [houtcome] at hfile
      cases hfile
      exact .inr ⟨hsame, hnames htext hmem⟩
  · rw [World.fileAt_written_of_ne _ _ hpath] at hfile
    exact .inl ⟨hq, acc, AccountParser.read_ok_iff.2 ⟨text, hfile, htext⟩, hmem⟩

theorem limiting_written {p : AccountParser} {act : AccountObject} (hp : p ∈ env.parsers)
    (hreg : ∀ name ∈ act.services, (env.pluginNamed name).isSome)
    (hroom : A (p.accountPath env act.id) → HasRoom env w (p.accountPath env act.id) act.services) :
    (limiting env A).rel w (w.written env (p.accountPath env act.id) (documentText env act)) := by
  refine ⟨_, w.calls_written _ _, fun hallowed hw svcName m hm => ?_⟩
  have hold := hw svcName m hm
  have hcuts := hallowed.cuts
  have hsub : holders env (w.written env (p.accountPath env act.id) (documentText env act)) svcName ⊆
      insert (p, act.id) (holders env w svcName) := by
    rintro ⟨q, id⟩ hmem
    rcases holders_written hp hreg hcuts hmem with h | ⟨h, -⟩
    · exact .inr h
    · exact .inl h
  by_cases hmem : svcName ∈ act.services
  · rcases hroom (hallowed.paths _ _ _ (List.mem_singleton_self _)) svcName hmem m hm with
      ⟨⟨q, id⟩, hq, hpath⟩ | hlt
    · obtain ⟨hdir, rfl⟩ := AccountParser.accountPath_inj hpath
      obtain rfl : q = p := path_injective hq.1 hp hdir
      rw [Set.insert_eq_of_mem hq] at hsub
      exact (Set.encard_le_encard hsub).trans hold
    · calc _ ≤ (insert (p, act.id) (holders env w svcName)).encard := Set.encard_le_encard hsub
        _ ≤ (holders env w svcName).encard + 1 := Set.encard_insert_le _ _
        _ ≤ m := Order.add_one_le_of_lt hlt
  · refine (Set.encard_le_encard ?_).trans hold
    rintro ⟨q, id⟩ hq
    exact (holders_written hp hreg hcuts hq).resolve_right fun h => hmem h.2

/-! ## Operations -/

/-- A creation that passed the check of the limits has room for its account. -/
theorem hasRoom_of_verifyNewAccount {act act' : AccountObject} (hinit : AllInited env act.services)
    (hr : (verifyNewAccount env act).run w = .ok (true, act') w') (path : AccountPath) :
    HasRoom env w path act.services := by
  simp only [verifyNewAccount, verifyAccountCreationLimits] at hr
  obtain ⟨allowed, w₁, hlimits, hr⟩ := run_bind_ok.1 hr
  obtain ⟨w₀, w₂, hget, hcheck⟩ := run_bind_ok.1 hlimits
  cases hget
  cases allowed with
  | false =>
    rw [if_neg (by simp), run_pure_ok] at hr
    cases hr.1
  | true =>
    rintro svcName hmem m ⟨plugin, hplugin, hmax⟩
    obtain ⟨svc, hsvc⟩ := Option.isSome_iff_exists.1 (Std.ExtTreeMap.mem_iff_isSome_getElem?.1 hmem)
    obtain ⟨plugin', hplugin', hroom⟩ := checkLimits_true hcheck (svcName, svc)
      (Std.ExtTreeMap.mem_toList_iff_getElem?_eq_some.2 hsvc)
    rw [(hinit svcName svc hsvc).plugin_eq, pluginNamed_of_registered hplugin] at hplugin'
    cases hplugin'
    refine .inr ((encard_holders_le env w svcName).trans_lt ?_)
    exact_mod_cast hroom m hmax

theorem limiting_save {act act' : AccountObject} {p : AccountParser} (hp : p ∈ env.parsers)
    (hinit : AllInited env act.services)
    (hverify : (act.verify env).run w = .ok (true, act') w')
    (hroom : A (p.accountPath env act.id) → HasRoom env w (p.accountPath env act.id) act.services) :
    (limiting env A).rel w (w'.written env (p.accountPath env act'.id) (documentText env act')) := by
  have hfiles : w'.files = w.files := congrArg Prod.fst (rest_of_verify hverify)
  obtain ⟨-, hnames⟩ := services_of_verify (reaches_of_verified hverify) hverify hinit
  refine (limiting env A).trans (((lenient_limiting env A).verify act).rel_of_ok hverify)
    (limiting_written hp (registered_of_verify hverify) fun hA => ?_)
  rw [id_of_verify hverify] at hA ⊢
  exact (hroom hA).congr hfiles fun name => (hnames name).1

theorem limiting_createAccount {act : AccountObject} (hinit : AllInited env act.services) :
    Within (limiting env A) (createAccount env act) := by
  refine fun w => (bookkeeping_limiting env A).createAccount (limiting_of_files rfl rfl)
    limiting_verifyNewAccount ?_ (limiting_setStatus _ _)
  intro p hp _ act' w₁ hr
  have hinit' : AllInited env ({ act with id := env.uuidGenerate w.tick } : AccountObject).services :=
    hinit
  exact limiting_save hp hinit' (verifyNewAccount_true hr) fun _ =>
    hasRoom_of_verifyNewAccount hinit' hr _

/-- A modification may write files that have room for its account. -/
theorem limiting_modifyAccount {id : Uuid} {act : AccountObject}
    (hinit : AllInited env act.services) (w : World Text) :
    (limiting env fun path => HasRoom env w path act.services).rel w
      (final ((modifyAccount env id act).run w)) := by
  refine (bookkeeping_limiting env _).modifyAccount (limiting_readAccount id)
    ((lenient_limiting env _).verify _) ?_ (fun _ _ _ _ _ => limiting_setStatus _ _)
    (lenient_limiting env _).cleanup
  intro q acc oldAct w₁ p act' w₂ hok hfind hr
  have hinit' : AllInited env ({ act with id := id } : AccountObject).services := hinit
  exact limiting_save (findParser_some hfind).1 hinit' hr fun hroom =>
    hroom.congr hok.silent.files fun _ h => h

theorem limiting_deleteAccount (id : Uuid) : Within (limiting env A) (deleteAccount env id) :=
  fun w => (bookkeeping_limiting env A).deleteAccount
    fun _ _ act _ => (lenient_limiting env A).performAccountRemoval act w

theorem limiting_createAutoInitializingAccounts :
    Within (limiting env A) (createAutoInitializingAccounts env) := by
  refine within_get.bind fun w => within_forM fun kv _ => within_ite (fun _ => ?_)
    fun _ => within_pure _
  refine within_ite (fun hinited => Within.bind (limiting_createAccount ?_) fun _ => within_pure _)
    fun _ => within_pure _
  exact allInited_empty.insert (linkedAs_init hinited)

/-! ## Runs -/

/-- The services of an account that is passed were initialised. -/
def Change.Inited (env : Env Text) : Change → Prop
  | .create act => AllInited env act.services
  | .modify _ act => AllInited env act.services
  | _ => True

/-- A modification that writes a file finds room there for every service of its account. -/
def Change.FindsRoom (env : Env Text) (w : World Text) : Change → Prop
  | .modify id act => ∀ path data outcome,
      .writeFile path data outcome ∈ w.newCalls (Change.after env w (.modify id act)) →
        HasRoom env w path act.services
  | _ => True

/-- An operation, however it ends. -/
def Change.Step (env : Env Text) (w : World Text) (change : Change) (w' : World Text) : Prop :=
  w' = change.after env w ∧ change.Inited env

/-- An operation that finds room, and whose writes do not leave a text that is misread. -/
structure Change.StepWithRoom (env : Env Text) (w : World Text) (change : Change) (w' : World Text) :
    Prop where
  step : change.Step env w w'
  room : change.FindsRoom env w
  cuts : CutsAddNothing env (w.newCalls w')

theorem WithinLimits.step {change : Change} (h : WithinLimits env w)
    (hstep : change.StepWithRoom env w w') : WithinLimits env w' := by
  obtain ⟨⟨rfl, hinit⟩, hroom, hcuts⟩ := hstep
  have keep : ∀ A : AccountPath → Prop, (limiting env A).rel w (change.after env w) →
      (∀ path data outcome, .writeFile path data outcome ∈ w.newCalls (change.after env w) → A path) →
        WithinLimits env (change.after env w) := by
    rintro A ⟨cs, hcs, hlimits⟩ hpaths
    rw [newCalls_eq hcs] at hcuts hpaths
    exact hlimits ⟨hcuts, hpaths⟩ h
  cases change with
  | create act =>
    exact keep _ (((limiting_createAccount hinit).bind fun _ => within_pure _) w)
      (fun _ _ _ _ => trivial)
  | modify id act =>
    exact keep _ (rel_bind_within (limiting_modifyAccount hinit w) fun _ => within_pure _) hroom
  | delete id =>
    exact keep _ (((limiting_deleteAccount id).bind fun _ => within_pure _) w)
      (fun _ _ _ _ => trivial)
  | setStatus id stat =>
    exact keep _ (((limiting_setStatus id stat).bind fun _ => within_pure _) w)
      (fun _ _ _ _ => trivial)
  | autoInitialize =>
    exact keep _ (limiting_createAutoInitializingAccounts w) (fun _ _ _ _ => trivial)

/-- The limits are kept in every run of operations whose modifications find room. -/
theorem limits_kept (env : Env Text) (w w' : World Text) (changes : List Change)
    (h : WithinLimits env w)
    (hrun : Runs (fun s change t => Change.StepWithRoom env s change t) w changes w') :
    WithinLimits env w' :=
  hrun.invariant (P := WithinLimits env) (fun _ _ _ hs hstep => hs.step hstep) h

theorem cutsAddNothing_of_uncut {cs : List (Call Text)} (h : ∀ c ∈ cs, c.cutsFile = false) :
    CutsAddNothing env cs :=
  fun _ _ _ hc => absurd (h _ hc) (by simp [Call.cutsFile])

theorem mem_holders_of_read {p : AccountParser} {id : Uuid} {svcName : String}
    (hp : p ∈ env.parsers)
    (h : (p.read env w id {}).toOption.any (·.hasService svcName) = true) :
    (p, id) ∈ holders env w svcName := by
  cases hread : p.read env w id {} with
  | error errs =>
    rw [hread] at h
    cases h
  | ok acc =>
    rw [hread] at h
    exact ⟨hp, acc, hread, Std.ExtTreeMap.mem_iff_contains.2 h⟩

/-- The reference service, whose plugin allows one account. -/
def limitedConfig : Config YamlText :=
  { referenceConfig with
    registeredPlugins := (∅ : StrMap PluginContainer).insert "mail"
      { type := .pythonPlugin, title := "mail", maxInstanceCount := 1 }
    title_registered := fun name plugin h => by
      by_cases hn : "mail" = name
      · subst hn
        rw [Std.ExtTreeMap.getElem?_insert_self] at h
        cases h
        rfl
      · rw [Std.ExtTreeMap.getElem?_insert, if_neg (by simpa using hn)] at h
        simp at h }

def limitedEnv : Env YamlText := { limitedConfig, referenceAnswers with }

/-- An account with the limited service. -/
def limitedMail : AccountObject where
  title := "Mail"
  services := (∅ : StrMap AccountService).insert "mail" (({} : AccountService).init limitedEnv "mail")

theorem allInited_limitedMail : AllInited limitedEnv limitedMail.services :=
  allInited_empty.insert (linkedAs_init (by decide))

theorem withinLimits_of_empty (h : ∀ dir, w.files dir = ∅) : WithinLimits env w := by
  intro svcName m _
  have hnone : holders env w svcName = ∅ := by
    refine Set.eq_empty_of_forall_notMem ?_
    rintro ⟨p, id⟩ ⟨-, acc, hread, -⟩
    obtain ⟨text, hfile, -⟩ := AccountParser.read_ok_iff.1 hread
    rw [World.fileAt, h, Std.ExtTreeMap.getElem?_empty] at hfile
    cases hfile
  rw [hnone, Set.encard_empty]
  exact bot_le

/-- An account with the service is created. -/
def limitedWorld : World YamlText :=
  Change.after limitedEnv { files := fun _ => ∅ } (.create limitedMail)

theorem step_limitedWorld :
    Change.Step limitedEnv { files := fun _ => ∅ } (.create limitedMail) limitedWorld :=
  ⟨rfl, allInited_limitedMail⟩

/-- The account is changed to have no service. -/
theorem limits_kept_limited :
    WithinLimits limitedEnv (Change.after limitedEnv limitedWorld (.modify 1 { title := "Notes" })) := by
  have hfirst : Change.StepWithRoom limitedEnv { files := fun _ => ∅ } (.create limitedMail)
      limitedWorld := ⟨step_limitedWorld, trivial, cutsAddNothing_of_uncut (by decide +kernel)⟩
  have hroom : Change.FindsRoom limitedEnv limitedWorld (.modify 1 { title := "Notes" }) :=
    fun _ _ _ _ svcName hmem => absurd hmem (by simp)
  have hsecond : Change.StepWithRoom limitedEnv limitedWorld (.modify 1 { title := "Notes" })
      (Change.after limitedEnv limitedWorld (.modify 1 { title := "Notes" })) :=
    ⟨⟨rfl, allInited_empty⟩, hroom, cutsAddNothing_of_uncut (by decide +kernel)⟩
  exact limits_kept limitedEnv { files := fun _ => ∅ } _ _ (withinLimits_of_empty fun _ => rfl)
    (.snoc (.snoc (.nil _) hfirst) hsecond)

/-- An account without services is created as well. -/
def notesWorld : World YamlText := Change.after limitedEnv limitedWorld (.create { title := "Notes" })

def notesId : Uuid := limitedEnv.uuidGenerate limitedWorld.tick

/-- The second account is changed to have the service too. -/
def crowdedWorld : World YamlText :=
  Change.after limitedEnv notesWorld (.modify notesId limitedMail)

/-- A modification does not look at the limits. -/
theorem modification_exceeds_limit : ¬∀ (env : Env YamlText) (w w' : World YamlText) changes,
    WithinLimits env w → Runs (fun s change t => Change.Step env s change t) w changes w' →
      WithinLimits env w' := by
  intro h
  have hnotes : Change.Step limitedEnv limitedWorld (.create { title := "Notes" }) notesWorld :=
    ⟨rfl, allInited_empty⟩
  have hcrowded : Change.Step limitedEnv notesWorld (.modify notesId limitedMail) crowdedWorld :=
    ⟨rfl, allInited_limitedMail⟩
  have hlimit := h limitedEnv { files := fun _ => ∅ } crowdedWorld _
    (withinLimits_of_empty fun _ => rfl)
    (.snoc (.snoc (.snoc (.nil _) step_limitedWorld) hnotes) hcrowded) "mail" 1 ⟨_, rfl, rfl⟩
  have hfirst : (({ path := "/accounts", readonly := false }, 1) : AccountParser × Uuid) ∈
      holders limitedEnv crowdedWorld "mail" :=
    mem_holders_of_read (by decide) (by decide +kernel)
  have hsecond : (({ path := "/accounts", readonly := false }, notesId) : AccountParser × Uuid) ∈
      holders limitedEnv crowdedWorld "mail" :=
    mem_holders_of_read (by decide) (by decide +kernel)
  have hmany : 1 < (holders limitedEnv crowdedWorld "mail").encard :=
    Set.one_lt_encard_iff.2 ⟨_, _, hfirst, hsecond, by decide +kernel⟩
  rw [Nat.cast_one] at hlimit
  exact absurd hlimit (not_le.2 hmany)

end PxAccounts
