import PxAccounts.Proof.DefaultAccount

/-!
# Accounts created automatically

At the start the service creates an account for every plugin that asks for one and has none.  Neither
the accounts created before nor a second start change what is decided for a plugin.
-/

namespace PxAccounts

open Effect AccountManager

variable {Text : Type} {env : Env Text}

/-- The loop over the plugins that starts in `w` stands in `s` before one of its turns. -/
def StandsBefore (env : Env Text) (w s : World Text) : Prop :=
  ∃ done kv rest, env.registeredPlugins.toList = done ++ kv :: rest ∧
    (forM done (autoInitialize env (listAccounts env w [] []))).run w = .ok ⟨⟩ s

/-- In a call made in `w`, a uuid is fresh whenever it is generated. -/
def FreshUuids (env : Env Text) (w : World Text) : Prop :=
  ∀ s, StandsBefore env w s → Unused env s (env.uuidGenerate s.tick)

/-! ## One turn of the loop -/

/-- The file reads as an account whose only service is the given one. -/
def ReadsAsDefault (env : Env Text) (w : World Text) (p : AccountParser) (id : Uuid)
    (name : String) : Prop :=
  ∃ acc, p.read env w id {} = .ok acc ∧ acc.id = id ∧
    ∀ svcName : String, svcName ∈ acc.services ↔ svcName = name

/-- From `s` to `s'` one account file was added, which has just the given service. -/
structure AddsDefault (env : Env Text) (name : String) (p : AccountParser) (id : Uuid)
    (s s' : World Text) : Prop where
  mem : p ∈ env.parsers
  free : s.fileAt (p.accountPath env id) = none
  others : ∀ path, path ≠ p.accountPath env id → s'.fileAt path = s.fileAt path
  reads : ReadsAsDefault env s' p id name

theorem addsDefault_of_create (hwrites : ∀ n path data, env.writeFile n path data = .complete)
    {name : String} {plugin : PluginContainer} (hnamed : env.pluginNamed name = some plugin)
    {act' : AccountObject} {s s' : World Text} (hunused : Unused env s (env.uuidGenerate s.tick))
    (hr : (createAccount env (defaultAccount env name)).run s = .ok (true, act') s') :
    ∃ p id, AddsDefault env name p id s s' := by
  rcases create_cases hr with ⟨hfalse, -⟩ | ⟨-, hid, p, s₁, s₂, sb, hverify, hsaved⟩
  · cases hfalse
  have hp : p ∈ env.parsers := hsaved.routed.mem
  have hnone : s.fileAt (p.accountPath env act'.id) = none := by
    rw [hid, ← Option.not_isSome_iff_eq_none]
    exact fun hsome => hunused.files ⟨p, hp, hsome⟩
  have hfile : s'.fileAt (p.accountPath env act'.id) = some (documentText env act') := by
    rw [World.fileAt_congr hsaved.files_eq, World.fileAt_written_self, hwrites]
    rfl
  refine ⟨p, act'.id, hp, hnone, fun path hpath => ?_, AccountParser.stored env act',
    AccountParser.read_of_fileAt hsaved.registered hfile, rfl, fun svcName => ?_⟩
  · rw [World.fileAt_congr hsaved.files_eq, World.fileAt_written_of_ne _ _ hpath]
    exact World.fileAt_congr hsaved.files₁ path
  · obtain ⟨-, hservices⟩ := services_of_verify (reaches_defaultAccount env name _) hverify
      (allInited_defaultAccount hnamed)
    rw [AccountParser.stored, Std.ExtTreeMap.mem_map, hservices, eq_comm]
    simp [defaultAccount]

/-- A creation that was not decided on leaves the files as they were. -/
theorem files_of_not_created (hinit : env.eventManagerInited = true) {act : AccountObject}
    {decision : Option Bool} {s : World Text} (hne : decision ≠ some true)
    (h : EndsAs decision ((createAccount env act).run s)) :
    (final ((createAccount env act).run s)).files = s.files := by
  cases decision with
  | none =>
    obtain ⟨what, s', hr⟩ := h
    rw [hr]
    exact congrArg Prod.fst (failsEarly_createAccount hinit act s _ s' hr)
  | some b =>
    obtain ⟨act', s', hr⟩ := h
    rw [hr]
    rcases create_cases hr with ⟨-, hrest⟩ | ⟨rfl, -⟩
    · exact congrArg Prod.fst hrest
    · exact absurd rfl hne

/-- What is decided in the turn for a plugin, with the accounts registered before. -/
def turnDecision (env : Env Text) (registered : List AccountObject)
    (kv : String × PluginContainer) : Option Bool :=
  if kv.2.autoInitialize && !registered.any (·.hasService kv.1) then creationDecision env kv.2
  else some false

/-- What a turn comes to by its decision. -/
inductive TurnCase (env : Env Text) (name : String) (s : World Text) :
    Option Bool → EStateM.Result Exn (World Text) PUnit → Prop
  | raised {what : String} {s' : World Text} : s'.files = s.files →
      TurnCase env name s none (.error (.std what) s')
  | kept {s' : World Text} : s'.files = s.files → TurnCase env name s (some false) (.ok ⟨⟩ s')
  | created {p : AccountParser} {id : Uuid} {s' : World Text} : AddsDefault env name p id s s' →
      TurnCase env name s (some true) (.ok ⟨⟩ s')

theorem autoInitialize_of_wanted {registered : List AccountObject} {kv : String × PluginContainer}
    (hnamed : env.pluginNamed kv.1 = some kv.2)
    (h : (kv.2.autoInitialize && !registered.any (·.hasService kv.1)) = true) :
    autoInitialize env registered kv =
      createAccount env (defaultAccount env kv.1) >>= fun _ => pure () := by
  obtain ⟨name, plugin⟩ := kv
  have hinited : (({} : AccountService).init env name).inited = true :=
    Option.isSome_iff_exists.2 ⟨plugin, hnamed⟩
  unfold autoInitialize
  dsimp only at h ⊢
  rw [if_pos h, if_pos hinited]
  rfl

theorem autoInitialize_of_unwanted {registered : List AccountObject}
    {kv : String × PluginContainer}
    (h : ¬(kv.2.autoInitialize && !registered.any (·.hasService kv.1)) = true) :
    autoInitialize env registered kv = pure () := by
  obtain ⟨name, plugin⟩ := kv
  unfold autoInitialize
  dsimp only at h ⊢
  rw [if_neg h]

/-- What the answers from outside have to be like. -/
structure WellServed (env : Env Text) : Prop where
  answers : AnswersByInput env
  finds : FindsStored env
  accepts : AcceptsAll env
  inited : env.eventManagerInited = true
  writes : ∀ n path data, env.writeFile n path data = .complete

theorem turn_case (hserved : WellServed env) {registered : List AccountObject}
    {kv : String × PluginContainer} (hnamed : env.pluginNamed kv.1 = some kv.2) {s : World Text}
    (hunused : Unused env s (env.uuidGenerate s.tick))
    (hfree : registered.any (·.hasService kv.1) = false →
      ∀ acc ∈ listAccounts env s [] [], acc.hasService kv.1 = false) :
    TurnCase env kv.1 s (turnDecision env registered kv)
      ((autoInitialize env registered kv).run s) := by
  unfold turnDecision
  by_cases hwanted : (kv.2.autoInitialize && !registered.any (·.hasService kv.1)) = true
  · rw [if_pos hwanted, autoInitialize_of_wanted hnamed hwanted]
    have hends := endsAs_createAccount hserved.answers hserved.finds hserved.accepts hnamed
      (hfree (by simpa using (Bool.and_eq_true_iff.1 hwanted).2)) hserved.inited hunused
    have hfiles := fun hne => files_of_not_created hserved.inited hne hends
    cases hdecision : creationDecision env kv.2 with
    | none =>
      rw [hdecision] at hends hfiles
      obtain ⟨what, s', hr⟩ := hends
      rw [EStateM.run_bind, hr]
      rw [hr] at hfiles
      exact .raised (hfiles (by decide))
    | some b =>
      rw [hdecision] at hends hfiles
      obtain ⟨act', s', hr⟩ := hends
      rw [EStateM.run_bind, hr]
      rw [hr] at hfiles
      cases b with
      | false => exact .kept (hfiles (by decide))
      | true =>
        obtain ⟨p, id, hadds⟩ := addsDefault_of_create hserved.writes hnamed hunused hr
        exact .created hadds
  · rw [if_neg hwanted, autoInitialize_of_unwanted hwanted]
    exact .kept rfl

/-! ## The accounts created so far -/

/-- What was made of the files of `w`: `created` gives the directory and the id of the new account
of a plugin. -/
structure AutoCreated (env : Env Text) (w s : World Text)
    (created : String → Option (AccountParser × Uuid)) : Prop where
  kept : ∀ path text, w.fileAt path = some text → s.fileAt path = some text
  added : ∀ path, w.fileAt path = none → (s.fileAt path).isSome →
    ∃ name p id, created name = some (p, id) ∧ path = p.accountPath env id
  default : ∀ name p id, created name = some (p, id) →
    p ∈ env.parsers ∧ w.fileAt (p.accountPath env id) = none ∧ ReadsAsDefault env s p id name

theorem exists_holder_iff {w : World Text} {name : String} : (holders env w name).Nonempty ↔
    (listAccounts env w [] []).any (·.hasService name) = true := by
  rw [List.any_eq_true]
  constructor
  · rintro ⟨⟨p, id⟩, hp, acc, hread, hname⟩
    exact ⟨acc, mem_listAccounts_of_read hp hread, Std.ExtTreeMap.contains_iff_mem.2 hname⟩
  · rintro ⟨acc, hacc, hname⟩
    obtain ⟨p, hp, -, -, id, -, hread⟩ := mem_listAccounts.1 hacc
    exact ⟨(p, id), hp, acc, hread, Std.ExtTreeMap.contains_iff_mem.1 hname⟩

section Created

variable {w s s' : World Text} {created : String → Option (AccountParser × Uuid)}

theorem AutoCreated.refl (env : Env Text) (w : World Text) :
    AutoCreated env w w fun _ => none where
  kept _ _ h := h
  added path hnone hsome := by
    rw [hnone] at hsome
    cases hsome
  default name p id h := by cases h

theorem ReadsAsDefault.congr {p : AccountParser} {id : Uuid} {name : String}
    (h : ReadsAsDefault env s p id name)
    (hfile : s'.fileAt (p.accountPath env id) = s.fileAt (p.accountPath env id)) :
    ReadsAsDefault env s' p id name := by
  obtain ⟨acc, hread, hacc⟩ := h
  exact ⟨acc, (AccountParser.read_congr hfile).trans hread, hacc⟩

theorem AutoCreated.congr (h : AutoCreated env w s created) (hfiles : s'.files = s.files) :
    AutoCreated env w s' created where
  kept path text hw := (World.fileAt_congr hfiles path).trans (h.kept path text hw)
  added path hnone hsome := h.added path hnone (by rwa [World.fileAt_congr hfiles] at hsome)
  default name p id hcreated := by
    obtain ⟨hp, hnone, hreads⟩ := h.default name p id hcreated
    exact ⟨hp, hnone, hreads.congr (World.fileAt_congr hfiles _)⟩

/-- A service is held by the accounts that held it before and by the one created for it. -/
theorem AutoCreated.holders_iff (h : AutoCreated env w s created) (name : String) :
    (holders env s name).Nonempty ↔ (holders env w name).Nonempty ∨ (created name).isSome := by
  constructor
  · rintro ⟨⟨p, id⟩, hp, acc, hread, hname⟩
    obtain ⟨text, htext, hacc⟩ := AccountParser.read_ok_iff.1 hread
    cases hw : w.fileAt (p.accountPath env id) with
    | some text' =>
      cases htext.symm.trans (h.kept _ _ hw)
      exact .inl ⟨(p, id), hp, acc, AccountParser.read_ok_iff.2 ⟨text, hw, hacc⟩, hname⟩
    | none =>
      obtain ⟨name', p', id', hcreated, hpath⟩ := h.added _ hw (by rw [htext]; rfl)
      obtain ⟨-, -, acc', hread', -, honly⟩ := h.default name' p' id' hcreated
      obtain ⟨text', htext', hacc'⟩ := AccountParser.read_ok_iff.1 hread'
      rw [← hpath] at htext'
      cases htext.symm.trans htext'
      cases hacc.symm.trans hacc'
      obtain rfl := (honly name).1 hname
      exact .inr (by rw [hcreated]; rfl)
  · rintro (⟨⟨p, id⟩, hp, acc, hread, hname⟩ | hcreated)
    · obtain ⟨text, htext, hacc⟩ := AccountParser.read_ok_iff.1 hread
      exact ⟨(p, id), hp, acc,
        AccountParser.read_ok_iff.2 ⟨text, h.kept _ _ htext, hacc⟩, hname⟩
    · obtain ⟨⟨p, id⟩, hcreated⟩ := Option.isSome_iff_exists.1 hcreated
      obtain ⟨hp, -, acc, hread, -, honly⟩ := h.default name p id hcreated
      exact ⟨(p, id), hp, acc, hread, (honly name).2 rfl⟩

/-- One more account is created. -/
theorem AutoCreated.adds (h : AutoCreated env w s created) {name : String} {p : AccountParser}
    {id : Uuid} (hadds : AddsDefault env name p id s s') (hnew : created name = none) :
    AutoCreated env w s' (Function.update created name (some (p, id))) where
  kept path text hw := by
    have hs := h.kept path text hw
    have hne : path ≠ p.accountPath env id := by
      rintro rfl
      cases hs.symm.trans hadds.free
    rw [hadds.others path hne, hs]
  added path hnone hsome := by
    by_cases hpath : path = p.accountPath env id
    · exact ⟨name, p, id, Function.update_self .., hpath⟩
    · rw [hadds.others path hpath] at hsome
      obtain ⟨name', p', id', hcreated, hpath'⟩ := h.added path hnone hsome
      refine ⟨name', p', id', ?_, hpath'⟩
      rwa [Function.update_of_ne]
      rintro rfl
      cases hnew.symm.trans hcreated
  default name' p' id' hcreated := by
    by_cases hname : name' = name
    · subst hname
      rw [Function.update_self] at hcreated
      cases hcreated
      refine ⟨hadds.mem, ?_, hadds.reads⟩
      cases hw : w.fileAt (p.accountPath env id) with
      | none => rfl
      | some text => cases (h.kept _ _ hw).symm.trans hadds.free
    · rw [Function.update_of_ne hname] at hcreated
      obtain ⟨hp, hnone, hreads⟩ := h.default name' p' id' hcreated
      refine ⟨hp, hnone, hreads.congr (hadds.others _ ?_)⟩
      intro hpath
      obtain ⟨acc, hread, -⟩ := hreads
      have hsome := isSome_of_read hread
      rw [hpath, hadds.free] at hsome
      cases hsome

end Created

/-! ## The loop over the plugins -/

/-- What a call made in `w` decides in the turn for a plugin. -/
def decisionAt (env : Env Text) (w : World Text) (kv : String × PluginContainer) : Option Bool :=
  turnDecision env (listAccounts env w [] []) kv

theorem decisionAt_of_held {w : World Text} {kv : String × PluginContainer}
    (h : (holders env w kv.1).Nonempty) : decisionAt env w kv = some false := by
  unfold decisionAt turnDecision
  rw [exists_holder_iff.1 h, if_neg (by simp)]

theorem decisionAt_of_not_held {w : World Text} {kv : String × PluginContainer}
    (h : ¬(holders env w kv.1).Nonempty) : decisionAt env w kv =
      if kv.2.autoInitialize = true then creationDecision env kv.2 else some false := by
  rw [exists_holder_iff, Bool.not_eq_true] at h
  unfold decisionAt turnDecision
  rw [h, Bool.not_false, Bool.and_true]

/-- Only the accounts with the service count for the decision. -/
theorem decisionAt_congr {w w' : World Text} {kv : String × PluginContainer}
    (h : (holders env w' kv.1).Nonempty ↔ (holders env w kv.1).Nonempty) :
    decisionAt env w' kv = decisionAt env w kv := by
  by_cases hheld : (holders env w kv.1).Nonempty
  · rw [decisionAt_of_held hheld, decisionAt_of_held (h.2 hheld)]
  · rw [decisionAt_of_not_held hheld, decisionAt_of_not_held (mt h.1 hheld)]

/-- The turns before a plugin, or all of them, have gone well. -/
structure Progress (env : Env Text) (w : World Text) (done : List (String × PluginContainer))
    (s : World Text) (created : String → Option (AccountParser × Uuid)) : Prop
    extends AutoCreated env w s created where
  created_iff : ∀ name, (created name).isSome ↔
    ∃ plugin, (name, plugin) ∈ done ∧ decisionAt env w (name, plugin) = some true
  decided : ∀ kv ∈ done, decisionAt env w kv ≠ none

section Loop

variable {w s s' : World Text} {created : String → Option (AccountParser × Uuid)}
  {done rest : List (String × PluginContainer)} {kv : String × PluginContainer}

theorem pluginNamed_of_mem (h : kv ∈ env.registeredPlugins.toList) :
    env.pluginNamed kv.1 = some kv.2 :=
  pluginNamed_of_registered (Std.ExtTreeMap.mem_toList_iff_getElem?_eq_some.1 h)

theorem not_mem_done (hl : env.registeredPlugins.toList = done ++ kv :: rest)
    (plugin : PluginContainer) : (kv.1, plugin) ∉ done := by
  have hnodup := TreeMap.nodup_keys_toList env.registeredPlugins
  rw [hl, List.map_append, List.map_cons, List.nodup_append] at hnodup
  intro hmem
  exact hnodup.2.2 kv.1 (List.mem_map.2 ⟨_, hmem, rfl⟩) kv.1 List.mem_cons_self rfl

theorem Progress.keeps (h : Progress env w done s created) (hfiles : s'.files = s.files) :
    Progress env w done s' created where
  toAutoCreated := h.toAutoCreated.congr hfiles
  created_iff := h.created_iff
  decided := h.decided

theorem Progress.skip (h : Progress env w done s created)
    (hdecision : decisionAt env w kv = some false) : Progress env w (done ++ [kv]) s created where
  toAutoCreated := h.toAutoCreated
  created_iff name := by
    rw [h.created_iff]
    constructor
    · rintro ⟨plugin, hmem, htrue⟩
      exact ⟨plugin, List.mem_append_left _ hmem, htrue⟩
    · rintro ⟨plugin, hmem, htrue⟩
      rcases List.mem_append.1 hmem with hmem | hmem
      · exact ⟨plugin, hmem, htrue⟩
      · rw [List.mem_singleton] at hmem
        rw [hmem, hdecision] at htrue
        cases htrue
  decided := List.forall_mem_append.2 ⟨h.decided, by simp [hdecision]⟩

theorem Progress.create (h : Progress env w done s created)
    (hl : env.registeredPlugins.toList = done ++ kv :: rest)
    (hdecision : decisionAt env w kv = some true) {p : AccountParser} {id : Uuid}
    (hadds : AddsDefault env kv.1 p id s s') :
    Progress env w (done ++ [kv]) s' (Function.update created kv.1 (some (p, id))) where
  toAutoCreated := by
    refine h.toAutoCreated.adds hadds ?_
    rw [← Option.not_isSome_iff_eq_none, h.created_iff]
    rintro ⟨plugin, hmem, -⟩
    exact not_mem_done hl plugin hmem
  created_iff name := by
    by_cases hname : name = kv.1
    · subst hname
      rw [Function.update_self]
      exact iff_of_true rfl ⟨kv.2, by simp, hdecision⟩
    · rw [Function.update_of_ne hname, h.created_iff]
      refine exists_congr fun plugin => and_congr_left fun _ => ?_
      rw [List.mem_append, List.mem_singleton]
      refine ⟨.inl, fun hmem => hmem.resolve_right ?_⟩
      rintro rfl
      exact hname rfl
  decided := List.forall_mem_append.2 ⟨h.decided, by simp [hdecision]⟩

theorem turn_at (hserved : WellServed env) (hfresh : FreshUuids env w)
    (hl : env.registeredPlugins.toList = done ++ kv :: rest)
    (hrun : (forM done (autoInitialize env (listAccounts env w [] []))).run w = .ok ⟨⟩ s)
    (hfree : ¬(holders env w kv.1).Nonempty → ¬(holders env s kv.1).Nonempty) :
    TurnCase env kv.1 s (decisionAt env w kv)
      ((autoInitialize env (listAccounts env w [] []) kv).run s) := by
  refine turn_case hserved (pluginNamed_of_mem (by rw [hl]; simp)) (hfresh s ⟨done, kv, rest, hl,
    hrun⟩) fun hnone acc hacc => ?_
  by_contra hhas
  have hheld : (holders env s kv.1).Nonempty :=
    exists_holder_iff.2 (List.any_eq_true.2 ⟨acc, hacc, by simpa using hhas⟩)
  refine hfree (fun h => ?_) hheld
  rw [exists_holder_iff.1 h] at hnone
  cases hnone

/-- A call goes through all plugins, or up to the first that raises an exception. -/
theorem run_loop (hserved : WellServed env) (hfresh : FreshUuids env w) :
    (∃ s, (createAutoInitializingAccounts env).run w = .ok ⟨⟩ s ∧
      ∃ created, Progress env w env.registeredPlugins.toList s created) ∨
    ∃ done kv rest e s, env.registeredPlugins.toList = done ++ kv :: rest ∧
      (createAutoInitializingAccounts env).run w = .error e s ∧ decisionAt env w kv = none ∧
        ∃ created, Progress env w done s created := by
  refine forM_cases (fun done s => ∃ created, Progress env w done s created)
    (fun done kv s => decisionAt env w kv = none ∧ ∃ created, Progress env w done s created) ?_ ?_
  · rintro done kv rest s hl hrun ⟨created, hprogress⟩
    have hturn := turn_at hserved hfresh hl hrun fun hnone => by
      rw [hprogress.holders_iff, hprogress.created_iff]
      rintro (h | ⟨plugin, hmem, -⟩)
      · exact hnone h
      · exact not_mem_done hl plugin hmem
    generalize hd : decisionAt env w kv = d at hturn
    generalize hr : (autoInitialize env (listAccounts env w [] []) kv).run s = r at hturn
    cases hturn with
    | raised hfiles => exact .inr ⟨_, _, rfl, rfl, created, hprogress.keeps hfiles⟩
    | kept hfiles => exact .inl ⟨_, rfl, created, (hprogress.skip hd).keeps hfiles⟩
    | created hadds => exact .inl ⟨_, rfl, _, hprogress.create hl hd hadds⟩
  · exact ⟨fun _ => none, .refl env w, fun name => by simp, fun kv h => by cases h⟩

/-- A call that is to create nothing leaves all files as they were. -/
theorem files_of_nothing_to_create (hserved : WellServed env) (hfresh : FreshUuids env w)
    (hnothing : ∀ done kv rest, env.registeredPlugins.toList = done ++ kv :: rest →
      (∀ kv' ∈ done, decisionAt env w kv' ≠ none) → decisionAt env w kv ≠ some true) :
    (final ((createAutoInitializingAccounts env).run w)).files = w.files := by
  have hcases : (∃ s : World Text, (createAutoInitializingAccounts env).run w = .ok ⟨⟩ s ∧
      s.files = w.files ∧ ∀ kv' ∈ env.registeredPlugins.toList, decisionAt env w kv' ≠ none) ∨
      ∃ (done : List (String × PluginContainer)) (kv : String × PluginContainer)
        (rest : List (String × PluginContainer)) (e : Exn) (s : World Text),
        env.registeredPlugins.toList = done ++ kv :: rest ∧
          (createAutoInitializingAccounts env).run w = .error e s ∧ s.files = w.files := by
    refine forM_cases
      (fun done (s : World Text) => s.files = w.files ∧ ∀ kv' ∈ done, decisionAt env w kv' ≠ none)
      (fun _ _ (s : World Text) => s.files = w.files) ?_ ⟨rfl, fun kv' h => by cases h⟩
    · rintro done kv rest s hl hrun ⟨hfiles, hdone⟩
      have hturn := turn_at hserved hfresh hl hrun (by rw [holders_congr hfiles]; exact id)
      have hne := hnothing done kv rest hl hdone
      generalize hd : decisionAt env w kv = d at hturn hne
      generalize hr : (autoInitialize env (listAccounts env w [] []) kv).run s = r at hturn
      cases hturn with
      | raised hfiles' => exact .inr ⟨_, _, rfl, hfiles'.trans hfiles⟩
      | kept hfiles' =>
        exact .inl ⟨_, rfl, hfiles'.trans hfiles, List.forall_mem_append.2 ⟨hdone, by simp [hd]⟩⟩
      | created _ => exact absurd rfl hne
  rcases hcases with ⟨s, hr, hfiles, -⟩ | ⟨_, _, _, e, s, -, hr, hfiles⟩
  · rw [hr]
    exact hfiles
  · rw [hr]
    exact hfiles

/-- After a call there is nothing left to create, up to where the next one gets. -/
theorem nothing_to_create {reached tail : List (String × PluginContainer)}
    (hl : env.registeredPlugins.toList = reached ++ tail)
    (htail : ∀ kv rest, tail = kv :: rest → decisionAt env w kv = none)
    (h : Progress env w reached s created) (hl' : env.registeredPlugins.toList = done ++ kv :: rest)
    (hdone : ∀ kv' ∈ done, decisionAt env s kv' ≠ none) : decisionAt env s kv ≠ some true := by
  intro htrue
  have hfree : ¬(holders env s kv.1).Nonempty := by
    intro hheld
    rw [decisionAt_of_held hheld] at htrue
    cases htrue
  have hfree' := mt (h.holders_iff kv.1).2 hfree
  have hsame : decisionAt env s kv = decisionAt env w kv :=
    decisionAt_congr (iff_of_false hfree fun hheld => hfree' (.inl hheld))
  -- What the first call reached it has created.
  have hnot : kv ∉ reached := fun hmem =>
    hfree' (.inr ((h.created_iff kv.1).2 ⟨kv.2, hmem, hsame ▸ htrue⟩))
  have hstop : ∀ kv₀ rest₀, tail = kv₀ :: rest₀ → decisionAt env s kv₀ = none := by
    intro kv₀ rest₀ htail₀
    rw [← htail kv₀ rest₀ htail₀]
    refine decisionAt_congr ?_
    rw [h.holders_iff, or_iff_left]
    rw [h.created_iff]
    rintro ⟨plugin, hmem, -⟩
    exact not_mem_done (hl.trans (by rw [htail₀])) plugin hmem
  rcases List.append_eq_append_iff.1 (hl.symm.trans hl') with
    ⟨between, rfl, htail₀⟩ | ⟨between, rfl, hkv⟩
  · cases between with
    | nil => rw [hstop kv rest htail₀] at htrue; cases htrue
    | cons kv₀ between => exact hdone kv₀ (by simp) (hstop kv₀ _ htail₀)
  · cases between with
    | nil => rw [hstop kv rest hkv.symm] at htrue; cases htrue
    | cons kv₀ between =>
      cases hkv
      exact hnot (by simp)

end Loop

/-- An account is to be created for the plugin: it asks for one, none has its service yet, and
`createAccount` accepts it. -/
def Wanted (env : Env Text) (w : World Text) (name : String) : Prop :=
  ∃ plugin, env.registeredPlugins[name]? = some plugin ∧ plugin.autoInitialize = true ∧
    holders env w name = ∅ ∧
    ∃ act' w', (createAccount env (defaultAccount env name)).run w = .ok (true, act') w'

/-- No plugin raises an exception that its container lets out. -/
structure NothingLetOut (env : Env Text) : Prop where
  verify : ∀ n plugin params what, ¬(env.verify n plugin params).Uncaught plugin what
  authenticate : ∀ n plugin params what, ¬(env.authenticate n plugin params).Uncaught plugin what

section Call

variable {w : World Text} (hserved : WellServed env) (hfresh : FreshUuids env w)
include hserved hfresh

theorem wanted_iff {name : String} : Wanted env w name ↔
    ∃ plugin, (name, plugin) ∈ env.registeredPlugins.toList ∧
      decisionAt env w (name, plugin) = some true := by
  have hends : ∀ plugin, env.registeredPlugins[name]? = some plugin →
      ¬(holders env w name).Nonempty → EndsAs (creationDecision env plugin)
        ((createAccount env (defaultAccount env name)).run w) := by
    intro plugin hplugin hfree
    obtain ⟨kv, rest, hl⟩ := List.exists_cons_of_ne_nil
      (List.ne_nil_of_mem (Std.ExtTreeMap.mem_toList_iff_getElem?_eq_some.2 hplugin))
    refine endsAs_createAccount hserved.answers hserved.finds hserved.accepts
      (pluginNamed_of_registered hplugin) (fun acc hacc => ?_) hserved.inited
      (hfresh w ⟨[], kv, rest, hl, rfl⟩)
    by_contra hhas
    exact hfree (exists_holder_iff.2 (List.any_eq_true.2 ⟨acc, hacc, by simpa using hhas⟩))
  constructor
  · rintro ⟨plugin, hplugin, hauto, hempty, act', w', hr⟩
    have hfree : ¬(holders env w name).Nonempty := Set.not_nonempty_iff_eq_empty.2 hempty
    refine ⟨plugin, Std.ExtTreeMap.mem_toList_iff_getElem?_eq_some.2 hplugin, ?_⟩
    rw [decisionAt_of_not_held hfree, if_pos hauto]
    exact (hends plugin hplugin hfree).unique hr
  · rintro ⟨plugin, hmem, htrue⟩
    have hplugin := Std.ExtTreeMap.mem_toList_iff_getElem?_eq_some.1 hmem
    by_cases hheld : (holders env w name).Nonempty
    · rw [decisionAt_of_held hheld] at htrue
      cases htrue
    rw [decisionAt_of_not_held hheld] at htrue
    by_cases hauto : plugin.autoInitialize = true
    · rw [if_pos hauto] at htrue
      have hend := hends plugin hplugin hheld
      rw [htrue] at hend
      exact ⟨plugin, hplugin, hauto, Set.not_nonempty_iff_eq_empty.1 hheld, hend⟩
    · rw [if_neg hauto] at htrue
      cases htrue

/-- What a call has created, and that the next one finds nothing left to do. -/
theorem progress_of_call : ∃ reached tail created,
    env.registeredPlugins.toList = reached ++ tail ∧
    (∀ kv rest, tail = kv :: rest → decisionAt env w kv = none) ∧
    ((∃ w', (createAutoInitializingAccounts env).run w = .ok () w') → tail = []) ∧
    Progress env w reached (final ((createAutoInitializingAccounts env).run w)) created := by
  rcases run_loop hserved hfresh with
    ⟨s, hr, created, hprogress⟩ | ⟨reached, kv, rest, e, s, hl, hr, hnone, created, hprogress⟩
  · refine ⟨_, [], created, (List.append_nil _).symm, nofun, fun _ => rfl, ?_⟩
    rw [hr]
    exact hprogress
  · refine ⟨reached, kv :: rest, created, hl, fun kv' rest' h => by cases h; exact hnone, ?_, ?_⟩
    · rintro ⟨w', hr'⟩
      rw [hr] at hr'
      cases hr'
    · rw [hr]
      exact hprogress

end Call

theorem received_ne_none {α : Type} {plugin : PluginContainer} {refused : String → α}
    {answer : Answer α} (h : ∀ what, ¬answer.Uncaught plugin what) :
    received plugin refused answer ≠ none := by
  cases answer with
  | returned result => exact Option.some_ne_none _
  | raised what => exact absurd rfl (h what)
  | errorAlreadySet what =>
    unfold received
    cases htype : plugin.type with
    | pythonPlugin => exact Option.some_ne_none _
    | cppPlugin => exact absurd ⟨rfl, htype⟩ (h what)

theorem serviceDecision_ne_none (h : NothingLetOut env) (plugin : PluginContainer)
    (params : StrStrMap) : serviceDecision env plugin params ≠ none := by
  unfold serviceDecision
  cases hparams : paramsDecision env plugin params with
  | none => exact absurd (Option.map_eq_none_iff.1 hparams) (received_ne_none (h.verify 0 _ _))
  | some r =>
    cases r with
    | none => exact Option.some_ne_none _
    | some vResult =>
      cases hauth : authDecision env plugin vResult.params with
      | none =>
        exact absurd (Option.map_eq_none_iff.1 hauth) (received_ne_none (h.authenticate 0 _ _))
      | some r =>
        show (authDecision env plugin vResult.params).bind _ ≠ none
        rw [hauth]
        exact Option.some_ne_none _

theorem decisionAt_ne_none (h : NothingLetOut env) (w : World Text)
    (kv : String × PluginContainer) : decisionAt env w kv ≠ none := by
  unfold decisionAt turnDecision creationDecision
  split
  · split
    · exact Option.some_ne_none _
    · split
      · exact Option.some_ne_none _
      · exact serviceDecision_ne_none h _ _
  · exact Option.some_ne_none _

/-- The world after a call of `createAutoInitializingAccounts`. -/
def afterAutoCreation (env : Env Text) (w : World Text) : World Text :=
  final ((createAutoInitializingAccounts env).run w)

/-- A call keeps every account file and adds one for every plugin for which an account is wanted,
all of them when no plugin stops it; a second call changes no file. -/
theorem auto_creation_idempotent (env : Env Text) (w : World Text) (hserved : WellServed env)
    (hfresh : FreshUuids env w) (hfresh' : FreshUuids env (afterAutoCreation env w)) :
    (∃ created, AutoCreated env w (afterAutoCreation env w) created ∧
      (∀ name, (created name).isSome → Wanted env w name) ∧
      ((∃ w', (createAutoInitializingAccounts env).run w = .ok () w') →
        ∀ name, Wanted env w name → (created name).isSome)) ∧
    (afterAutoCreation env (afterAutoCreation env w)).files = (afterAutoCreation env w).files ∧
    (NothingLetOut env → ∃ w₁ w₂, (createAutoInitializingAccounts env).run w = .ok () w₁ ∧
      (createAutoInitializingAccounts env).run w₁ = .ok () w₂) := by
  obtain ⟨reached, tail, created, hl, htail, hreturns, hprogress⟩ :=
    progress_of_call hserved hfresh
  refine ⟨⟨created, hprogress.toAutoCreated, fun name hsome => ?_, fun hr name hwanted => ?_⟩,
    files_of_nothing_to_create hserved hfresh' fun done kv rest hl' hdone =>
      nothing_to_create hl htail hprogress hl' hdone, fun hout => ?_⟩
  · obtain ⟨plugin, hmem, htrue⟩ := (hprogress.created_iff name).1 hsome
    exact (wanted_iff hserved hfresh).2
      ⟨plugin, hl ▸ List.mem_append_left tail hmem, htrue⟩
  · obtain ⟨plugin, hmem, htrue⟩ := (wanted_iff hserved hfresh).1 hwanted
    rw [hl, hreturns hr, List.append_nil] at hmem
    exact (hprogress.created_iff name).2 ⟨plugin, hmem, htrue⟩
  · have hcall : ∀ w, FreshUuids env w → ∃ w', (createAutoInitializingAccounts env).run w =
        .ok () w' := by
      intro w hfresh
      rcases run_loop hserved hfresh with ⟨s, hr, -⟩ | ⟨_, kv, _, _, _, -, -, hnone, -⟩
      · exact ⟨s, hr⟩
      · exact absurd hnone (decisionAt_ne_none hout w kv)
    obtain ⟨w₁, hr₁⟩ := hcall w hfresh
    rw [afterAutoCreation, hr₁] at hfresh'
    obtain ⟨w₂, hr₂⟩ := hcall w₁ hfresh'
    exact ⟨w₁, w₂, hr₁, hr₂⟩

/-! ## A plugin that asks for an account -/

instance (env : Env Text) (w : World Text) (id : Uuid) : Decidable (Unused env w id) :=
  decidable_of_iff (id ≠ Uuid.null ∧ ¬Stored env w id ∧
      ∀ item ∈ w.secrets, item.attr "account_id" ≠ some (env.uuidAsString id))
    ⟨fun ⟨h₁, h₂, h₃⟩ => ⟨h₁, h₂, h₃⟩, fun ⟨h₁, h₂, h₃⟩ => ⟨h₁, h₂, h₃⟩⟩

/-- With one plugin, one uuid has to be fresh. -/
theorem freshUuids_of_single {w : World Text} {name : String} {plugin : PluginContainer}
    (hsingle : env.registeredPlugins = (∅ : StrMap PluginContainer).insert name plugin)
    (hunused : Unused env w (env.uuidGenerate w.tick)) : FreshUuids env w := by
  rintro s ⟨done, kv, rest, hl, hrun⟩
  rw [hsingle, TreeMap.toList_insert_empty] at hl
  cases done with
  | nil =>
    cases hrun
    exact hunused
  | cons kv' done =>
    have hlen := congrArg List.length hl
    simp at hlen

/-- The plugin of the reference, which now asks for an account. -/
def startConfig : Config YamlText :=
  { referenceConfig with
    registeredPlugins := (∅ : StrMap PluginContainer).insert "mail"
      { type := .pythonPlugin, title := "mail", autoInitialize := true }
    title_registered := fun name plugin h => by
      by_cases hn : "mail" = name
      · subst hn
        rw [Std.ExtTreeMap.getElem?_insert_self] at h
        cases h
        rfl
      · rw [TreeMap.getElem?_insert_of_ne hn] at h
        simp at h }

def startEnv : Env YamlText := { startConfig, referenceAnswers with }

theorem startEnv_wellServed : WellServed startEnv where
  answers := ⟨fun _ _ _ _ => rfl, fun _ _ _ _ => rfl⟩
  finds n attributes store item hitem := by
    obtain ⟨hmem, hcarries⟩ := List.mem_filter.1 hitem
    exact ⟨hmem, by simpa using hcarries⟩
  accepts _ _ _ := rfl
  inited := rfl
  writes _ _ _ := rfl

/-- The first start creates the account, and the second leaves it as it is. -/
theorem auto_creation_idempotent_start :
    (∃ created, AutoCreated startEnv { files := fun _ => ∅ }
      (afterAutoCreation startEnv { files := fun _ => ∅ }) created ∧ (created "mail").isSome) ∧
    (afterAutoCreation startEnv (afterAutoCreation startEnv { files := fun _ => ∅ })).files =
      (afterAutoCreation startEnv { files := fun _ => ∅ }).files := by
  have hfresh : FreshUuids startEnv { files := fun _ => ∅ } :=
    freshUuids_of_single rfl (by decide +kernel)
  have hwanted : Wanted startEnv { files := fun _ => ∅ } "mail" := by
    refine (wanted_iff startEnv_wellServed hfresh).2
      ⟨{ type := .pythonPlugin, title := "mail", autoInitialize := true }, ?_, by decide +kernel⟩
    exact Std.ExtTreeMap.mem_toList_iff_getElem?_eq_some.2 Std.ExtTreeMap.getElem?_insert_self
  have hnoRaise : NothingLetOut startEnv := ⟨fun _ _ _ _ h => h, fun _ _ _ _ h => h⟩
  obtain ⟨⟨created, hcreated, -, hall⟩, hfiles, hreturns⟩ :=
    auto_creation_idempotent startEnv { files := fun _ => ∅ } startEnv_wellServed hfresh
      (freshUuids_of_single rfl (by decide +kernel))
  obtain ⟨w₁, -, hr, -⟩ := hreturns hnoRaise
  exact ⟨⟨created, hcreated, hall ⟨w₁, hr⟩ "mail" hwanted⟩, hfiles⟩

end PxAccounts
