import PxAccounts.Lib.Run
import PxAccounts.Proof.RecordIds
import PxAccounts.Proof.Removal

/-!
# What plugins keep of their own

`IPlugin` says what a plugin does that keeps parameters itself: `write` gives an id for them that is
not in use, `read` gives them back under that id, and `remove` forgets them.  A shelf is what is kept
after some calls, when they are answered like this.
-/

namespace PxAccounts

open Effect Run AccountManager
open AccountService (assigned)

variable {Text : Type} {env : Env Text} {custom : Set String} {kept : Set PluginRecord}

/-- The parameters kept under the ids of the plugins. -/
abbrev Shelf := PluginRecord → Option StrStrMap

/-- The record that a call removed. -/
def Call.taken : Call Text → Option PluginRecord
  | .remove plugin id (some (.returned true)) => some { plugin, id }
  | _ => none

namespace Shelf

/-- The shelf after a call. -/
def after (shelf : Shelf) : Call Text → Shelf
  | .write plugin vResult _ (some (.returned id)) =>
    Function.update shelf { plugin, id } (some (assigned ServiceParam.val vResult.params))
  | .remove plugin id (some (.returned true)) => Function.update shelf { plugin, id } none
  | _ => shelf

/-- The call is answered as `IPlugin` says if the plugin is one of `custom`; the others do not have
the three methods. -/
def Answers (custom : Set String) (shelf : Shelf) : Call Text → Prop
  | .read plugin id answer =>
    (plugin ∈ custom → ∀ params, shelf { plugin, id } = some params →
      answer = some (.returned params)) ∧
    (plugin ∉ custom → ∀ params, answer ≠ some (.returned params))
  | .write plugin _ _ answer =>
    (plugin ∈ custom → ∃ id, answer = some (.returned id) ∧ shelf { plugin, id } = none) ∧
    (plugin ∉ custom → ∀ id, answer ≠ some (.returned id))
  | .remove plugin id answer =>
    (plugin ∈ custom → (shelf { plugin, id }).isSome → answer = some (.returned true)) ∧
    (plugin ∉ custom → ∀ removed, answer ≠ some (.returned removed))
  | _ => True

instance decidableNotReturned {α : Type} : ∀ answer : Option (Answer α),
    Decidable (∀ a, answer ≠ some (.returned a))
  | some (.returned a) => isFalse fun h => h a rfl
  | some (.errorAlreadySet _) => isTrue nofun
  | some (.raised _) => isTrue nofun
  | none => isTrue nofun

instance decidableReturnsNew (shelf : Shelf) (plugin : String) : ∀ answer : Option (Answer String),
    Decidable (∃ id, answer = some (.returned id) ∧ shelf { plugin, id } = none)
  | some (.returned id) => decidable_of_iff (shelf { plugin, id } = none)
    ⟨fun h => ⟨id, rfl, h⟩, by rintro ⟨_, ⟨⟩, h⟩; exact h⟩
  | some (.errorAlreadySet _) => isFalse (by rintro ⟨_, ⟨⟩, -⟩)
  | some (.raised _) => isFalse (by rintro ⟨_, ⟨⟩, -⟩)
  | none => isFalse (by rintro ⟨_, ⟨⟩, -⟩)

instance decidableAnswers [DecidablePred (· ∈ custom)] (shelf : Shelf) :
    ∀ c : Call Text, Decidable (shelf.Answers custom c)
  | .read plugin id answer => inferInstanceAs (Decidable
    ((plugin ∈ custom → ∀ params ∈ shelf { plugin, id }, answer = some (.returned params)) ∧
      (plugin ∉ custom → ∀ params, answer ≠ some (.returned params))))
  | .write plugin _ _ answer => inferInstanceAs (Decidable
    ((plugin ∈ custom → ∃ id, answer = some (.returned id) ∧ shelf { plugin, id } = none) ∧
      (plugin ∉ custom → ∀ id, answer ≠ some (.returned id))))
  | .remove plugin id answer => inferInstanceAs (Decidable
    ((plugin ∈ custom → (shelf { plugin, id }).isSome → answer = some (.returned true)) ∧
      (plugin ∉ custom → ∀ removed, answer ≠ some (.returned removed))))
  | .uuidGenerate .. | .verify .. | .authenticate .. | .setSecret .. | .search .. | .deleteSecret ..
  | .writeFile .. | .removeFile .. | .emit .. => inferInstanceAs (Decidable True)

/-- Only plugins of `custom` keep something. -/
def Own (custom : Set String) (shelf : Shelf) : Prop :=
  ∀ r, (shelf r).isSome → r.plugin ∈ custom

theorem Own.after {shelf : Shelf} (h : shelf.Own custom) {c : Call Text}
    (hc : shelf.Answers custom c) : (shelf.after c).Own custom := by
  intro r hr
  unfold Shelf.after at hr
  split at hr
  · next plugin _ _ id =>
    by_cases heq : r = { plugin, id }
    · subst heq
      exact by_contra fun hnot => hc.2 hnot id rfl
    · rw [Function.update_of_ne heq] at hr
      exact h r hr
  · next plugin id =>
    by_cases heq : r = { plugin, id }
    · subst heq
      simp at hr
    · rw [Function.update_of_ne heq] at hr
      exact h r hr
  · exact h r hr

/-- A call that does not take the record leaves what is kept under it. -/
theorem after_of_left {shelf : Shelf} {c : Call Text} (hc : shelf.Answers custom c) {r : PluginRecord}
    {params : StrStrMap} (hr : shelf r = some params) (hleft : c.taken ≠ some r) :
    shelf.after c r = some params := by
  unfold Shelf.after
  split
  · next plugin _ _ id =>
    have hplugin : plugin ∈ custom := by_contra fun hnot => hc.2 hnot id rfl
    obtain ⟨id', hid', hfresh⟩ := hc.1 hplugin
    rw [Function.update_of_ne]
    · exact hr
    · rintro rfl
      cases hid'
      rw [hr] at hfresh
      cases hfresh
  · rw [Function.update_of_ne]
    · exact hr
    · rintro rfl
      exact hleft rfl
  · exact hr

end Shelf

/-- What the plugins keep in a state of the service. -/
def shelfAt (w : World Text) : Shelf := w.calls.foldl Shelf.after fun _ => none

/-- All calls so far were answered as `IPlugin` says. -/
structure Served (custom : Set String) (w : World Text) : Prop where
  answered : Checked Shelf.after (Shelf.Answers custom) (fun _ => none) w.calls

theorem shelfAt_append {w w' : World Text} {cs : List (Call Text)} (h : w'.calls = w.calls ++ cs) :
    shelfAt w' = cs.foldl Shelf.after (shelfAt w) := by
  rw [shelfAt, h, List.foldl_append]
  rfl

theorem served_append {w w' : World Text} {cs : List (Call Text)} (h : w'.calls = w.calls ++ cs) :
    Served custom w' ↔ Served custom w ∧ Checked Shelf.after (Shelf.Answers custom) (shelfAt w) cs := by
  have hsplit : Checked Shelf.after (Shelf.Answers custom) (fun _ => none) w'.calls ↔
      Checked Shelf.after (Shelf.Answers custom) (fun _ => none) w.calls ∧
        Checked Shelf.after (Shelf.Answers custom) (shelfAt w) cs := by
    rw [h, checked_append]
    rfl
  exact ⟨fun h => ⟨⟨(hsplit.1 h.answered).1⟩, (hsplit.1 h.answered).2⟩,
    fun h => ⟨hsplit.2 ⟨h.1.answered, h.2⟩⟩⟩

/-- A call of one of the three methods, without the account files. -/
def Call.storage : Call Text → Option (Call Unit)
  | .read plugin id answer => some (.read plugin id answer)
  | .write plugin vResult aResult answer => some (.write plugin vResult aResult answer)
  | .remove plugin id answer => some (.remove plugin id answer)
  | _ => none

theorem storage_some (custom : Set String) {c : Call Text} {c' : Call Unit}
    (h : c.storage = some c') (shelf : Shelf) :
    (shelf.Answers custom c' → shelf.Answers custom c) ∧ shelf.after c' = shelf.after c := by
  cases c with
  | read =>
    cases h
    exact ⟨fun hc => hc, rfl⟩
  | write plugin vResult aResult answer =>
    cases h
    refine ⟨fun hc => hc, ?_⟩
    rcases answer with _ | (id | what | what) <;> rfl
  | remove plugin id answer =>
    cases h
    refine ⟨fun hc => hc, ?_⟩
    rcases answer with _ | ((_ | _) | what | what) <;> rfl
  | _ => cases h

theorem storage_none (custom : Set String) {c : Call Text} (h : c.storage = none) (shelf : Shelf) :
    shelf.Answers custom c ∧ shelf.after c = shelf := by
  cases c with
  | read | write | remove => cases h
  | _ => exact ⟨trivial, rfl⟩

/-- Only the calls of the three methods matter. -/
theorem served_of_storage {w : World Text}
    (h : Checked Shelf.after (Shelf.Answers custom) (fun _ => none)
      (w.calls.filterMap Call.storage)) : Served custom w := by
  have hlog : ∀ (cs : List (Call Text)) (shelf : Shelf),
      Checked Shelf.after (Shelf.Answers custom) shelf (cs.filterMap Call.storage) →
      Checked Shelf.after (Shelf.Answers custom) shelf cs := by
    intro cs
    induction cs with
    | nil => exact fun _ _ => trivial
    | cons c cs ih =>
      intro shelf hcs
      cases hc : c.storage with
      | none =>
        obtain ⟨hanswers, hafter⟩ := storage_none custom hc shelf
        rw [List.filterMap_cons_none hc, ← hafter] at hcs
        exact ⟨hanswers, ih _ hcs⟩
      | some c' =>
        obtain ⟨hanswers, hafter⟩ := storage_some custom hc shelf
        rw [List.filterMap_cons_some hc, Checked, hafter] at hcs
        exact ⟨hanswers hcs.1, ih _ hcs.2⟩
  exact ⟨hlog w.calls _ h⟩

theorem Served.of_prefix {w w' : World Text} (h : Served custom w') (hcalls : w.calls <+: w'.calls) :
    Served custom w := by
  obtain ⟨cs, hcs⟩ := hcalls
  exact ((served_append hcs.symm).1 h).1

theorem Served.own {w : World Text} (h : Served custom w) : (shelfAt w).Own custom := by
  have hlog : ∀ (cs : List (Call Text)) (shelf : Shelf), shelf.Own custom →
      Checked Shelf.after (Shelf.Answers custom) shelf cs →
      (cs.foldl Shelf.after shelf).Own custom := by
    intro cs
    induction cs with
    | nil => exact fun shelf hown _ => hown
    | cons c cs ih => exact fun shelf hown hcs => ih _ (hown.after hcs.1) hcs.2
  exact hlog w.calls _ (fun _ hr => by simp at hr) h.answered

theorem Served.of_record {w w' : World Text} {c : Call Text} (h : Served custom w')
    (hcalls : w'.calls = w.calls ++ [c]) : (shelfAt w).Answers custom c :=
  ((served_append hcalls).1 h).2.1

/-! ## What stays on the shelf -/

/-- None of the records of `kept` is removed. -/
def leaving (kept : Set PluginRecord) : Frame (World Text) :=
  callsOf fun c => ∀ r ∈ c.taken, r ∉ kept

theorem prefix_of_leaving {w w' : World Text} (h : (leaving kept).rel w w') : w.calls <+: w'.calls := by
  obtain ⟨cs, hcs, -⟩ := h
  exact ⟨cs, hcs.symm⟩

theorem tick_of_leaving {w w' : World Text} (h : (leaving kept).rel w w') : w.tick ≤ w'.tick :=
  (prefix_of_leaving h).length_le

/-- What is kept under records that are not removed stays. -/
theorem kept_of_leaving {w w' : World Text} (h : (leaving kept).rel w w') (hserved : Served custom w')
    {r : PluginRecord} (hmem : r ∈ kept) {params : StrStrMap} (hr : shelfAt w r = some params) :
    shelfAt w' r = some params := by
  obtain ⟨cs, hcs, hleft⟩ := h
  have hlog : ∀ (cs : List (Call Text)) (shelf : Shelf), (∀ c ∈ cs, ∀ r ∈ c.taken, r ∉ kept) →
      Checked Shelf.after (Shelf.Answers custom) shelf cs → shelf r = some params →
      cs.foldl Shelf.after shelf r = some params := by
    intro cs
    induction cs with
    | nil => exact fun shelf _ _ hr => hr
    | cons c cs ih =>
      intro shelf hleft hcs hr
      refine ih _ (fun c' hc' => hleft c' (List.mem_cons_of_mem c hc')) hcs.2 ?_
      exact Shelf.after_of_left hcs.1 hr fun htaken => hleft c List.mem_cons_self r htaken hmem
  rw [shelfAt_append hcs]
  exact hlog cs _ hleft ((served_append hcs).1 hserved).2 hr

theorem leaving_of_sameCalls {w w' : World Text} (h : w'.calls = w.calls) :
    (leaving kept).rel w w' := ⟨[], by simp [h], by simp⟩

theorem leaving_of_untaken {w w' : World Text} {c : Call Text} (h : w'.calls = w.calls ++ [c])
    (hc : c.taken = none) : (leaving kept).rel w w' := callsOf_record h (by simp [hc])

theorem quiet_leaving : Quiet (leaving kept : Frame (World Text)) where
  record w c hc := leaving_of_untaken rfl (by cases c <;> first | rfl | cases hc)
  log _ _ := leaving_of_sameCalls rfl

variable (env) in
theorem bookkeeping_leaving : Bookkeeping env (leaving kept) where
  errors _ _ := leaving_of_sameCalls rfl
  statDict _ _ := leaving_of_sameCalls rfl
  emit _ _ _ _ := leaving_of_untaken rfl rfl
  erase _ _ _ _ _ _ := leaving_of_untaken rfl rfl
  keep _ _ := leaving_of_untaken rfl rfl

theorem leaving_verify (act : AccountObject) : Within (leaving kept) (act.verify env) :=
  AccountObject.within_verify (K := ∅) quiet_leaving.asking
    (fun _ _ _ _ _ _ _ _ h => absurd h (by simp))
    (fun _ _ _ _ => leaving_of_untaken rfl rfl)
    (fun _ _ _ _ _ _ => leaving_of_untaken rfl rfl)
    fun _ _ _ _ => Within.bind (fun _ => leaving_of_untaken rfl rfl) fun _ => within_pure _

theorem leaving_readAccount (id : Uuid) : Within (leaving kept) (readAccount env id) :=
  within_readAccount quiet_leaving (fun _ _ => leaving_of_sameCalls rfl) id

theorem leaving_setStatus (id : Uuid) (stat : AccountStatus) :
    Within (leaving kept) (setStatus env id stat) :=
  (bookkeeping_leaving env).setStatus (leaving_readAccount id) stat

theorem leaving_written {w w₁ : World Text} {path : AccountPath} {data : Text}
    (h : (leaving kept).rel w w₁) : (leaving kept).rel w (w₁.written env path data) :=
  (leaving kept).trans h (leaving_of_untaken (World.calls_written ..) rfl)

theorem leaving_createAccount (act : AccountObject) :
    Within (leaving kept) (createAccount env act) := by
  have hverify : ∀ act, Within (leaving kept) (verifyNewAccount env act) := fun act =>
    (within_get.bind fun _ => within_checkLimits (fun _ _ => leaving_of_sameCalls rfl) _ _).bind
      fun _ => within_ite (fun _ => leaving_verify act) fun _ => within_pure _
  refine fun w => (bookkeeping_leaving env).createAccount (leaving_of_untaken rfl rfl) hverify ?_
    (leaving_setStatus _ _)
  exact fun p _ _ act' w₁ hr => leaving_written ((hverify _).rel_of_ok hr)

theorem leaving_modifyAccount (id : Uuid) (act : AccountObject) :
    Within (leaving kept) (modifyAccount env id act) := by
  refine fun w => (bookkeeping_leaving env).modifyAccount (leaving_readAccount id) (leaving_verify _)
    ?_ (fun _ _ _ _ _ => leaving_setStatus _ _) fun oldAct act' =>
      AccountObject.within_cleanup fun _ _ _ _ _ =>
        Within.bind (fun _ => leaving_of_untaken rfl rfl) fun _ => within_pure _
  exact fun q acc oldAct w₁ p act' w₂ _ _ hr => leaving_written ((leaving_verify _).rel_of_ok hr)

/-- A deletion removes only records that the account in the file names. -/
theorem leaving_deleteAccount {id : Uuid} {w : World Text}
    (h : ∀ p ∈ env.parsers, ∀ acc, p.read env w id {} = .ok acc → ∀ r ∈ kept, ¬NamesRecord acc r) :
    (leaving kept).rel w (final ((deleteAccount env id).run w)) := by
  refine (bookkeeping_leaving env).deleteAccount fun p hp acc hread => ?_
  have hids : IdsIn {r | NamesRecord acc { plugin := r.1, id := r.2 }} acc.services := by
    rintro ⟨name, svc⟩ hkv rid hrid plugin hplugin
    have hsvc := Std.ExtTreeMap.mem_toList_iff_getElem?_eq_some.1 hkv
    rw [(allInited_of_read hread name svc hsvc).title_eq hplugin]
    exact ⟨svc, hsvc, hrid⟩
  obtain ⟨cs, hcs, hands⟩ := handsOver_performAccountRemoval hids w
  refine ⟨cs, hcs, fun c hc r htaken hmem => h p hp acc hread r hmem ?_⟩
  have hhanded : c.handed = some (r.plugin, r.id) := by
    unfold Call.taken at htaken
    split at htaken
    · cases htaken
      rfl
    · cases htaken
  exact hands c hc _ hhanded

/-! ## Reading from the shelf -/

/-- The parameters that a service is shown with. -/
def Shelf.params (shelf : Shelf) (name : String) (svc : AccountService) : StrStrMap :=
  (svc.params[pluginIdParam]?.bind fun id => shelf { plugin := name, id }).getD svc.params

/-- The records that an account names are on the shelf. -/
def Shelf.Holds (custom : Set String) (shelf : Shelf) (acc : AccountObject) : Prop :=
  ∀ r, NamesRecord acc r → r.plugin ∈ custom → (shelf r).isSome

/-- The details of an account, and what is shown of its services. -/
def AccountEntry.shown (shelf : Shelf) (acc : AccountObject) : AccountEntry :=
  { AccountEntry.of acc with
    services := fun name => acc.services[name]?.map fun svc key => (shelf.params name svc)[key]? }

theorem shelfAt_of_silent {w w' : World Text} (h : w.Silent w') : shelfAt w' = shelfAt w := by
  have hquiet : Quiet (Frame.eqOn (shelfAt : World Text → Shelf)) := by
    refine ⟨fun w c hc => ?_, fun _ _ => rfl⟩
    show shelfAt (w.record c) = shelfAt w
    rw [shelfAt_append (show (w.record c).calls = w.calls ++ [c] from rfl)]
    cases c <;> first | rfl | cases hc
  exact h _ hquiet

/-- What a service has after the custom read. -/
theorem params_of_customRead {svc svc' : AccountService} {name : String} {w w' : World Text}
    (hr : (svc.performCustomRead env).run w = .ok svc' w') (hlinked : svc.LinkedAs env name)
    (hheld : name ∈ custom → ∀ id, svc.params[pluginIdParam]? = some id →
      (shelfAt w { plugin := name, id }).isSome) (hserved : Served custom w') :
    svc'.params = (shelfAt w).params name svc := by
  rw [AccountService.performCustomRead] at hr
  unfold Shelf.params
  cases hparam : svc.params[pluginIdParam]? with
  | none =>
    rw [hparam, run_pure_ok] at hr
    rw [hr.1]
    rfl
  | some id =>
    simp only [hparam] at hr
    obtain ⟨plugin, w₁, hderef, hr⟩ := run_bind_ok.1 hr
    obtain ⟨hplugin, rfl⟩ := AccountService.derefPlugin_ok hderef
    obtain rfl : plugin.title = name := hlinked.title_eq hplugin
    obtain ⟨result, w₂, hread, hr⟩ := run_bind_ok.1 hr
    obtain ⟨hresult, hw₂⟩ : result = plugin.optionalResult "read not found"
        (env.read w.tick plugin id) ∧
        w₂ = w.record (.read plugin.title id (env.read w.tick plugin id)) := by
      cases hread
      exact ⟨rfl, rfl⟩
    have hend : w' = w₂ ∧ svc'.params = result.toOption.getD svc.params := by
      cases result <;> cases hr <;> exact ⟨rfl, rfl⟩
    obtain ⟨rfl, hparams⟩ := hend
    have hanswers := hserved.of_record (w := w) (congrArg World.calls hw₂)
    rw [hparams, Option.bind_some]
    by_cases hcustom : plugin.title ∈ custom
    · obtain ⟨params, hkept⟩ := Option.isSome_iff_exists.1 (hheld hcustom id hparam)
      have hanswer := (AccountService.optionalResult_ok_iff plugin "read not found").2
        (hanswers.1 hcustom params hkept)
      rw [hresult, hanswer, hkept]
      rfl
    · have hnone : shelfAt w { plugin := plugin.title, id } = none := by
        rw [← Option.not_isSome_iff_eq_none]
        exact fun hsome => hcustom
          ((hserved.of_prefix (hw₂ ▸ List.prefix_append _ _)).own _ hsome)
      rw [hnone]
      cases hres : result with
      | error what => rfl
      | ok params =>
        rw [hres] at hresult
        exact absurd ((AccountService.optionalResult_ok_iff plugin _).1 hresult.symm)
          (hanswers.2 hcustom params)

/-- An account that is read is shown with what is on the shelf. -/
theorem shown_of_readServices {acc act : AccountObject} {w w' : World Text}
    (hr : (readServices env acc).run w = .ok act w') (hinit : AllInited env acc.services)
    (hheld : (shelfAt w).Holds custom acc) (hserved : Served custom w') :
    AccountEntry.of act = AccountEntry.shown (shelfAt w) acc := by
  have hend := foldlM_ok_induction (fun l act s =>
    (∀ kv ∈ l, acc.services[kv.1]? = some kv.2) ∧ (l.map Prod.fst).Nodup ∧ w.Silent s ∧
    (Served custom s → ∀ name : String, act.services[name]?.map AccountService.params =
      acc.services[name]?.map fun svc =>
        if name ∈ l.map Prod.fst then svc.params else (shelfAt w).params name svc)) ?_
    acc.services.toList (b := acc) (s := w) ⟨?_, TreeMap.nodup_keys_toList _, .refl w, ?_⟩ hr
  · obtain ⟨-, -, -, hparams⟩ := hend
    have hdetails := (readServices_ok hr).1.details
    have hentry : AccountEntry.of act = { AccountEntry.of acc with
        services := (AccountEntry.of act).services } := by
      rw [hdetails]
      rfl
    rw [hentry, AccountEntry.shown]
    refine congrArg (fun services => { AccountEntry.of acc with services }) (funext fun name => ?_)
    have hname := hparams hserved name
    simp only [List.map_nil, List.not_mem_nil, if_false] at hname
    have hkeys := congrArg (Option.map fun (params : StrStrMap) (key : String) => params[key]?) hname
    rw [Option.map_map, Option.map_map] at hkeys
    exact hkeys
  · rintro ⟨name, svc⟩ l act s act' s' ⟨hl, hnodup, hsilent, hparams⟩ hs
    simp only [run_bind_ok, run_pure_ok] at hs
    obtain ⟨svc', s₁, hread, rfl, rfl⟩ := hs
    simp only [List.map_cons, List.nodup_cons] at hnodup
    have hsvc : acc.services[name]? = some svc := hl (name, svc) (by simp)
    have hsilent' := (performCustomRead_ok hread).2
    refine ⟨fun kv hkv => hl kv (by simp [hkv]), hnodup.2, hsilent.trans hsilent',
      fun hserved₁ name' => ?_⟩
    by_cases he : name = name'
    · subst he
      have hshown : svc'.params = (shelfAt w).params name svc := by
        rw [← shelfAt_of_silent hsilent]
        refine params_of_customRead hread (hinit name svc hsvc) (fun hcustom id hid => ?_) hserved₁
        rw [shelfAt_of_silent hsilent]
        exact hheld _ ⟨svc, hsvc, hid⟩ hcustom
      rw [Std.ExtTreeMap.getElem?_insert_self, hsvc, Option.map_some, Option.map_some, hshown,
        if_neg hnodup.1]
    · rw [TreeMap.getElem?_insert_of_ne he,
        hparams (hserved₁.of_prefix (hsilent' _ quiet_callsFrame)) name']
      simp only [List.map_cons, List.mem_cons, Ne.symm he, false_or]
  · exact fun kv hkv => Std.ExtTreeMap.mem_toList_iff_getElem?_eq_some.1 hkv
  · intro _ name
    refine Option.map_congr fun svc hsvc => ?_
    have hmem : name ∈ acc.services.toList.map Prod.fst :=
      List.mem_map.2 ⟨(name, svc), Std.ExtTreeMap.mem_toList_iff_getElem?_eq_some.2 hsvc, rfl⟩
    rw [if_pos hmem]

end PxAccounts
