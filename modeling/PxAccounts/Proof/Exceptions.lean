import PxAccounts.Proof.Links

/-!
# Calls that end with an exception

A plugin or the event manager may throw, and a look at a saved secret may be undefined.  With the
event manager set up, whatever exception leaves an operation leaves it before it has touched a file,
a status or an event.
-/

namespace PxAccounts

open Effect AccountManager
open AccountObject (rest lenient_rest)

variable {Text : Type} {env : Env Text}

/-! ## What raises nothing -/

section Raises

variable {E : Exn → Prop}

theorem raises_readAccount (id : Uuid) : Raises E (readAccount env id) := by
  refine raises_get.bind fun w => ?_
  cases findParser env w id false with
  | none => exact (raises_modify _).bind fun _ => raises_pure _
  | some parser =>
    refine raises_get.bind fun w => ?_
    cases hread : parser.read env w id {} with
    | error errs =>
      exact (raises_modify _).bind fun _ => (raises_modify _).bind fun _ => raises_pure _
    | ok account => exact (raises_readServices (allInited_of_read hread)).bind fun _ => raises_pure _

theorem raises_emit (hinit : env.eventManagerInited = true) (event : String) (params : StrStrMap) :
    Raises E (EventManager.emit env event params) := by
  refine raises_ite (fun h => ?_) fun _ => raises_get.bind fun _ =>
    (raises_modifyGet _).bind fun _ => raises_pure _
  rw [hinit] at h
  exact absurd h (by decide)

theorem raises_setStatus (hinit : env.eventManagerInited = true) (id : Uuid)
    (stat : AccountStatus) : Raises E (setStatus env id stat) := by
  refine (raises_readAccount id).bind fun r => ?_
  cases r with
  | none => exact raises_pure _
  | some act =>
    refine raises_get.bind fun w => (raises_modify _).bind fun _ => raises_ite (fun _ => ?_)
      fun _ => raises_pure _
    exact (raises_emit hinit _ _).bind fun _ => raises_pure _

theorem raises_removeSecrets {svc : AccountService} (h : svc.accountSet = true) (owner : Owner) :
    Raises E (svc.removeSecrets env owner) := by
  rw [AccountService.removeSecrets, AccountService.derefAccount, if_pos h]
  refine (raises_pure owner).bind fun account => raises_ite (fun _ => raises_pure _)
    fun _ => (raises_modifyGet _).bind fun _ => raises_pure _

theorem raises_cleanup {oldAct : AccountObject} (h : AllInited env oldAct.services)
    (newAccount : AccountObject) : Raises E (oldAct.cleanup env newAccount) := by
  refine (raises_forM fun kv hkv => raises_ite (fun _ => ?_) fun _ => raises_pure _).bind
    fun _ => raises_pure _
  have hlinked := h kv.1 kv.2 (Std.ExtTreeMap.mem_toList_iff_getElem?_eq_some.1 hkv)
  exact (raises_removeSecrets hlinked.accountSet _).bind fun _ => raises_pure _

theorem raises_write (parser : AccountParser) (account : AccountObject) :
    Raises E (parser.write env account) :=
  raises_ite (fun _ => raises_pure _) fun _ => raises_ite (fun _ => raises_pure _)
    fun _ => (raises_modifyGet _).bind fun _ => raises_pure _

theorem raises_remove (parser : AccountParser) (id : Uuid) : Raises E (parser.remove env id) :=
  raises_ite (fun _ => raises_pure _) fun _ => raises_get.bind fun _ =>
    raises_ite (fun _ => raises_pure _) fun _ => raises_modifyGet _

end Raises

/-! ## The operations -/

theorem within_checkLimits {F : Frame (World Text)} (herr : ∀ w errs, F.rel w (w.addErrors errs))
    (registered : List AccountObject) (l : List (String × AccountService)) :
    Within F (checkLimits registered l) := by
  induction l with
  | nil => exact within_pure _
  | cons kv l ih =>
    refine (within_derefPlugin kv.2).bind fun plugin => within_ite (fun _ => ?_) fun _ => ih
    exact (within_modify fun w => herr w _).bind fun _ => within_pure _

/-- An exception that leaves the operation leaves it before it has changed anything of its own. -/
abbrev FailsEarly {α : Type} (m : M Text α) : Prop := FailsWithin (Frame.eqOn rest) m

theorem failsEarly_createAccount (hinit : env.eventManagerInited = true) (act : AccountObject) :
    FailsEarly (createAccount env act) := by
  refine within_get.failsWithin_bind fun w => ?_
  cases findParser env w Uuid.null true with
  | none => exact ((raises_modify _).bind fun _ => raises_pure _).failsWithin
  | some parser =>
    refine (within_callUuidGenerate (lenient_rest env).toQuiet).failsWithin_bind fun id =>
      Within.failsWithin_bind ?_ fun r => ?_
    · refine (within_get.bind fun w => ?_).bind fun allowed =>
        within_ite (fun _ => (lenient_rest env).verify _) fun _ => within_pure _
      exact within_checkLimits (fun _ _ => rfl) _ _
    · refine failsWithin_ite (fun _ => ?_) fun _ => Raises.failsWithin ?_
      · exact ((raises_modify _).bind fun _ => (raises_modify _).bind fun _ =>
          raises_pure _).failsWithin
      · refine (raises_write parser _).bind fun written => raises_ite (fun _ => ?_) fun _ => ?_
        · exact (raises_modify _).bind fun _ => raises_pure _
        · exact (raises_setStatus hinit _ _).bind fun _ => (raises_emit hinit _ _).bind fun _ =>
            raises_pure _

theorem within_readServices {F : Frame (World Text)} (hF : Quiet F) (account : AccountObject) :
    Within F (readServices env account) := by
  refine within_foldlM (fun account kv _ => Within.bind ?_ fun _ => within_pure _) _
  rw [AccountService.performCustomRead]
  cases kv.2.params[pluginIdParam]? with
  | none => exact within_pure _
  | some pluginId =>
    refine (within_derefPlugin _).bind fun plugin =>
      ((within_callRead hF _ _).bind fun _ => within_pure _).bind fun result => ?_
    cases result with
    | ok params => exact within_pure _
    | error what => exact within_pure _

theorem within_readAccount {F : Frame (World Text)} (hF : Quiet F)
    (herr : ∀ w errs, F.rel w (w.addErrors errs)) (id : Uuid) : Within F (readAccount env id) := by
  refine within_get.bind fun w => ?_
  cases findParser env w id false with
  | none => exact (within_modify fun w => herr w _).bind fun _ => within_pure _
  | some parser =>
    refine within_get.bind fun w => ?_
    cases parser.read env w id {} with
    | error errs =>
      exact (within_modify fun w => herr w _).bind fun _ =>
        (within_modify fun w => herr w _).bind fun _ => within_pure _
    | ok account => exact (within_readServices hF account).bind fun _ => within_pure _

theorem failsEarly_modifyAccount (hinit : env.eventManagerInited = true) (id : Uuid)
    (act : AccountObject) : FailsEarly (modifyAccount env id act) := by
  refine (within_readAccount (lenient_rest env).toQuiet (fun _ _ => rfl) id).failsWithin_bind_ok
    fun r w w₁ hread => ?_
  rcases readAccount_ok hread with ⟨rfl, -⟩ | ⟨parser, acc, oldAct, rfl, hok⟩
  · exact ((raises_modify _).bind fun _ => raises_pure _).failsWithin
  · refine within_get.failsWithin_bind fun w => ?_
    cases findParser env w oldAct.id true with
    | none => exact ((raises_modify _).bind fun _ => raises_pure _).failsWithin
    | some parser =>
      refine ((lenient_rest env).verify _).failsWithin_bind fun r =>
        failsWithin_ite (fun _ => ?_) fun _ => Raises.failsWithin ?_
      · exact ((raises_modify _).bind fun _ => (raises_modify _).bind fun _ =>
          raises_pure _).failsWithin
      · refine (raises_write parser _).bind fun written => raises_ite (fun _ => ?_) fun _ => ?_
        · exact (raises_modify _).bind fun _ => raises_pure _
        · exact (raises_setStatus hinit _ _).bind fun _ =>
            (raises_cleanup hok.allInited _).bind fun _ =>
              (raises_emit hinit _ _).bind fun _ => raises_pure _

theorem failsEarly_deleteAccount (hinit : env.eventManagerInited = true) (id : Uuid) :
    FailsEarly (deleteAccount env id) := by
  refine within_get.failsWithin_bind fun w => ?_
  cases findParser env w id true with
  | none => exact ((raises_modify _).bind fun _ => raises_pure _).failsWithin
  | some parser =>
    refine within_get.failsWithin_bind fun w => ?_
    cases parser.read env w id {} with
    | error errs => exact ((raises_modify _).bind fun _ => raises_pure _).failsWithin
    | ok act =>
      refine ((lenient_rest env).performAccountRemoval act).failsWithin_bind fun r =>
        failsWithin_ite (fun _ => ((raises_modify _).bind fun _ => raises_pure _).failsWithin)
          fun _ => Raises.failsWithin ?_
      refine (raises_remove parser id).bind fun removed => raises_ite (fun _ => ?_) fun _ => ?_
      · exact (raises_modify _).bind fun _ => raises_pure _
      · exact (raises_modify _).bind fun _ => (raises_emit hinit _ _).bind fun _ => raises_pure _

/-- How a call of an operation ends: with a result, or with an exception. -/
inductive Op.Ends (env : Env Text) (op : Op) (w : World Text) : Option Bool → World Text → Prop
  | returned {b : Bool} {w' : World Text} : (op.run env).run w = .ok b w' →
      Ends env op w (some b) w'
  | raised {e : Exn} {w' : World Text} : (op.run env).run w = .error e w' → Ends env op w none w'

/-- An exception leaves an operation before it has touched a file, a status or an event. -/
theorem Op.rest_of_raised (hinit : env.eventManagerInited = true) {op : Op} {e : Exn}
    {w w' : World Text} (hr : (op.run env).run w = .error e w') : rest w' = rest w := by
  cases op with
  | create act =>
    rcases run_bind_error.1 hr with hr | ⟨r, s, -, hr⟩
    · exact failsEarly_createAccount hinit act w e w' hr
    · cases hr
  | modify id act =>
    rcases run_bind_error.1 hr with hr | ⟨r, s, -, hr⟩
    · exact failsEarly_modifyAccount hinit id act w e w' hr
    · cases hr
  | delete id => exact failsEarly_deleteAccount hinit id w e w' hr
  | setStatus id stat =>
    exact absurd hr (raises_setStatus (E := fun _ => False) hinit id stat w e w')

end PxAccounts
