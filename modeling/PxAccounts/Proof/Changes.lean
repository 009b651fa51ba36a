import PxAccounts.Proof.Endings

/-!
# What the operations may change

A frame that lets files in writable directories be written and removed, and allows every change
outside the files, is respected by every operation, however it ends.
-/

namespace PxAccounts

open Effect AccountManager
open AccountObject (Lenient)

variable {Text : Type} {env : Env Text} {F : Frame (World Text)}

/-- A frame that lets every operation happen. -/
structure Permissive (env : Env Text) (F : Frame (World Text)) : Prop extends Lenient env F where
  errors : ∀ (w : World Text) errs, F.rel w { w with errors := errs }
  statDict : ∀ (w : World Text) stats, F.rel w { w with statDict := stats }
  emit : ∀ (w : World Text) events event delivery,
    F.rel w ({ w with events := events }.record (.emit event delivery))
  writeFile : ∀ parser ∈ env.parsers, parser.readonly = false → ∀ id data,
    Within F (env.callWriteFile (parser.accountPath env id) data)
  erase : ∀ parser ∈ env.parsers, parser.readonly = false → ∀ id w,
    (w.fileAt (parser.accountPath env id)).isSome →
    F.rel w ((w.erased (parser.accountPath env id)).record
      (.removeFile (parser.accountPath env id) true))
  keep : ∀ (w : World Text) path, F.rel w (w.record (.removeFile path false))

/-- A frame that lets the manager note errors and statuses, publish events and remove files of
writable directories. -/
structure Bookkeeping (env : Env Text) (F : Frame (World Text)) : Prop where
  errors : ∀ (w : World Text) errs, F.rel w { w with errors := errs }
  statDict : ∀ (w : World Text) stats, F.rel w { w with statDict := stats }
  emit : ∀ (w : World Text) events event delivery,
    F.rel w ({ w with events := events }.record (.emit event delivery))
  erase : ∀ parser ∈ env.parsers, parser.readonly = false → ∀ id w,
    (w.fileAt (parser.accountPath env id)).isSome →
    F.rel w ((w.erased (parser.accountPath env id)).record
      (.removeFile (parser.accountPath env id) true))
  keep : ∀ (w : World Text) path, F.rel w (w.record (.removeFile path false))

theorem Permissive.bookkeeping (h : Permissive env F) : Bookkeeping env F where
  errors := h.errors
  statDict := h.statDict
  emit := h.emit
  erase := h.erase
  keep := h.keep

/-! ## Bookkeeping -/

theorem run_write_cases (parser : AccountParser) (act : AccountObject) (w : World Text) :
    (parser.write env act).run w = .ok false w ∨ parser.readonly = false ∧
      (parser.write env act).run w =
        .ok true (w.written env (parser.accountPath env act.id) (documentText env act)) := by
  simp only [AccountParser.write]
  split
  · exact .inl rfl
  · split
    · exact .inl rfl
    next hro => exact .inr ⟨by simpa using hro, rfl⟩

/-- What is done with an account that was verified: the write and what follows it. -/
theorem rel_saveAccount {α : Type} {parser : AccountParser} {act : AccountObject} {w w₁ : World Text}
    (hbefore : F.rel w w₁) (hwrite : parser.readonly = false →
      F.rel w (w₁.written env (parser.accountPath env act.id) (documentText env act)))
    {k : Bool → M Text α} (hk : ∀ written, Within F (k written)) :
    F.rel w (final ((parser.write env act >>= k).run w₁)) := by
  rw [EStateM.run_bind]
  rcases run_write_cases parser act w₁ with hrun | ⟨hro, hrun⟩
  · rw [hrun]
    exact F.trans hbefore (hk false w₁)
  · rw [hrun]
    exact F.trans (hwrite hro) (hk true _)


namespace Bookkeeping

variable (h : Bookkeeping env F)
include h

theorem addErrorList (errs : StringList) :
    Within F (AccountManager.addErrorList errs : M Text Unit) := fun w => h.errors w _

theorem resetErrors : Within F (AccountManager.resetErrors : M Text Unit) := fun w => h.errors w _

theorem callEmit (event : Event) : Within F (env.callEmit event) := by
  intro w
  by_cases hsent : env.emit w.tick event = .sent
  · have hfinal : final ((env.callEmit event).run w) =
        { w with events := w.events ++ [event] }.record (.emit event (env.emit w.tick event)) := by
      show World.record _ _ = _
      rw [if_pos hsent]
    rw [hfinal]
    exact h.emit w _ _ _
  · have hfinal : final ((env.callEmit event).run w) =
        { w with events := w.events }.record (.emit event (env.emit w.tick event)) := by
      show World.record _ _ = _
      rw [if_neg hsent]
    rw [hfinal]
    exact h.emit w _ _ _

theorem callRemoveFile {parser : AccountParser} (hp : parser ∈ env.parsers)
    (hro : parser.readonly = false) (id : Uuid) :
    Within F (env.callRemoveFile (parser.accountPath env id)) := by
  intro w
  show F.rel w (w.unlinked env (parser.accountPath env id))
  cases hex : w.fileAt (parser.accountPath env id) with
  | none =>
    rw [World.unlinked_of_missing w _ hex]
    exact h.keep w _
  | some text =>
    have hsome : (w.fileAt (parser.accountPath env id)).isSome := by rw [hex]; rfl
    cases hrm : env.removeFile w.tick (parser.accountPath env id) with
    | false =>
      rw [World.unlinked_of_kept w _ hrm]
      exact h.keep w _
    | true =>
      rw [World.unlinked_of_removed w _ hsome hrm]
      exact h.erase parser hp hro id w hsome

theorem emitEvent (event : String) (params : StrStrMap) :
    Within F (EventManager.emit env event params) :=
  within_ite (fun _ => within_throw _) fun _ => within_get.bind fun _ =>
    (h.callEmit _).bind fun _ => within_pure _

theorem removeAccount {parser : AccountParser} (hp : parser ∈ env.parsers) (id : Uuid) :
    Within F (parser.remove env id) := by
  refine within_ite (fun _ => within_pure _) fun hro => within_get.bind fun _ =>
    within_ite (fun _ => within_pure _) fun _ => ?_
  exact h.callRemoveFile hp (by simpa using hro) id

theorem setStatus {id : Uuid} (hread : Within F (readAccount env id)) (stat : AccountStatus) :
    Within F (setStatus env id stat) := by
  refine hread.bind fun r => ?_
  cases r with
  | none => exact within_pure _
  | some act =>
    refine within_get.bind fun w => (within_modify fun w => h.statDict w _).bind fun _ =>
      within_ite (fun _ => ?_) fun _ => within_pure _
    exact (h.emitEvent _ _).bind fun _ => within_pure _

/-- A deletion, if the removal from the plugins and the secret service respects the frame. -/
theorem deleteAccount {id : Uuid} {w : World Text}
    (hremoval : ∀ parser ∈ env.parsers, ∀ act, parser.read env w id {} = .ok act →
      F.rel w (final ((act.performAccountRemoval env).run w))) :
    F.rel w (final ((deleteAccount env id).run w)) := by
  refine rel_bind (fun e s' hget => by cases hget) fun _ _ hget => ?_
  cases hget
  cases hfind : findParser env w id true with
  | none => exact ((h.addErrorList _).bind fun _ => within_pure _) w
  | some parser =>
    have hp := (findParser_some hfind).1
    refine rel_bind (fun e s' hget => by cases hget) fun _ _ hget => ?_
    cases hget
    cases hread : parser.read env w id {} with
    | error errs => exact ((h.addErrorList _).bind fun _ => within_pure _) w
    | ok act =>
      refine rel_bind_within (hremoval parser hp act hread) fun r =>
        within_ite (fun _ => (h.addErrorList _).bind fun _ => within_pure _) fun _ => ?_
      refine (h.removeAccount hp id).bind fun removed =>
        within_ite (fun _ => (h.addErrorList _).bind fun _ => within_pure _) fun _ => ?_
      exact (within_modify fun w => h.statDict w _).bind fun _ => (h.emitEvent _ _).bind fun _ =>
        within_pure _

/-- A creation, if its verification, its write and the status set after it respect the frame. -/
theorem createAccount {act : AccountObject} {w : World Text}
    (hgenerate : F.rel w (w.record (.uuidGenerate (env.uuidGenerate w.tick))))
    (hverify : ∀ act, Within F (verifyNewAccount env act))
    (hwrite : ∀ parser ∈ env.parsers, parser.readonly = false → ∀ act' w₁,
      (verifyNewAccount env { act with id := env.uuidGenerate w.tick }).run
        (w.record (.uuidGenerate (env.uuidGenerate w.tick))) = .ok (true, act') w₁ →
      F.rel (w.record (.uuidGenerate (env.uuidGenerate w.tick)))
        (w₁.written env (parser.accountPath env act'.id) (documentText env act')))
    (hstatus : Within F (AccountManager.setStatus env (env.uuidGenerate w.tick) .none)) :
    F.rel w (final ((createAccount env act).run w)) := by
  refine rel_bind (fun e s' hget => by cases hget) fun _ _ hget => ?_
  cases hget
  cases hfind : findParser env w Uuid.null true with
  | none => exact ((h.addErrorList _).bind fun _ => within_pure _) w
  | some parser =>
    have hp := (findParser_some hfind).1
    refine rel_bind (fun e s' hid => by cases hid) fun id w₁ hid => ?_
    rw [Env.callUuidGenerate, run_modifyGet_ok] at hid
    obtain ⟨rfl, rfl⟩ := hid
    refine F.trans hgenerate (rel_bind (fun e s' hr => (hverify _).rel_of_error hr) ?_)
    rintro ⟨verified, act'⟩ w₂ hr
    have hbefore := (hverify _).rel_of_ok hr
    cases verified with
    | false =>
      exact F.trans hbefore (((h.addErrorList _).bind fun _ => (h.addErrorList _).bind
        fun _ => within_pure _) w₂)
    | true =>
      refine rel_saveAccount hbefore (fun hro => hwrite parser hp hro act' w₂ hr) fun written =>
        within_ite (fun _ => (h.addErrorList _).bind fun _ => within_pure _) fun _ => ?_
      exact hstatus.bind fun _ => (h.emitEvent _ _).bind fun _ => within_pure _

/-- A modification, in the same way; the status and the clean-up are about the account that was
read. -/
theorem modifyAccount {id : Uuid} {act : AccountObject} {w : World Text}
    (hread : Within F (AccountManager.readAccount env id))
    (hverify : Within F (AccountObject.verify env { act with id := id }))
    (hwrite : ∀ q acc oldAct w₁ parser act' w₂, ReadOk env w id q acc oldAct w₁ →
      findParser env w₁ oldAct.id true = some parser →
      (AccountObject.verify env { act with id := id }).run w₁ = .ok (true, act') w₂ →
      F.rel w₁ (w₂.written env (parser.accountPath env act'.id) (documentText env act')))
    (hstatus : ∀ q acc oldAct w₁, ReadOk env w id q acc oldAct w₁ →
      Within F (AccountManager.setStatus env oldAct.id .none))
    (hclean : ∀ oldAct act' : AccountObject, Within F (oldAct.cleanup env act')) :
    F.rel w (final ((modifyAccount env id act).run w)) := by
  refine rel_bind (fun e s' hr => hread.rel_of_error hr) fun r w₁ hr => ?_
  refine F.trans (hread.rel_of_ok hr) ?_
  rcases readAccount_ok hr with ⟨rfl, -⟩ | ⟨q, acc, oldAct, rfl, hok⟩
  · exact ((h.addErrorList _).bind fun _ => within_pure _) w₁
  refine rel_bind (fun e s' hget => by cases hget) fun _ _ hget => ?_
  cases hget
  cases hfind : findParser env w₁ oldAct.id true with
  | none => exact ((h.addErrorList _).bind fun _ => within_pure _) w₁
  | some parser =>
    refine rel_bind (fun e s' hr => hverify.rel_of_error hr) ?_
    rintro ⟨verified, act'⟩ w₂ hr
    have hbefore := hverify.rel_of_ok hr
    cases verified with
    | false =>
      exact F.trans hbefore (((h.addErrorList _).bind fun _ => (h.addErrorList _).bind
        fun _ => within_pure _) w₂)
    | true =>
      refine rel_saveAccount hbefore (fun _ => hwrite q acc oldAct w₁ parser act' w₂ hok hfind hr)
        fun written => within_ite (fun _ => (h.addErrorList _).bind fun _ => within_pure _)
          fun _ => ?_
      exact (hstatus q acc oldAct w₁ hok).bind fun _ => (hclean _ _).bind fun _ =>
        (h.emitEvent _ _).bind fun _ => within_pure _

end Bookkeeping

namespace Permissive

variable (h : Permissive env F)
include h

theorem readAccount (id : Uuid) : Within F (readAccount env id) :=
  within_readAccount h.toQuiet (fun w _ => h.errors w _) id

theorem setStatus (id : Uuid) (stat : AccountStatus) : Within F (setStatus env id stat) :=
  h.bookkeeping.setStatus (h.readAccount id) stat

theorem verifyNewAccount (act : AccountObject) : Within F (verifyNewAccount env act) :=
  (within_get.bind fun _ => within_checkLimits (fun w _ => h.errors w _) _ _).bind
    fun _ => within_ite (fun _ => h.toLenient.verify act) fun _ => within_pure _

theorem createAccount (act : AccountObject) : Within F (createAccount env act) := by
  refine fun w => h.bookkeeping.createAccount (h.record w _ trivial) h.verifyNewAccount ?_
    (h.setStatus _ _)
  exact fun parser hp hro act' w₁ hr =>
    F.trans ((h.verifyNewAccount _).rel_of_ok hr) (h.writeFile parser hp hro _ _ w₁)

theorem modifyAccount (id : Uuid) (act : AccountObject) :
    Within F (modifyAccount env id act) := by
  refine fun w => h.bookkeeping.modifyAccount (h.readAccount id) (h.toLenient.verify _) ?_
    (fun _ _ _ _ _ => h.setStatus _ _) h.toLenient.cleanup
  intro q acc oldAct w₁ parser act' w₂ _ hfind hr
  obtain ⟨hp, hro, -⟩ := findParser_some hfind
  exact F.trans ((h.toLenient.verify _).rel_of_ok hr) (h.writeFile parser hp (hro rfl) _ _ w₂)

theorem deleteAccount (id : Uuid) : Within F (deleteAccount env id) :=
  fun w => h.bookkeeping.deleteAccount fun _ _ act _ => h.toLenient.performAccountRemoval act w

theorem createAutoInitializingAccounts : Within F (createAutoInitializingAccounts env) := by
  refine within_get.bind fun w => within_forM fun kv _ => within_ite (fun _ => ?_)
    fun _ => within_pure _
  exact within_ite (fun _ => (h.createAccount _).bind fun _ => within_pure _) fun _ => within_pure _

end Permissive

/-! ## The operations that change accounts -/

inductive Change
  | create (act : AccountObject)
  | modify (id : Uuid) (act : AccountObject)
  | delete (id : Uuid)
  | setStatus (id : Uuid) (stat : AccountStatus)
  | autoInitialize

namespace Change

def run (env : Env Text) : Change → M Text Unit
  | .create act => do let _ ← AccountManager.createAccount env act
  | .modify id act => do let _ ← AccountManager.modifyAccount env id act
  | .delete id => do let _ ← AccountManager.deleteAccount env id
  | .setStatus id stat => do let _ ← AccountManager.setStatus env id stat
  | .autoInitialize => createAutoInitializingAccounts env

/-- The state after an operation, whether it returned or raised. -/
def after (env : Env Text) (w : World Text) (change : Change) : World Text :=
  final ((change.run env).run w)

theorem within_run (h : Permissive env F) (change : Change) : Within F (change.run env) := by
  cases change with
  | create act => exact (h.createAccount act).bind fun _ => within_pure _
  | modify id act => exact (h.modifyAccount id act).bind fun _ => within_pure _
  | delete id => exact (h.deleteAccount id).bind fun _ => within_pure _
  | setStatus id stat => exact (h.setStatus id stat).bind fun _ => within_pure _
  | autoInitialize => exact h.createAutoInitializingAccounts

/-- What every operation respects, every sequence of operations respects. -/
theorem rel_of_changes (h : Permissive env F) (w : World Text) (changes : List Change) :
    F.rel w (changes.foldl (after env) w) := by
  induction changes generalizing w with
  | nil => exact F.refl w
  | cons change changes ih => exact F.trans (within_run h change w) (ih _)

end Change

/-! ## Read-only directories -/

theorem path_ne_of_readonly {parser : AccountParser} (hp : parser ∈ env.parsers)
    (hro : parser.readonly = false) {dir : String} (hdir : dir ∈ env.readonlyPaths) :
    dir ≠ parser.path := by
  rintro rfl
  have hmem : ({ path := parser.path, readonly := true } : AccountParser) ∈ env.parsers := by
    rw [Env.parsers, List.mem_append]
    exact .inr (List.mem_map.2 ⟨parser.path, hdir, rfl⟩)
  have := path_injective hp hmem rfl
  rw [this] at hro
  cases hro

/-- The files of a read-only directory stay. -/
theorem permissive_readonly {dir : String} (hdir : dir ∈ env.readonlyPaths) :
    Permissive env (Frame.eqOn fun w => w.files dir) where
  record _ _ _ := rfl
  log _ _ := rfl
  setSecret _ _ := rfl
  deleteSecret _ _ := rfl
  write _ _ _ _ := rfl
  remove _ _ _ := rfl
  errors _ _ := rfl
  statDict _ _ := rfl
  emit _ _ _ _ := rfl
  writeFile _ hp hro _ _ _ :=
    Function.update_of_ne (path_ne_of_readonly hp hro hdir) _ _
  erase _ hp hro _ _ _ := Function.update_of_ne (path_ne_of_readonly hp hro hdir) _ _
  keep _ _ := rfl

end PxAccounts
