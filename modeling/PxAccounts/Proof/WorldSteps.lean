import PxAccounts.Proof.AccountFile
import PxAccounts.Proof.ServiceFrame
import PxAccounts.Model.AccountManager

/-!
# States after the small steps

The states the world is in after one write, one removal, one event or one change of a status, and
what looking for and reading an account depends on.
-/

namespace PxAccounts

open Effect

variable {Text : Type} {env : Env Text}

namespace World

/-- Errors added to the list of the manager. -/
def addErrors (w : World Text) (errs : StringList) : World Text :=
  { w with errors := w.errors ++ errs }

theorem addErrors_addErrors (w : World Text) (errs errs' : StringList) :
    (w.addErrors errs).addErrors errs' = w.addErrors (errs ++ errs') := by
  simp [addErrors]

/-- The status of one account set. -/
def setStat (w : World Text) (strId : String) (stat : AccountStatus) : World Text :=
  { w with statDict := w.statDict.insert strId stat }

/-- The state after a file is written, with whatever success. -/
def written (env : Env Text) (w : World Text) (path : AccountPath) (data : Text) : World Text :=
  final ((env.callWriteFile path data).run w)

/-- The state with a file as a write with this outcome leaves it. -/
def leftBy (env : Env Text) (w : World Text) (path : AccountPath) (data : Text)
    (outcome : WriteOutcome) : World Text :=
  w.setDir path.dir ((w.files path.dir).alter path.name (env.afterWrite outcome data))

/-- The state after an attempt to remove a file. -/
def unlinked (env : Env Text) (w : World Text) (path : AccountPath) : World Text :=
  final ((env.callRemoveFile path).run w)

/-- The state without a file. -/
def erased (w : World Text) (path : AccountPath) : World Text :=
  w.setDir path.dir ((w.files path.dir).erase path.name)

/-- The event that is published now. -/
def announced (env : Env Text) (w : World Text) (event : String) (params : StrStrMap) : Event :=
  { topic := "account", source := "px-accounts-service", time := env.clock w.tick, event, params }

/-- The state after an event is published, with whatever success. -/
def published (env : Env Text) (w : World Text) (event : String) (params : StrStrMap) :
    World Text :=
  final ((env.callEmit (w.announced env event params)).run w)

section Fields

variable (w : World Text) (errs : StringList) (strId event : String) (stat : AccountStatus)
  (path : AccountPath) (data : Text) (params : StrStrMap)

@[simp] theorem files_addErrors : (w.addErrors errs).files = w.files := rfl
@[simp] theorem statDict_addErrors : (w.addErrors errs).statDict = w.statDict := rfl
@[simp] theorem secrets_addErrors : (w.addErrors errs).secrets = w.secrets := rfl
@[simp] theorem records_addErrors : (w.addErrors errs).records = w.records := rfl
@[simp] theorem events_addErrors : (w.addErrors errs).events = w.events := rfl
@[simp] theorem calls_addErrors : (w.addErrors errs).calls = w.calls := rfl

@[simp] theorem files_record (c : Call Text) : (w.record c).files = w.files := rfl
@[simp] theorem statDict_record (c : Call Text) : (w.record c).statDict = w.statDict := rfl
@[simp] theorem secrets_record (c : Call Text) : (w.record c).secrets = w.secrets := rfl
@[simp] theorem records_record (c : Call Text) : (w.record c).records = w.records := rfl
@[simp] theorem events_record (c : Call Text) : (w.record c).events = w.events := rfl

@[simp] theorem files_setStat : (w.setStat strId stat).files = w.files := rfl
@[simp] theorem statDict_setStat :
    (w.setStat strId stat).statDict = w.statDict.insert strId stat := rfl
@[simp] theorem secrets_setStat : (w.setStat strId stat).secrets = w.secrets := rfl
@[simp] theorem records_setStat : (w.setStat strId stat).records = w.records := rfl
@[simp] theorem events_setStat : (w.setStat strId stat).events = w.events := rfl
@[simp] theorem calls_setStat : (w.setStat strId stat).calls = w.calls := rfl

theorem files_written : (w.written env path data).files = Function.update w.files path.dir
    ((w.files path.dir).alter path.name
      (env.afterWrite (env.writeFile w.tick path data) data)) := rfl
@[simp] theorem statDict_written : (w.written env path data).statDict = w.statDict := rfl
@[simp] theorem secrets_written : (w.written env path data).secrets = w.secrets := rfl
@[simp] theorem records_written : (w.written env path data).records = w.records := rfl
@[simp] theorem events_written : (w.written env path data).events = w.events := rfl
@[simp] theorem calls_written : (w.written env path data).calls =
    w.calls ++ [.writeFile path data (env.writeFile w.tick path data)] := rfl

theorem published_eq : w.published env event params =
    ({ w with
      events := if env.emit w.tick (w.announced env event params) = .sent then
        w.events ++ [w.announced env event params] else w.events } : World Text).record
      (.emit (w.announced env event params) (env.emit w.tick (w.announced env event params))) := by
  rw [published, Env.callEmit]
  dsimp only [EStateM.run, modifyGet, MonadStateOf.modifyGet, EStateM.modifyGet, final]
  split <;> rfl

@[simp] theorem files_published : (w.published env event params).files = w.files := by
  rw [published_eq]; rfl
@[simp] theorem statDict_published : (w.published env event params).statDict = w.statDict := by
  rw [published_eq]; rfl
@[simp] theorem secrets_published : (w.published env event params).secrets = w.secrets := by
  rw [published_eq]; rfl
@[simp] theorem records_published : (w.published env event params).records = w.records := by
  rw [published_eq]; rfl
theorem events_published : (w.published env event params).events =
    if env.emit w.tick (w.announced env event params) = .sent then
      w.events ++ [w.announced env event params] else w.events := by
  rw [published_eq]; rfl
@[simp] theorem calls_published : (w.published env event params).calls = w.calls ++
    [.emit (w.announced env event params) (env.emit w.tick (w.announced env event params))] := by
  rw [published_eq]; rfl

theorem unlinked_of_removed (hex : (w.fileAt path).isSome) (hrm : env.removeFile w.tick path) :
    w.unlinked env path = (w.erased path).record (.removeFile path true) := by
  rw [unlinked, Env.callRemoveFile]
  dsimp only [EStateM.run, modifyGet, MonadStateOf.modifyGet, EStateM.modifyGet, final]
  rw [hex, hrm]
  rfl

theorem unlinked_of_kept (h : env.removeFile w.tick path = false) :
    w.unlinked env path = w.record (.removeFile path false) := by
  rw [unlinked, Env.callRemoveFile]
  dsimp only [EStateM.run, modifyGet, MonadStateOf.modifyGet, EStateM.modifyGet, final]
  rw [h, Bool.and_false]
  rfl

theorem unlinked_of_missing (h : w.fileAt path = none) :
    w.unlinked env path = w.record (.removeFile path false) := by
  rw [unlinked, Env.callRemoveFile]
  dsimp only [EStateM.run, modifyGet, MonadStateOf.modifyGet, EStateM.modifyGet, final]
  rw [h]
  rfl

end Fields

theorem fileAt_congr {w w' : World Text} (h : w'.files = w.files) (path : AccountPath) :
    w'.fileAt path = w.fileAt path := by
  rw [fileAt, fileAt, h]

theorem fileAt_written_self (w : World Text) (path : AccountPath) (data : Text) :
    (w.written env path data).fileAt path =
      env.afterWrite (env.writeFile w.tick path data) data (w.fileAt path) := by
  rw [fileAt, files_written, Function.update_self, Std.ExtTreeMap.getElem?_alter_self]
  rfl

theorem fileAt_written_of_ne (w : World Text) {path path' : AccountPath} (data : Text)
    (h : path' ≠ path) : (w.written env path data).fileAt path' = w.fileAt path' := by
  rw [fileAt, files_written]
  by_cases hd : path'.dir = path.dir
  · have hn : path.name ≠ path'.name := fun hn => h (by
      cases path; cases path'; simp_all)
    rw [hd, Function.update_self, TreeMap.getElem?_alter_of_ne hn, fileAt, hd]
  · rw [Function.update_of_ne hd]
    rfl

theorem files_erased (w : World Text) (path : AccountPath) : (w.erased path).files =
    Function.update w.files path.dir ((w.files path.dir).erase path.name) := rfl

@[simp] theorem statDict_erased (w : World Text) (path : AccountPath) :
    (w.erased path).statDict = w.statDict := rfl

@[simp] theorem secrets_erased (w : World Text) (path : AccountPath) :
    (w.erased path).secrets = w.secrets := rfl

@[simp] theorem records_erased (w : World Text) (path : AccountPath) :
    (w.erased path).records = w.records := rfl

@[simp] theorem events_erased (w : World Text) (path : AccountPath) :
    (w.erased path).events = w.events := rfl

theorem fileAt_erased_self (w : World Text) (path : AccountPath) :
    (w.erased path).fileAt path = none := by
  rw [fileAt, files_erased, Function.update_self, Std.ExtTreeMap.getElem?_erase_self]

theorem fileAt_erased_of_ne (w : World Text) {path path' : AccountPath} (h : path' ≠ path) :
    (w.erased path).fileAt path' = w.fileAt path' := by
  rw [fileAt, files_erased]
  by_cases hd : path'.dir = path.dir
  · have hn : path.name ≠ path'.name := fun hn => h (by
      cases path; cases path'; simp_all)
    rw [hd, Function.update_self, TreeMap.getElem?_erase_of_ne hn, fileAt, hd]
  · rw [Function.update_of_ne hd]
    rfl

/-! ## Silence -/

/-- At most calls were recorded and lines logged. -/
def Silent (w w' : World Text) : Prop := ∀ F, Quiet F → F.rel w w'

theorem Silent.refl (w : World Text) : Silent w w := fun F _ => F.refl w

theorem Silent.trans {w₁ w₂ w₃ : World Text} (h₁ : Silent w₁ w₂) (h₂ : Silent w₂ w₃) :
    Silent w₁ w₃ := fun F hF => F.trans (h₁ F hF) (h₂ F hF)

/-- Everything but the record of calls and the log. -/
def content (w : World Text) : World Text := { w with calls := [], log := [] }

theorem quiet_content : Quiet (Frame.eqOn content : Frame (World Text)) where
  record _ _ _ := rfl
  log _ _ := rfl

theorem Silent.content_eq {w w' : World Text} (h : Silent w w') : w'.content = w.content :=
  h _ quiet_content

theorem Silent.files {w w' : World Text} (h : Silent w w') : w'.files = w.files :=
  (congrArg World.files h.content_eq : w'.content.files = w.content.files)

theorem Silent.statDict {w w' : World Text} (h : Silent w w') : w'.statDict = w.statDict :=
  (congrArg World.statDict h.content_eq : w'.content.statDict = w.content.statDict)

theorem Silent.secrets {w w' : World Text} (h : Silent w w') : w'.secrets = w.secrets :=
  (congrArg World.secrets h.content_eq : w'.content.secrets = w.content.secrets)

theorem Silent.records {w w' : World Text} (h : Silent w w') : w'.records = w.records :=
  (congrArg World.records h.content_eq : w'.content.records = w.content.records)

theorem Silent.events {w w' : World Text} (h : Silent w w') : w'.events = w.events :=
  (congrArg World.events h.content_eq : w'.content.events = w.content.events)

end World

/-! ## Looking for accounts -/

namespace AccountParser

variable {w w' : World Text} {parser : AccountParser} {id id' : Uuid}

theorem read_congr {account : AccountObject}
    (h : w'.fileAt (parser.accountPath env id) = w.fileAt (parser.accountPath env id)) :
    parser.read env w' id account = parser.read env w id account := by
  rw [read, read, h]

theorem read_ok_iff {account acc : AccountObject} : parser.read env w id account = .ok acc ↔
    ∃ text, w.fileAt (parser.accountPath env id) = some text ∧
      readText env text account = .ok acc := by
  rw [read]
  cases w.fileAt (parser.accountPath env id) with
  | none => simp
  | some text =>
    simp only [Option.some.injEq, exists_eq_left']
    cases readText env text account with
    | ok acc' => simp
    | error e => cases e <;> simp

theorem hasAccount_iff : parser.hasAccount env w id = true ↔
    ∃ actFile ∈ w.files parser.path, FILE.extpart actFile = "yaml" ∧
      env.uuidFromString (fileStem actFile) = (true, id) := by
  have hext : (".yaml".toList : List Char) = '.' :: "yaml".toList := rfl
  simp only [hasAccount, List.any_eq_true, accountFiles, FILE.dirfiles, hext, List.mem_filter,
    String.ofList_toList, (env.readdir_perm _).mem_iff, Std.ExtTreeMap.mem_keys]
  constructor
  · rintro ⟨actFile, ⟨hmem, hyaml⟩, hstem⟩
    refine ⟨actFile, hmem, by simpa using hyaml, ?_⟩
    rcases hparse : env.uuidFromString (fileStem actFile) with ⟨_ | _, curId⟩
    · rw [hparse] at hstem
      cases hstem
    · rw [hparse] at hstem
      rw [eq_of_beq hstem]
  · rintro ⟨actFile, hmem, hyaml, hstem⟩
    exact ⟨actFile, ⟨hmem, by rw [hyaml]; simp⟩, by rw [hstem]; exact beq_self_eq_true id⟩

theorem hasAccount_congr (h : w'.files parser.path = w.files parser.path) :
    parser.hasAccount env w' id = parser.hasAccount env w id := by
  rw [Bool.eq_iff_iff, hasAccount_iff, hasAccount_iff, h]

/-- Only the file of an account that is written can come to be there. -/
theorem hasAccount_written_of_ne {path : AccountPath} {data : Text}
    (hpath : path.name = accountFile env id') (h : id ≠ id') :
    parser.hasAccount env (w.written env path data) id = parser.hasAccount env w id := by
  by_cases hd : parser.path = path.dir
  · rw [Bool.eq_iff_iff, hasAccount_iff, hasAccount_iff, World.files_written, hd,
      Function.update_self]
    refine exists_congr fun actFile => and_congr_left fun hact => ?_
    have hne : path.name ≠ actFile := by
      rintro rfl
      rw [hpath, fileStem_accountFile, uuidFromString_uuidAsString] at hact
      exact h (Prod.mk.inj hact.2).2.symm
    rw [Std.ExtTreeMap.mem_iff_isSome_getElem?, TreeMap.getElem?_alter_of_ne hne,
      ← Std.ExtTreeMap.mem_iff_isSome_getElem?]
  · exact hasAccount_congr (by rw [World.files_written, Function.update_of_ne hd])

theorem hasAccount_erased_of_ne {path : AccountPath}
    (hpath : path.name = accountFile env id') (h : id ≠ id') :
    parser.hasAccount env (w.erased path) id = parser.hasAccount env w id := by
  by_cases hd : parser.path = path.dir
  · rw [Bool.eq_iff_iff, hasAccount_iff, hasAccount_iff, World.files_erased, hd,
      Function.update_self]
    refine exists_congr fun actFile => and_congr_left fun hact => ?_
    have hne : path.name ≠ actFile := by
      rintro rfl
      rw [hpath, fileStem_accountFile, uuidFromString_uuidAsString] at hact
      exact h (Prod.mk.inj hact.2).2.symm
    rw [Std.ExtTreeMap.mem_iff_isSome_getElem?, TreeMap.getElem?_erase_of_ne hne,
      ← Std.ExtTreeMap.mem_iff_isSome_getElem?]
  · exact hasAccount_congr (by rw [World.files_erased, Function.update_of_ne hd])

end AccountParser

theorem AccountManager.findParser_congr {w w' : World Text} {id : Uuid} {onlyWritables : Bool}
    (h : ∀ parser ∈ env.parsers, parser.hasAccount env w' id = parser.hasAccount env w id) :
    findParser env w' id onlyWritables = findParser env w id onlyWritables := by
  refine List.find?_congr fun parser hp => ?_
  rw [h parser hp]

end PxAccounts
