import PxAccounts.Model.AccountParser
import PxAccounts.Model.EventManager

/-!
# Account manager

The operations on accounts over all directories: creation, modification, deletion, reading, listing
and the status table.  An operation that fills or changes an account passed by reference returns
the account as it then is.
-/

namespace PxAccounts

variable {Text : Type}

namespace AccountManager

def addErrorList (errs : StringList) : M Text Unit :=
  modify fun w => { w with errors := w.errors ++ errs }

def addError (err : String) : M Text Unit := addErrorList [err]

/-- `Instance`, which starts a new operation with an empty error list. -/
def resetErrors : M Text Unit := modify fun w => { w with errors := [] }

/-- `findParser`: the first directory with a file of the account, or the first one at all for the
null id. -/
def findParser (env : Env Text) (w : World Text) (id : Uuid) (onlyWritables : Bool) :
    Option AccountParser :=
  env.parsers.find? fun parser =>
    (!onlyWritables || !parser.readonly) && (parser.hasAccount env w id || uuidIsNull id)

/-- `listAccounts`. -/
def listAccounts (env : Env Text) (w : World Text) (providerFilter serviceFilter : List String) :
    List AccountObject :=
  env.parsers.flatMap fun parser =>
    (parser.list env w).filter fun act =>
      (providerFilter.isEmpty && serviceFilter.isEmpty) || providerFilter.contains act.provider ||
        serviceFilter.any act.hasService

/-- The custom reads of the services at the end of `readAccount`. -/
def readServices (env : Env Text) (account : AccountObject) : M Text AccountObject :=
  account.services.toList.foldlM
    (fun account kv => do
      let svc ← kv.2.performCustomRead env
      return { account with services := account.services.insert kv.1 svc })
    account

/-- `readAccount`, into a fresh account; `none` when it returns false. -/
def readAccount (env : Env Text) (id : Uuid) : M Text (Option AccountObject) := do
  match findParser env (← get) id false with
  | none =>
    addError "Could not find suitable parser."
    return none
  | some parser =>
    match parser.read env (← get) id {} with
    | .error errs =>
      addError ("Error on reading account file: '" ++ env.uuidAsString id ++ "'.")
      addErrorList errs
      return none
    | .ok account => return some (← readServices env account)

/-- `setStatus`. -/
def setStatus (env : Env Text) (id : Uuid) (stat : AccountStatus) : M Text Bool := do
  match ← readAccount env id with
  | none => return false
  | some act =>
    let strId := act.idAsString env
    let oldStat := (← get).statDict.getD strId .none
    modify fun w => { w with statDict := w.statDict.insert strId stat }
    if oldStat ≠ stat then
      let _ ← EventManager.emitStatusChange env act oldStat stat
    return true

/-- `getStatus`. -/
def getStatus (env : Env Text) (w : World Text) (id : Uuid) : AccountStatus :=
  w.statDict.getD (env.uuidAsString id) .none

/-- The check of `verifyAccountCreationLimits` for the services in turn. -/
def checkLimits (registeredAccounts : List AccountObject) :
    List (String × AccountService) → M Text Bool
  | [] => return true
  | (svcName, svc) :: services => do
    let plugin ← svc.derefPlugin
    let maxCount := plugin.maxInstanceCount
    if 0 ≤ maxCount ∧ maxCount ≤ (registeredAccounts.filter (·.hasService svcName)).length then
      addError ("maximum number of allowed accounts (" ++ toString maxCount ++ ") already created.")
      return false
    checkLimits registeredAccounts services

/-- `verifyAccountCreationLimits`. -/
def verifyAccountCreationLimits (env : Env Text) (account : AccountObject) : M Text Bool := do
  checkLimits (listAccounts env (← get) [] []) account.services.toList

/-- The two checks of `createAccount`. -/
def verifyNewAccount (env : Env Text) (act : AccountObject) : M Text (Bool × AccountObject) := do
  if ← verifyAccountCreationLimits env act then
    act.verify env
  else
    return (false, act)

/-- `createAccount`. -/
def createAccount (env : Env Text) (act : AccountObject) : M Text (Bool × AccountObject) := do
  match findParser env (← get) Uuid.null true with
  | none =>
    addError "Could not find writable parser!"
    return (false, act)
  | some parser =>
    let accountId ← env.callUuidGenerate
    let (verified, act) ← verifyNewAccount env { act with id := accountId }
    if !verified then
      addErrorList act.errors
      addError "Account verification failed"
      return (false, act)
    if !(← parser.write env act) then
      addError "Could not save account file."
      return (false, act)
    let _ ← setStatus env accountId .none
    let _ ← EventManager.emitCreateAccount env act
    return (true, act)

/-- `modifyAccount`. -/
def modifyAccount (env : Env Text) (id : Uuid) (act : AccountObject) :
    M Text (Bool × AccountObject) := do
  match ← readAccount env id with
  | none =>
    addError "Could not read old account details."
    return (false, act)
  | some oldAct =>
    match findParser env (← get) oldAct.id true with
    | none =>
      addError "Could not find writable parser!"
      return (false, act)
    | some parser =>
      let (verified, act) ← AccountObject.verify env { act with id := id }
      if !verified then
        addErrorList act.errors
        addError "Account verification failed"
        return (false, act)
      if !(← parser.write env act) then
        addError "Could not save account file."
        return (false, act)
      let _ ← setStatus env oldAct.id .none
      let _ ← oldAct.cleanup env act
      let _ ← EventManager.emitModifyAccount env oldAct
      return (true, act)

/-- `deleteAccount`. -/
def deleteAccount (env : Env Text) (id : Uuid) : M Text Bool := do
  match findParser env (← get) id true with
  | none =>
    addError "Could not find suitable parser."
    return false
  | some parser =>
    match parser.read env (← get) id {} with
    | .error _ =>
      addError "Could not read account before deletion."
      return false
    | .ok act =>
      let (removed, act) ← act.performAccountRemoval env
      if !removed then
        addErrorList act.errors
        return false
      if !(← parser.remove env id) then
        addError "Could not remove account file."
        return false
      modify fun w => { w with statDict := w.statDict.erase (act.idAsString env) }
      let _ ← EventManager.emitDeleteAccount env act
      return true

/-- The turn of the loop of `createAutoInitializingAccounts` for one plugin. -/
def autoInitialize (env : Env Text) (registeredAccounts : List AccountObject)
    (kv : String × PluginContainer) : M Text Unit := do
  let (pluginName, plugin) := kv
  if plugin.autoInitialize && !registeredAccounts.any (·.hasService pluginName) then
    let svc := ({} : AccountService).init env pluginName
    if svc.inited then
      let _ ← createAccount env
        { title := "Default - " ++ pluginName
          isActive := true
          services := (∅ : StrMap AccountService).insert pluginName svc }

/-- `createAutoInitializingAccounts`. -/
def createAutoInitializingAccounts (env : Env Text) : M Text Unit := do
  let registeredAccounts := listAccounts env (← get) [] []
  forM env.registeredPlugins.toList (autoInitialize env registeredAccounts)

end AccountManager

end PxAccounts
