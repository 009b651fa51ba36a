import PxAccounts.Model.AccountService

/-!
# Accounts

An account with its services: the defaults a provider adds, the verification of all services, and
the withdrawal of what a service stored elsewhere.
-/

namespace PxAccounts

variable {Text : Type}

/-- `AccountObject`. -/
structure AccountObject where
  id : Uuid := Uuid.null
  title : String := ""
  provider : String := ""
  isActive : Bool := false
  settings : StrStrMap := ∅
  services : StrMap AccountService := ∅
  errors : StringList := []
deriving DecidableEq

namespace AccountObject

/-- What the services read through their pointer to this account. -/
def owner (act : AccountObject) : Owner := { id := act.id, title := act.title }

def addError (act : AccountObject) (err : String) : AccountObject :=
  { act with errors := act.errors ++ [err] }

def addErrorList (act : AccountObject) (errs : StringList) : AccountObject :=
  { act with errors := act.errors ++ errs }

/-- `idAsString`. -/
def idAsString (env : Env Text) (act : AccountObject) : String := env.uuidAsString act.id

/-- `setId`: a text that is not a uuid clears the id. -/
def setId (env : Env Text) (act : AccountObject) (strId : String) : AccountObject :=
  { act with id := (env.uuidFromString strId).2 }

/-- `hasService`. -/
def hasService (act : AccountObject) (svcName : String) : Bool := act.services.contains svcName

/-! ## Verification -/

/-- The inner loop of `_appendProviderParams`: a parameter that the service has is kept. -/
def appendParams (pluginParams : StrStrMap) (svc : AccountService) : AccountService :=
  pluginParams.toList.foldl
    (fun svc kv =>
      if kv.1 ∈ svc.params then svc else { svc with params := svc.params.insert kv.1 kv.2 })
    svc

/-- `_appendProviderParams`. -/
def appendProviderParams (env : Env Text) (act : AccountObject) : Bool × AccountObject :=
  match env.providers[act.provider]? with
  | none => (false, act.addError ("Unknown provider: '" ++ act.provider ++ "'"))
  | some curProvider =>
    (true,
      { act with
        services := act.services.map fun svcName svc =>
          match curProvider.plugins[svcName]? with
          | some pluginParams => appendParams pluginParams svc
          | none => svc })

/-- `services[svcName]`, which makes an entry when there is none. -/
def subscript (services : StrMap AccountService) (svcName : String) :
    StrMap AccountService × AccountService :=
  match services[svcName]? with
  | some svc => (services, svc)
  | none => (services.insert svcName {}, {})

/-- The inner loop of `_appendProviderParams` for one parameter, as it is written. -/
def appendParam (svcName : String) (services : StrMap AccountService) (kv : String × String) :
    StrMap AccountService :=
  let (services, svc) := subscript services svcName
  if kv.1 ∈ svc.params then services
  else
    let (services, svc) := subscript services svcName
    services.insert svcName { svc with params := svc.params.insert kv.1 kv.2 }

/-- The outer loop of `_appendProviderParams` for one service, as it is written. -/
def appendServiceParams (curProvider : ProviderStruct) (services : StrMap AccountService)
    (svcName : String) : StrMap AccountService :=
  match curProvider.plugins[svcName]? with
  | some pluginParams => pluginParams.toList.foldl (appendParam svcName) services
  | none => services

/-- `_appendProviderParams` as it is written: it changes the services through `operator[]` while it
goes through their names. -/
def appendProviderParamsInPlace (env : Env Text) (act : AccountObject) : Bool × AccountObject :=
  match env.providers[act.provider]? with
  | none => (false, act.addError ("Unknown provider: '" ++ act.provider ++ "'"))
  | some curProvider =>
    (true, { act with
      services := act.services.keys.foldl (appendServiceParams curProvider) act.services })

/-- The turn of the loop of `verify` for the service `svcName`. -/
def verifyService (env : Env Text) (state : Bool × AccountObject)
    (kv : String × AccountService) : M Text (Bool × AccountObject) := do
  let (verified, act) := state
  let known := (env.pluginNamed kv.1).isSome
  let act := if known then act else act.addError ("Unknown service '" ++ kv.1 ++ "'")
  let (svcVerified, svc) ← kv.2.verify env act.owner
  let act := if svcVerified then act else act.addErrorList svc.errors
  return (verified && known && svcVerified, { act with services := act.services.insert kv.1 svc })

/-- The loop of `verify` over the services. -/
def verifyServices (env : Env Text) (act : AccountObject) : M Text (Bool × AccountObject) :=
  act.services.toList.foldlM (verifyService env) (true, act)

/-- The removal of the secrets of every service, whose results are only logged. -/
def removeAllSecrets (env : Env Text) (act : AccountObject) : M Text Unit :=
  forM act.services.toList fun kv => do
    let _ ← kv.2.removeSecrets env act.owner

/-- `verify`. -/
def verify (env : Env Text) (act : AccountObject) : M Text (Bool × AccountObject) := do
  let act := { act with errors := [] }
  if act.title.isEmpty then
    return (false, act.addError "'title' is required")
  let (known, act) := if act.provider.isEmpty then (true, act) else act.appendProviderParams env
  if !known then
    return (false, act.addError "Could not update provider details.")
  let (verified, act) ← act.verifyServices env
  if !verified then
    act.removeAllSecrets env
  return (verified, act)

/-! ## Withdrawal -/

/-- The turn of the loop of `cleanup` for one service: one that the new account has is kept. -/
def cleanupService (env : Env Text) (oldAct newAccount : AccountObject)
    (kv : String × AccountService) : M Text Unit := do
  if !newAccount.hasService kv.1 then
    let _ ← kv.2.removeSecrets env oldAct.owner

/-- `cleanup`. -/
def cleanup (env : Env Text) (oldAct newAccount : AccountObject) : M Text Bool := do
  forM oldAct.services.toList (cleanupService env oldAct newAccount)
  return true

/-- The loop of `performAccountRemoval`, which ends at the first service that is not removed. -/
def removeServices (env : Env Text) : List AccountService → M Text (Option AccountService)
  | [] => return none
  | svc :: svcs => do
    if ← svc.performServiceCustomRemoval env then
      removeServices env svcs
    else
      return some svc

/-- `performAccountRemoval`. -/
def performAccountRemoval (env : Env Text) (act : AccountObject) :
    M Text (Bool × AccountObject) := do
  match ← removeServices env (act.services.toList.map Prod.snd) with
  | some svc => return (false, act.addErrorList svc.errors)
  | none =>
    if ← SecretManager.removeAccount env act.id then
      return (true, act)
    else
      return (true, act.addError "Could not remove account secrets.")

end AccountObject

end PxAccounts
