import PxAccounts.Model.AccountObject

/-!
# Event manager

The four events the service publishes.
-/

namespace PxAccounts

variable {Text : Type}

namespace EventManager

/-- `MAKE_SERVICES_PARAM`: the names of the services, with nothing between them. -/
def makeServicesParam (account : AccountObject) : String := String.join account.services.keys

/-- `EventManager::Instance().emit`, which throws before the event manager is set up. -/
def emit (env : Env Text) (event : String) (params : StrStrMap) : M Text Bool := do
  if !env.eventManagerInited then
    throw (.std "EventManager is not inited yet!")
  let time := env.clock (← get).tick
  let delivery ←
    env.callEmit { topic := "account", source := "px-accounts-service", time, event, params }
  return delivery == .sent

/-- The parameters that every event has. -/
def accountParams (env : Env Text) (account : AccountObject) : StrStrMap :=
  ((∅ : StrStrMap).insert "account" (account.idAsString env)).insert "services"
    (makeServicesParam account)

/-- `EMIT_STATUS_CHANGE`. -/
def emitStatusChange (env : Env Text) (account : AccountObject) (old new : AccountStatus) :
    M Text Bool :=
  emit env "account_status_change"
    (((accountParams env account).insert "old" (accountStatusString old)).insert "new"
      (accountStatusString new))

/-- `EMIT_CREATE_ACCOUNT`. -/
def emitCreateAccount (env : Env Text) (account : AccountObject) : M Text Bool :=
  emit env "account_create" (accountParams env account)

/-- `EMIT_MODIFY_ACCOUNT`. -/
def emitModifyAccount (env : Env Text) (account : AccountObject) : M Text Bool :=
  emit env "account_modify" (accountParams env account)

/-- `EMIT_DELETE_ACCOUNT`. -/
def emitDeleteAccount (env : Env Text) (account : AccountObject) : M Text Bool :=
  emit env "account_delete" (accountParams env account)

end EventManager

end PxAccounts
