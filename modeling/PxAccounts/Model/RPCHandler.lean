import PxAccounts.Model.AccountManager

/-!
# Requests

The handlers of the RPC interface.  A `KJ_REQUIRE` or `KJ_ASSERT` that does not hold ends the request
with a `kj::Exception`, which the client receives in place of a reply.
-/

namespace PxAccounts

variable {Text : Type}

/-- `Account.Service` in a message. -/
structure RPCService where
  name : String
  params : List (String × String)
deriving DecidableEq

/-- `Account` in a message. -/
structure RPCAccount where
  id : Option String := none
  title : String
  provider : String
  active : Bool
  settings : List (String × String)
  services : List RPCService
deriving DecidableEq

/-- `AccountInfo` in a message. -/
structure RPCAccountInfo where
  id : String
  title : String
deriving DecidableEq

/-- The requests of `AccountReader` and `AccountWriter`; a parameter that is not set is `none`. -/
inductive Request
  | list (providerFilter serviceFilter : Option (List String))
  | get (id : Option String)
  | setStatus (id : Option String) (stat : AccountStatus)
  | getStatus (id : Option String)
  | add (account : Option RPCAccount)
  | edit (id : Option String) (account : Option RPCAccount)
  | remove (id : Option String)
deriving DecidableEq

inductive Reply
  | accounts (accounts : List RPCAccountInfo)
  | account (account : RPCAccount)
  | result (result : Bool)
  | status (status : AccountStatus)
  | saved (result : Bool) (account : RPCAccount) (warnings : StringList)
deriving DecidableEq

/-- `KJ_REQUIRE` and `KJ_ASSERT`. -/
def kjAssert (condition : Bool) (description : String) : M Text Unit :=
  if condition then pure () else throw (.kj description)

namespace RPCHandler

/-! ## Conversion -/

/-- The turn of the loop of `RPC2ACT` for one service; `none` ends it. -/
def decodeService (env : Env Text) (services : StrMap AccountService) (svc : RPCService) :
    Option (StrMap AccountService) :=
  let svcName := cStr svc.name
  let service := (services.getD svcName {}).init env svcName
  if service.inited then
    some (services.insert svcName
      { service with
        params := svc.params.foldl (fun m p => m.insert (cStr p.1) (cStr p.2)) service.params })
  else
    none

/-- `RPC2ACT`, into a fresh account; `none` when it returns false. -/
def rpc2act (env : Env Text) (rpc : RPCAccount) : Option AccountObject := do
  let act : AccountObject := match rpc.id with
    | some id => AccountObject.setId env {} (cStr id)
    | none => {}
  let settings := rpc.settings.foldl (fun m s => m.insert (cStr s.1) (cStr s.2)) act.settings
  let services ← rpc.services.foldlM (decodeService env) act.services
  return { act with
    title := cStr rpc.title
    provider := cStr rpc.provider
    isActive := rpc.active
    settings
    services }

/-- A list of a message, which is sized first (`initSettings` and the like) and then filled by index
in a loop over `xs`. -/
def fillList {α β : Type} (blank : β) (set : β → α → β) (xs : List α) : List β :=
  (xs.foldl (fun (state : List β × ℕ) x => (state.1.modify state.2 (set · x), state.2 + 1))
    (List.replicate xs.length blank, 0)).1

/-- `setKey` and `setValue`. -/
def setEntry (_ : String × String) (kv : String × String) : String × String := (kv.1, kv.2)

/-- `ACT2RPC`. -/
def act2rpc (env : Env Text) (act : AccountObject) : RPCAccount :=
  { id := some (act.idAsString env)
    title := act.title
    provider := act.provider
    active := act.isActive
    settings := fillList ("", "") setEntry act.settings.toList
    services := fillList { name := "", params := [] }
      (fun entry svc =>
        { entry with name := svc.1, params := fillList ("", "") setEntry svc.2.params.toList })
      act.services.toList }

/-- The id parameter of a request. -/
def requestId (env : Env Text) (id : Option String) (notSet invalid : String) : M Text Uuid := do
  match id with
  | none => throw (.kj notSet)
  | some strId =>
    let (parsed, accountId) := env.uuidFromString (cStr strId)
    kjAssert parsed invalid
    return accountId

/-- The account parameter of a request. -/
def requestAccount (env : Env Text) (account : RPCAccount) : M Text AccountObject :=
  match rpc2act env account with
  | some act => return act
  | none => throw (.kj "Error on parse received account")

/-! ## Handlers -/

/-- `list`. -/
def list (env : Env Text) (providerFilter serviceFilter : Option (List String)) :
    M Text Reply := do
  let pFilter := (providerFilter.getD []).map cStr
  let sFilter := (serviceFilter.getD []).map cStr
  AccountManager.resetErrors
  let accounts := AccountManager.listAccounts env (← MonadState.get) pFilter sFilter
  return .accounts (accounts.map fun act => { id := act.idAsString env, title := act.title })

/-- `get`. -/
def get (env : Env Text) (id : Option String) : M Text Reply := do
  let accountId ← requestId env id "'id' parameter not set" "invalid accound id"
  AccountManager.resetErrors
  match ← AccountManager.readAccount env accountId with
  | some actObj =>
    let accountSettings := fillList ("", "") setEntry actObj.settings.toList
    let accountServices := fillList { name := "", params := [] }
      (fun entry svc =>
        let params := fillList ("", "") setEntry svc.2.params.toList
        { entry with name := svc.1, params })
      actObj.services.toList
    return .account
      { id := some (actObj.idAsString env)
        title := actObj.title
        provider := actObj.provider
        active := actObj.isActive
        settings := accountSettings
        services := accountServices }
  | none =>
    let errs := (← MonadState.get).errors
    throw (.kj ("Account not found.\n" ++ String.join (errs.map fun err => " - " ++ err ++ "\n")))

/-- `setStatus`. -/
def setStatus (env : Env Text) (id : Option String) (stat : AccountStatus) : M Text Reply := do
  let accountId ← requestId env id "'id' parameter not set" "invalid account id"
  AccountManager.resetErrors
  let res ← AccountManager.setStatus env accountId stat
  kjAssert res "set account status failed"
  return .result true

/-- `getStatus`. -/
def getStatus (env : Env Text) (id : Option String) : M Text Reply := do
  let accountId ← requestId env id "'id' parameter not set" "invalid accound id"
  AccountManager.resetErrors
  return .status (AccountManager.getStatus env (← MonadState.get) accountId)

/-- `add`. -/
def add (env : Env Text) (account : Option RPCAccount) : M Text Reply := do
  match account with
  | none => throw (.kj "'account' parameter is not set")
  | some rpcAccount =>
    let account ← requestAccount env rpcAccount
    AccountManager.resetErrors
    let (res, account) ← AccountManager.createAccount env account
    let errs := (← MonadState.get).errors
    kjAssert res
      ("Create new account failed:\n" ++ String.join (errs.map fun err => "\t- " ++ err ++ "\n"))
    return .saved res (act2rpc env account) errs

/-- `edit`. -/
def edit (env : Env Text) (id : Option String) (account : Option RPCAccount) : M Text Reply := do
  if id.isNone then
    throw (.kj "'id' parameter is not set")
  match account with
  | none => throw (.kj "'account' parameter is not set")
  | some rpcAccount =>
    let accountId ← requestId env id "'id' parameter is not set" "invalid accound id"
    let account ← requestAccount env rpcAccount
    AccountManager.resetErrors
    let (res, account) ← AccountManager.modifyAccount env accountId account
    kjAssert res "Modify Existing Account failed."
    return .saved true (act2rpc env account) (← MonadState.get).errors

/-- `remove`. -/
def remove (env : Env Text) (id : Option String) : M Text Reply := do
  let accountId ← requestId env id "'id' parameter is not set" "invalid accound id"
  AccountManager.resetErrors
  let res ← AccountManager.deleteAccount env accountId
  kjAssert res "Remove Account Failed"
  return .result true

/-- The handler of a request. -/
def handle (env : Env Text) : Request → M Text Reply
  | .list providerFilter serviceFilter => list env providerFilter serviceFilter
  | .get id => get env id
  | .setStatus id stat => setStatus env id stat
  | .getStatus id => getStatus env id
  | .add account => add env account
  | .edit id account => edit env id account
  | .remove id => remove env id

end RPCHandler

end PxAccounts
