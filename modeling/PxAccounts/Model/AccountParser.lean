import PxAccounts.Model.AccountObject
import PxAccounts.Model.FileUtils

/-!
# Account files

One parser for each account directory: it finds, reads, lists, writes and removes the account files
in it.  A read only looks at the files, so it is a function of the world; on failure it gives the
errors the parser then holds, and the account read so far, which no caller uses, is dropped.
-/

namespace PxAccounts

variable {Text : Type}

namespace AccountParser

/-- The name of the file of an account. -/
def accountFile (env : Env Text) (id : Uuid) : String := env.uuidAsString id ++ ".yaml"

/-- `accountPath`. -/
def accountPath (env : Env Text) (parser : AccountParser) (id : Uuid) : AccountPath :=
  { dir := parser.path, name := accountFile env id }

/-! ## Reading -/

/-- `node.as<string>()` for both parts of an iterator value. -/
def readEntry (env : Env Text) (it : IterValue) : Except ReadError (String × String) := do
  let val ← env.yaml.asString it.second
  let key ← env.yaml.asString it.first
  return (key, val)

/-- The loop over the settings. -/
def readSettings (env : Env Text) (node : Option Node) (settings : StrStrMap) :
    Except ReadError StrStrMap :=
  (Node.iter node).foldlM
    (fun settings it => do
      let (key, val) ← readEntry env it
      return settings.insert key val)
    settings

/-- The loop over the parameters of a service. -/
def readParams (env : Env Text) (node : Option Node) (svc : AccountService) :
    Except ReadError AccountService :=
  (Node.iter node).foldlM
    (fun svc p => do
      let (key, val) ← readEntry env p
      return { svc with params := svc.params.insert key val })
    svc

/-- The body of the loops over the services for one entry. -/
def readService (env : Env Text) (services : StrMap AccountService) (service : IterValue) :
    Except ReadError (StrMap AccountService) := do
  let serviceName ← env.yaml.asString service.first
  let svc := (services.getD serviceName {}).init env serviceName
  if !svc.inited then
    throw (.failure ("Failed to initiate '" ++ serviceName ++ "' service."))
  let svc ← readParams env service.second svc
  return services.insert serviceName svc

/-- The two loops over the services. -/
def readServices (env : Env Text) (node : Option Node) (services : StrMap AccountService) :
    Except ReadError (StrMap AccountService) :=
  (Node.iter node).foldlM
    (fun services it => (Node.iter it.node).foldlM (readService env) services)
    services

/-- What the `try` block of `read` makes of the loaded document. -/
def readDocument (env : Env Text) (cfg : Node) (account : AccountObject) :
    Except ReadError AccountObject := do
  match ← cfg.subscript "account" with
  | none => return account
  | some details =>
    let account := account.setId env (← env.yaml.asString (← details.subscript "id"))
    let title ← env.yaml.asString (← details.subscript "title")
    let provider ← env.yaml.asString (← details.subscript "provider")
    let isActive ← Node.asBool (← details.subscript "active")
    let settings ← readSettings env (← details.subscript "settings") account.settings
    let services ← readServices env (← details.subscript "services") account.services
    return { account with title, provider, isActive, settings, services }

/-- The text of a file read into an account. -/
def readText (env : Env Text) (text : Text) (account : AccountObject) :
    Except ReadError AccountObject :=
  match env.yaml.load text with
  | none => .error .yaml
  | some cfg => readDocument env cfg account

/-- `read(const uuid_t &, AccountObject &)`. -/
def read (env : Env Text) (w : World Text) (parser : AccountParser) (id : Uuid)
    (account : AccountObject) : Except StringList AccountObject :=
  match w.fileAt (parser.accountPath env id) with
  | none => .error ["Account not found: " ++ env.uuidAsString id]
  | some text =>
    match readText env text account with
    | .ok account => .ok account
    | .error .yaml => .error ["failed to parse account details"]
    | .error (.failure what) => .error [what]

/-- The files of the directory that `list` and `hasAccount` look at. -/
def accountFiles (env : Env Text) (w : World Text) (parser : AccountParser) : List String :=
  FILE.dirfiles env w parser.path ".yaml"

/-- `list`. -/
def list (env : Env Text) (w : World Text) (parser : AccountParser) : List AccountObject :=
  (accountFiles env w parser).filterMap fun actFile =>
    match env.uuidFromString (fileStem actFile) with
    | (true, accountId) => (parser.read env w accountId {}).toOption
    | (false, _) => none

/-- `hasAccount`. -/
def hasAccount (env : Env Text) (w : World Text) (parser : AccountParser) (id : Uuid) : Bool :=
  (accountFiles env w parser).any fun actFile =>
    match env.uuidFromString (fileStem actFile) with
    | (true, curId) => id == curId
    | (false, _) => false

/-! ## Writing -/

/-- The node of a map of texts. -/
def mapNode (entries : List (String × String)) : Node :=
  Node.mapping (entries.map fun p => (p.1, .scalar p.2))

/-- The parameters that reach the file. -/
def plainParams (svc : AccountService) : List (String × String) :=
  svc.params.toList.filter fun p => !svc.isProtected p.1

/-- The item of the sequence of services for one service. -/
def serviceNode (svcName : String) (svc : AccountService) : Node :=
  Node.mapping [(svcName, mapNode (plainParams svc))]

/-- The document `write` emits. -/
def document (env : Env Text) (account : AccountObject) : Node :=
  Node.mapping [("account", Node.mapping [
    ("id", .scalar (account.idAsString env)),
    ("title", .scalar account.title),
    ("provider", .scalar account.provider),
    ("active", Node.bool account.isActive),
    ("settings", mapNode account.settings.toList),
    ("services", .sequence (account.services.toList.map fun kv => serviceNode kv.1 kv.2))])]

/-- `write`. -/
def write (env : Env Text) (parser : AccountParser) (account : AccountObject) : M Text Bool := do
  if uuidIsNull account.id then
    return false
  if parser.readonly then
    return false
  FILE.write env (parser.accountPath env account.id) (env.yaml.emit (document env account))

/-- `remove`. -/
def remove (env : Env Text) (parser : AccountParser) (id : Uuid) : M Text Bool := do
  if parser.readonly then
    return false
  let acPath := parser.accountPath env id
  if !FILE.fileExists (← get) acPath then
    return false
  FILE.remove env acPath

end AccountParser

end PxAccounts
