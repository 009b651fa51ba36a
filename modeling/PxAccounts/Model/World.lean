import PxAccounts.Lib.Effect
import PxAccounts.Model.Yaml

/-!
# The world of the service

Everything a request can read or change: the account files, the status table, the secrets held by
the secret service, the records in the plugins' own storage, the events sent, the errors of the
last operation and the log.  What the service does not decide itself (the answers of plugins, of
the secret service, of the file system and of the event service, and the uuids generated) comes from
`Answers`: the `n`-th call to the outside gets the answer listed under `n`, whatever it is.
-/

namespace PxAccounts

/-- An account directory as given to `AccountManager::Init`. -/
structure AccountParser where
  path : String
  readonly : Bool
deriving DecidableEq

/-- `ProviderStruct`. -/
structure ProviderStruct where
  title : String
  plugins : StrMap StrStrMap
deriving DecidableEq

/-- The file `name` in the directory `dir`. -/
structure AccountPath where
  dir : String
  name : String
deriving DecidableEq

/-- What `FILE::write` achieves: the file cannot be opened, only the first `count` bytes are
written, or all of them. -/
inductive WriteOutcome
  | notOpened
  | cutShort (count : ℕ)
  | complete
deriving DecidableEq

/-- What is fixed when the service starts. -/
structure Config (Text : Type) where
  uuid : Libuuid
  yaml : YamlCpp Text
  /-- The order in which `readdir` lists the names in a directory. -/
  readdir : StrMap Text → List String
  readdir_perm : ∀ files, (readdir files).Perm files.keys
  userPaths : List String
  readonlyPaths : List String
  paths_nodup : (userPaths ++ readonlyPaths).Nodup
  /-- `PluginManager::registeredPlugins`. -/
  registeredPlugins : StrMap PluginContainer
  title_registered : ∀ (name : String) (plugin : PluginContainer),
    registeredPlugins[name]? = some plugin → plugin.title = name
  providers : StrMap ProviderStruct
  /-- `EventManager::Init` succeeded. -/
  eventManagerInited : Bool

/-- The answers from outside, by the number of calls made before. -/
structure Answers (Text : Type) where
  uuidGenerate : ℕ → Uuid
  verify : ℕ → PluginContainer → StrStrMap → Answer VerifyResult
  authenticate : ℕ → PluginContainer → ServiceParamList → Answer AuthResult
  /-- `none` when the plugin does not define the method, here and for `write` and `remove`. -/
  read : ℕ → PluginContainer → String → Option (Answer StrStrMap)
  write : ℕ → PluginContainer → VerifyResult → AuthResult → List PluginRecord →
    Option (Answer String) × List PluginRecord
  remove : ℕ → PluginContainer → String → List PluginRecord →
    Option (Answer Bool) × List PluginRecord
  setSecret : ℕ → RPCSecretItem → List RPCSecretItem →
    RpcReply RPCSecretResult × List RPCSecretItem
  search : ℕ → List (String × String) → List RPCSecretItem → RpcReply (List RPCSecretItem)
  deleteSecret : ℕ → List (String × String) → List RPCSecretItem →
    RpcReply RPCSecretResult × List RPCSecretItem
  writeFile : ℕ → AccountPath → Text → WriteOutcome
  removeFile : ℕ → AccountPath → Bool
  emit : ℕ → Event → Delivery
  clock : ℕ → ℕ

structure Env (Text : Type) extends Config Text, Answers Text

/-- One call to the outside, with its answer. -/
inductive Call (Text : Type)
  | uuidGenerate (id : Uuid)
  | verify (plugin : String) (params : StrStrMap) (answer : Answer VerifyResult)
  | authenticate (plugin : String) (params : ServiceParamList) (answer : Answer AuthResult)
  | read (plugin id : String) (answer : Option (Answer StrStrMap))
  | write (plugin : String) (vResult : VerifyResult) (aResult : AuthResult)
      (answer : Option (Answer String))
  | remove (plugin id : String) (answer : Option (Answer Bool))
  | setSecret (item : RPCSecretItem) (reply : RpcReply RPCSecretResult)
  | search (attributes : List (String × String)) (reply : RpcReply (List RPCSecretItem))
  | deleteSecret (attributes : List (String × String)) (reply : RpcReply RPCSecretResult)
  | writeFile (path : AccountPath) (data : Text) (outcome : WriteOutcome)
  | removeFile (path : AccountPath) (removed : Bool)
  | emit (event : Event) (delivery : Delivery)

structure World (Text : Type) where
  /-- The contents of the directories, by path and file name. -/
  files : String → StrMap Text
  statDict : StrMap AccountStatus := ∅
  /-- What the secret service stores. -/
  secrets : List RPCSecretItem := []
  records : List PluginRecord := []
  /-- The events sent so far. -/
  events : List Event := []
  /-- The error list of the `AccountManager`. -/
  errors : StringList := []
  calls : List (Call Text) := []
  log : List (LogLevel × String) := []

/-- What ends a call without a result: a `std::exception`, a `kj::Exception`, or undefined
behaviour, at which the call stops. -/
inductive Exn
  | std (what : String)
  | kj (description : String)
  | undefined (what : String)
deriving DecidableEq

abbrev M (Text : Type) := EStateM Exn (World Text)

variable {Text : Type}

/-- How many calls were made to the outside. -/
def World.tick (w : World Text) : ℕ := w.calls.length

def World.record (w : World Text) (c : Call Text) : World Text := { w with calls := w.calls ++ [c] }

/-- The content of a file, if it exists. -/
def World.fileAt (w : World Text) (path : AccountPath) : Option Text := (w.files path.dir)[path.name]?

/-- The directory `dir` replaced. -/
def World.setDir (w : World Text) (dir : String) (d : StrMap Text) : World Text :=
  { w with files := Function.update w.files dir d }

/-- `std::string(text.cStr())`: a received text up to its first NUL. -/
def cStr (text : String) : String := String.ofList (text.toList.takeWhile (· ≠ Char.ofNat 0))

/-- `GLOG_ERR`, `GLOG_WRN` and `GLOG_INF`. -/
def glog (level : LogLevel) (parts : List String) : M Text Unit :=
  modify fun w => { w with log := w.log ++ [(level, logMessage parts)] }

def undefinedBehaviour {α : Type} (what : String) : M Text α := throw (.undefined what)

namespace Env

variable (env : Env Text)

/-! ## Calls to the outside -/

def callUuidGenerate : M Text Uuid :=
  modifyGet fun w => (env.uuidGenerate w.tick, w.record (.uuidGenerate (env.uuidGenerate w.tick)))

def callVerify (plugin : PluginContainer) (params : StrStrMap) : M Text (Answer VerifyResult) :=
  modifyGet fun w =>
    let answer := env.verify w.tick plugin params
    (answer, w.record (.verify plugin.title params answer))

def callAuthenticate (plugin : PluginContainer) (params : ServiceParamList) :
    M Text (Answer AuthResult) :=
  modifyGet fun w =>
    let answer := env.authenticate w.tick plugin params
    (answer, w.record (.authenticate plugin.title params answer))

def callRead (plugin : PluginContainer) (id : String) : M Text (Option (Answer StrStrMap)) :=
  modifyGet fun w =>
    let answer := env.read w.tick plugin id
    (answer, w.record (.read plugin.title id answer))

def callWrite (plugin : PluginContainer) (vResult : VerifyResult) (aResult : AuthResult) :
    M Text (Option (Answer String)) :=
  modifyGet fun w =>
    let answer := env.write w.tick plugin vResult aResult w.records
    (answer.1, { w with records := answer.2 }.record (.write plugin.title vResult aResult answer.1))

def callRemove (plugin : PluginContainer) (id : String) : M Text (Option (Answer Bool)) :=
  modifyGet fun w =>
    let answer := env.remove w.tick plugin id w.records
    (answer.1, { w with records := answer.2 }.record (.remove plugin.title id answer.1))

def callSetSecret (item : RPCSecretItem) : M Text (RpcReply RPCSecretResult) :=
  modifyGet fun w =>
    let reply := env.setSecret w.tick item w.secrets
    (reply.1, { w with secrets := reply.2 }.record (.setSecret item reply.1))

def callSearch (attributes : List (String × String)) : M Text (RpcReply (List RPCSecretItem)) :=
  modifyGet fun w =>
    let reply := env.search w.tick attributes w.secrets
    (reply, w.record (.search attributes reply))

def callDeleteSecret (attributes : List (String × String)) : M Text (RpcReply RPCSecretResult) :=
  modifyGet fun w =>
    let reply := env.deleteSecret w.tick attributes w.secrets
    (reply.1, { w with secrets := reply.2 }.record (.deleteSecret attributes reply.1))

/-- What a file holds after a write of `data`. -/
def afterWrite (outcome : WriteOutcome) (data : Text) (old : Option Text) : Option Text :=
  match outcome with
  | .notOpened => old
  | .cutShort count => some (env.yaml.cut data count)
  | .complete => some data

def callWriteFile (path : AccountPath) (data : Text) : M Text WriteOutcome :=
  modifyGet fun w =>
    let outcome := env.writeFile w.tick path data
    let dir := w.files path.dir
    let w' := w.setDir path.dir (dir.alter path.name (env.afterWrite outcome data))
    (outcome, w'.record (.writeFile path data outcome))

/-- `::remove`, which fails when there is no such file. -/
def callRemoveFile (path : AccountPath) : M Text Bool :=
  modifyGet fun w =>
    let removed := (w.fileAt path).isSome && env.removeFile w.tick path
    let w' := if removed then w.setDir path.dir ((w.files path.dir).erase path.name) else w
    (removed, w'.record (.removeFile path removed))

/-- `nng_dial` and `nng_send`. -/
def callEmit (event : Event) : M Text Delivery :=
  modifyGet fun w =>
    let delivery := env.emit w.tick event
    let w' := if delivery = .sent then { w with events := w.events ++ [event] } else w
    (delivery, w'.record (.emit event delivery))

/-- `AccountManager::m_parsers`: the user directories, then the read-only ones. -/
def parsers : List AccountParser :=
  (env.userPaths.map fun path => { path, readonly := false }) ++
    env.readonlyPaths.map fun path => { path, readonly := true }

/-- `PluginManager::operator[]`: the first registered plugin with the title. -/
def pluginNamed (pluginName : String) : Option PluginContainer :=
  (env.registeredPlugins.toList.find? fun kv => kv.2.title == pluginName).map Prod.snd

def uuidAsString (id : Uuid) : String := env.uuid.unparseLower id

/-- `uuid_from_string`, which clears the id it does not parse. -/
def uuidFromString (strId : String) : Bool × Uuid :=
  match env.uuid.parse strId with
  | some id => (true, id)
  | none => (false, Uuid.null)

end Env

end PxAccounts
