import PxAccounts.Model.World

/-!
# Secret manager

The requests to the secret service, and the items that go into them and come back.
-/

namespace PxAccounts

variable {Text : Type}

/-! ## Secret items -/

namespace SecretItem

/-- `schema`. -/
def schema (s : SecretItem) : String := s.attributes.getD "schema" ""

/-- `is`. -/
def is (s : SecretItem) (type : String) : Bool := s.schema == type

/-- `updateAttributes`: the attributes of the token come last and so win. -/
def updateAttributes (s : SecretItem) (accountId service : String) (others : StrStrMap) :
    SecretItem :=
  let attributes := ((s.attributes.insert "service" service).insert "account_id" accountId).insert
    "schema" s.schema
  { s with attributes := others.toList.foldl (fun m a => m.insert a.1 a.2) attributes }

/-- `getSecret`. -/
def getSecret (s : SecretItem) (key : String) : String := s.secrets.getD key ""

/-- `PasswordSecret::password`. -/
def password (s : SecretItem) : String := s.getSecret "password"

/-- `DualPasswordSecret::isUserPassword`.  The key found and the key read differ by a letter, and
reading through the end of the map is undefined. -/
def isUserPassword (s : SecretItem) (key : String) : Except Exn Bool :=
  if "user_password_key" ∈ s.attributes then
    match s.attributes["user_pasword_key"]? with
    | some val => .ok (val == key)
    | none => .error (.undefined "attributes.find(user_pasword_key)->second")
  else .ok false

/-- `DualPasswordSecret::isServicePassword`. -/
def isServicePassword (s : SecretItem) (key : String) : Bool :=
  s.attributes["service_password_key"]? == some key

/-- `DualPasswordSecret::getMatchingPassword`. -/
def getMatchingPassword (s : SecretItem) (key : String) : Except Exn String := do
  if ← s.isUserPassword key then
    return s.getSecret "user_password"
  else if s.isServicePassword key then
    return s.getSecret "service_password"
  else
    return ""

/-- `toString`. -/
def toString (s : SecretItem) (pretty : Bool) : String :=
  let sep1 := if pretty then "\n" else " "
  let sep2 := if pretty then "   " else " "
  let attributes := s.attributes.toList.map fun a => sep2 ++ "[" ++ a.1 ++ ":" ++ a.2 ++ "]" ++ sep1
  let secrets := s.secrets.toList.map fun a =>
    sep2 ++ "[" ++ a.1 ++ ":" ++ maskString a.2 ++ "]" ++ sep1
  "Secret: " ++ sep1 ++ "label: " ++ s.label ++ sep1 ++ "attributes: " ++ sep1 ++
    String.join attributes ++ "secrets: " ++ sep1 ++ String.join secrets

/-- The message `setSecret` sends. -/
def toRpc (s : SecretItem) : RPCSecretItem :=
  { label := s.label, attributes := s.attributes.toList, secrets := s.secrets.toList }

end SecretItem

/-- `secret->as<T>()`: a failed `dynamic_cast` is dereferenced. -/
def SecretItemPtr.as (secret : SecretItemPtr) (type : SecretClass) : Except Exn SecretItem :=
  if secret.type = type then .ok secret.item else .error (.undefined "dynamic_cast")

namespace SecretManager

/-- The class made for a schema. -/
def classOfSchema (schema : String) : Option SecretClass :=
  if schema == "password" then some .password
  else if schema == "dual_password" then some .dualPassword
  else if schema == "oauth2" then some .oauth2
  else none

/-- The assignments `map[key.cStr()] = value.cStr()` over a received list. -/
def receivedMap (entries : List (String × String)) : StrStrMap :=
  entries.foldl (fun m e => m.insert (cStr e.1) (cStr e.2)) ∅

/-- The last `schema` attribute of a received item. -/
def receivedSchema (attributes : List (String × String)) : String :=
  attributes.foldl (fun schema a => if cStr a.1 == "schema" then cStr a.2 else schema) ""

/-- One item of a search result; an item of an unknown schema is dropped. -/
def decodeItem (item : RPCSecretItem) : Option SecretItemPtr :=
  (classOfSchema (receivedSchema item.attributes)).map fun type =>
    { type
      item :=
        { label := cStr item.label
          secrets := receivedMap item.secrets
          attributes := receivedMap item.attributes } }

/-- The result of a request that ends in an `RPCSecretResult`, with the error it logs. -/
def succeeded : RpcReply RPCSecretResult → Bool × String
  | .result r => (r.success, cStr r.error)
  | .exception description => (false, cStr description)
  | .unreachable _ => (false, "")

/-- `RPCClient::performRequest` logs when it cannot connect. -/
def logUnreachable {α : Type} : RpcReply α → M Text Unit
  | .unreachable description => glog .err ["Error: ", description]
  | _ => pure ()

/-- `setSecret`. -/
def setSecret (env : Env Text) (secret : SecretItem) : M Text Bool := do
  glog .inf ["=========="]
  let reply ← env.callSetSecret secret.toRpc
  logUnreachable reply
  let (isSucceed, errString) := succeeded reply
  if !isSucceed then
    glog .err ["RPC ERROR: ", errString]
  return isSucceed

/-- `search`. -/
def search (env : Env Text) (attributes : StrStrMap) : M Text (List SecretItemPtr) := do
  glog .inf ["=========="]
  let reply ← env.callSearch attributes.toList
  logUnreachable reply
  match reply with
  | .unreachable _ =>
    glog .err ["RPC ERROR: ", ""]
    glog .inf ["search results: ", "0"]
    return []
  | .exception _ =>
    glog .inf ["search results: ", "0"]
    return []
  | .result items =>
    forM items fun item =>
      if (decodeItem item).isNone then
        glog .err ["secret is nullptr. schema: ", receivedSchema item.attributes]
      else pure ()
    let secretItems := items.filterMap decodeItem
    glog .inf ["search results: ", ToString.toString secretItems.length]
    forM secretItems fun secret => glog .inf [secret.item.toString false]
    return secretItems

/-- `deleteSecret`. -/
def deleteSecret (env : Env Text) (attributes : StrStrMap) : M Text Bool := do
  let reply ← env.callDeleteSecret attributes.toList
  return (succeeded reply).1

/-- `getAccountSecrets`. -/
def getAccountSecrets (env : Env Text) (accountId : Uuid) : M Text (List SecretItemPtr) :=
  search env ((∅ : StrStrMap).insert "account_id" (env.uuidAsString accountId))

/-- `removeService`. -/
def removeService (env : Env Text) (accountId : Uuid) (svcName : String) : M Text Bool :=
  deleteSecret env
    (((∅ : StrStrMap).insert "account_id" (env.uuidAsString accountId)).insert "service" svcName)

/-- `removeAccount`. -/
def removeAccount (env : Env Text) (accountId : Uuid) : M Text Bool :=
  deleteSecret env ((∅ : StrStrMap).insert "account_id" (env.uuidAsString accountId))

end SecretManager

end PxAccounts
