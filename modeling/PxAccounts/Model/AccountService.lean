import PxAccounts.Model.Plugins
import PxAccounts.Model.SecretManager

/-!
# Account services

A service of an account: its parameters, and the verification that asks the plugin, reloads saved
secrets, authenticates, saves the tokens and lets the plugin keep its own copy.
-/

namespace PxAccounts

variable {Text : Type}

/-- `PLUGIN_ID_PARAM`. -/
def pluginIdParam : String := "PLUGIN_ID"

/-- What a service reads through `_account`, the account that holds it. -/
structure Owner where
  id : Uuid
  title : String
deriving DecidableEq

/-- `AccountObject::isIdSet`. -/
def Owner.isIdSet (owner : Owner) : Bool := !uuidIsNull owner.id

/-- `AccountService`.  `_account` is only ever set, by `init`, to the account that holds the
service, so that only whether it is set is kept here; the account itself is passed to the methods.
-/
structure AccountService where
  params : StrStrMap := ∅
  errors : StringList := []
  name : String := ""
  accountSet : Bool := false
  plugin : Option PluginContainer := none
  inited : Bool := false
  verified : Bool := false
  requiredDict : StrMap Bool := ∅
  protectedDict : StrMap Bool := ∅
deriving DecidableEq

namespace AccountService

/-- `init`. -/
def init (env : Env Text) (svc : AccountService) (name : String) : AccountService :=
  { svc with
    name := name
    accountSet := true
    plugin := env.pluginNamed name
    inited := (env.pluginNamed name).isSome }

def addError (svc : AccountService) (err : String) : AccountService :=
  { svc with errors := svc.errors ++ [err] }

def addErrorList (svc : AccountService) (errs : StringList) : AccountService :=
  { svc with errors := svc.errors ++ errs }

/-- `clearService`. -/
def clearService (svc : AccountService) : AccountService :=
  { svc with params := ∅, protectedDict := ∅, requiredDict := ∅ }

/-- `applyVerification`: the last entry of a key decides its value and its flags. -/
def applyVerification (svc : AccountService) (params : ServiceParamList) : AccountService :=
  let svc := params.foldl
    (fun svc param =>
      { svc with
        params := svc.params.insert param.key param.val
        requiredDict := svc.requiredDict.insert param.key param.isRequired
        protectedDict := svc.protectedDict.insert param.key param.isProtected })
    svc.clearService
  { svc with verified := true }

/-- `isProtected`. -/
def isProtected (svc : AccountService) (key : String) : Bool :=
  svc.verified && svc.protectedDict.getD key false

/-- `this->_account->`. -/
def derefAccount (svc : AccountService) (owner : Owner) : M Text Owner :=
  if svc.accountSet then return owner else undefinedBehaviour "_account is null"

/-- `this->plugin()->`. -/
def derefPlugin (svc : AccountService) : M Text PluginContainer :=
  match svc.plugin with
  | some plugin => return plugin
  | none => undefinedBehaviour "plugin() is null"

/-! ## Verification -/

/-- One turn of the loop over the saved secrets: a secret of this service replaces the value. -/
def matchSecret (svcName : String) (key val : String) (secret : SecretItemPtr) :
    Except Exn String := do
  if secret.item.attributes["service"]? == some svcName then
    if secret.item.is "dual_password" then
      (← secret.as .dualPassword).getMatchingPassword key
    else if secret.item.is "password" then
      return (← secret.as .password).password
    else
      return val
  else
    return val

/-- The turn of `_verifyParams` for one parameter: a blank protected value is looked up. -/
def loadSecret (svcName : String) (savedSecrets : List SecretItemPtr) (param : ServiceParam) :
    M Text ServiceParam := do
  if param.isProtected && param.val.isEmpty then
    match savedSecrets.foldlM (matchSecret svcName param.key) param.val with
    | .error e => throw e
    | .ok val =>
      if val.isEmpty then
        glog .inf ["ignore secret load for: ", param.key, " (related saved secret not found)"]
      else
        glog .inf ["protected param value loaded: ", param.key, " -> ", val]
      return { param with val := val }
  else
    return param

/-- `_verifyParams`. -/
def verifyParams (env : Env Text) (owner : Owner) (svc : AccountService) :
    M Text (Option VerifyResult × AccountService) := do
  match svc.plugin with
  | none =>
    glog .inf ["service plugin is not initiated."]
    return (none, svc)
  | some plugin =>
    let verifyResult ← plugin.verify env svc.params
    if !verifyResult.verified then
      return (none, svc.addErrorList verifyResult.errors)
    let account ← svc.derefAccount owner
    let savedSecrets ← SecretManager.getAccountSecrets env account.id
    let params ← verifyResult.params.mapM (loadSecret svc.name savedSecrets)
    glog .inf ["parameters are verified:"]
    forM params fun param =>
      glog .inf ["\t", param.key, " : ", param.val,
        if param.isProtected then " - PROTECTED" else "",
        if param.isRequired then " - REQUIRED" else ""]
    return (some { verifyResult with params }, svc.applyVerification params)

/-- `_authenticate`. -/
def authenticate (env : Env Text) (vResult : VerifyResult) (svc : AccountService) :
    M Text (Option AuthResult × AccountService) := do
  let plugin ← svc.derefPlugin
  let authResult ← plugin.authenticate env vResult.params
  let svc := svc.addErrorList authResult.errors
  if !authResult.authenticated then
    return (none, svc)
  glog .inf ["service authenticated:"]
  forM authResult.tokens fun token => do
    glog .inf ["\t", token.label, " : ", maskString token.secret]
    forM token.attributes.toList fun attrib =>
      glog .inf ["\t\t[", attrib.1, " : ", attrib.2, "]"]
  return (some authResult, svc)

/-- The key under which a token of this schema is collected, and the name its secret gets. -/
def tokenKeys (schema label : String) : String × String :=
  if schema == "oauth2" || schema == "dual_password" then (schema, label) else (label, "password")

/-- Add a token of the schema `schema` to the items collected so far. -/
def collectToken (env : Env Text) (account : Owner) (svcName schema : String)
    (secretDict : StrMap SecretItem) (token : SecretToken) : StrMap SecretItem :=
  let (key, secretKey) := tokenKeys schema token.label
  let item := secretDict.getD key {}
  let item :=
    { item with
      label := account.title ++ "->" ++ svcName ++ " [" ++ schema ++ "]"
      secrets := item.secrets.insert secretKey token.secret }
  secretDict.insert key
    (item.updateAttributes (env.uuidAsString account.id) svcName token.attributes)

/-- The first loop of `_saveProtectedParams` for one token. -/
def collectStep (env : Env Text) (owner : Owner) (state : StrMap SecretItem × AccountService)
    (token : SecretToken) : M Text (StrMap SecretItem × AccountService) := do
  let (secretDict, svc) := state
  match token.attributes["schema"]? with
  | some schema =>
    let (key, secretKey) := tokenKeys schema token.label
    glog .inf ["   NEW SET SECRET PARAM:", key, "->", schema, "(", secretKey, ")"]
    let account ← svc.derefAccount owner
    return (collectToken env account svc.name schema secretDict token, svc)
  | none =>
    glog .wrn ["schema not set for protected param:", token.label]
    return (secretDict, svc.addError ("schema not set for protected param: " ++ token.label))

/-- The second loop of `_saveProtectedParams`, which ends at the first item refused. -/
def saveItems (env : Env Text) : List SecretItem → M Text Bool
  | [] => return true
  | item :: items => do
    glog .inf ["save new secret:", item.toString true]
    if ← SecretManager.setSecret env item then
      saveItems env items
    else
      glog .err ["saving secret failed"]
      return false

/-- `_saveProtectedParams`. -/
def saveProtectedParams (env : Env Text) (owner : Owner) (aResult : AuthResult)
    (svc : AccountService) : M Text (Bool × AccountService) := do
  glog .inf ["saving protected params:", toString aResult.tokens.length]
  let (secretDict, svc) ← aResult.tokens.foldlM (collectStep env owner) (∅, svc)
  if ← saveItems env (secretDict.toList.map Prod.snd) then
    return (true, svc)
  else
    return (false, svc.addError "unable to set protected tokens.")

/-- The custom write at the end of `verify`: the plugin's id replaces the parameters, and an
exception is only logged. -/
def customWrite (env : Env Text) (vResult : VerifyResult) (aResult : AuthResult)
    (svc : AccountService) : M Text AccountService := do
  let plugin ← svc.derefPlugin
  match ← plugin.write env vResult aResult with
  | .ok pluginId =>
    glog .inf ["custom write done, ID:", pluginId]
    let svc := svc.clearService
    return { svc with params := svc.params.insert pluginIdParam pluginId }
  | .error errMsg =>
    if errMsg != "write not found" then
      glog .wrn [errMsg]
    return svc

/-- `verify`. -/
def verify (env : Env Text) (owner : Owner) (svc : AccountService) :
    M Text (Bool × AccountService) := do
  let svc := { svc with errors := [] }
  match ← svc.verifyParams env owner with
  | (none, svc) =>
    glog .err ["parameter verification failed"]
    return (false, svc.addError "parameter verification failed")
  | (some vResult, svc) =>
    match ← svc.authenticate env vResult with
    | (none, svc) => return (false, svc)
    | (some aResult, svc) =>
      match ← svc.saveProtectedParams env owner aResult with
      | (false, svc) => return (false, svc)
      | (true, svc) => return (true, ← svc.customWrite env vResult aResult)

/-! ## Removal and custom storage -/

/-- `removeSecrets`. -/
def removeSecrets (env : Env Text) (owner : Owner) (svc : AccountService) : M Text Bool := do
  let account ← svc.derefAccount owner
  if !account.isIdSet then
    return false
  SecretManager.removeService env account.id svc.name

/-- `performCustomRead`. -/
def performCustomRead (env : Env Text) (svc : AccountService) : M Text AccountService := do
  match svc.params[pluginIdParam]? with
  | none => return svc
  | some pluginId =>
    let plugin ← svc.derefPlugin
    match ← plugin.read env pluginId with
    | .ok params =>
      let svc := svc.clearService
      return { svc with params := params }
    | .error _ => return svc

/-- `performServiceCustomRemoval`. -/
def performServiceCustomRemoval (env : Env Text) (svc : AccountService) : M Text Bool := do
  match svc.params[pluginIdParam]? with
  | none => return true
  | some pluginId =>
    let plugin ← svc.derefPlugin
    match ← plugin.remove env pluginId with
    | .ok removed => return removed
    | .error _ => return true

end AccountService

end PxAccounts
