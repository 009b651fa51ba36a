import PxAccounts.Model.World

/-!
# Plugin containers

How `PluginContainerCpp` and `PluginContainerPython` pass on what a plugin does.  The Python container
turns a Python exception in `verify` or `authenticate` into a refusal; everything else that a plugin
raises leaves the container as a `std::exception`.  `read`, `write` and `remove` give the message of
that exception as an `Except`, since each of their callers catches it.
-/

namespace PxAccounts

variable {Text : Type}

namespace PluginContainer

/-- `verify`. -/
def verify (env : Env Text) (plugin : PluginContainer) (params : StrStrMap) :
    M Text VerifyResult := do
  match ← env.callVerify plugin params with
  | .returned result => return result
  | .raised what => throw (.std what)
  | .errorAlreadySet what =>
    match plugin.type with
    | .pythonPlugin => return { verified := false, errors := [what] }
    | .cppPlugin => throw (.std what)

/-- `authenticate`. -/
def authenticate (env : Env Text) (plugin : PluginContainer) (params : ServiceParamList) :
    M Text AuthResult := do
  match ← env.callAuthenticate plugin params with
  | .returned result => return result
  | .raised what => throw (.std what)
  | .errorAlreadySet what =>
    match plugin.type with
    | .pythonPlugin => return { authenticated := false, errors := [what] }
    | .cppPlugin => throw (.std what)

/-- What a container makes of the answer of a method that a plugin may leave out. -/
def optionalResult {α : Type} (plugin : PluginContainer) (notFound : String) :
    Option (Answer α) → Except String α
  | some (.returned a) => .ok a
  | some (.errorAlreadySet what) => .error what
  | some (.raised what) => .error what
  | none =>
    match plugin.type with
    | .pythonPlugin => .error notFound
    | .cppPlugin => .error "not implemented"

/-- `read`. -/
def read (env : Env Text) (plugin : PluginContainer) (id : String) :
    M Text (Except String StrStrMap) := do
  return plugin.optionalResult "read not found" (← env.callRead plugin id)

/-- `write`. -/
def write (env : Env Text) (plugin : PluginContainer) (vResult : VerifyResult)
    (aResult : AuthResult) : M Text (Except String String) := do
  return plugin.optionalResult "write not found" (← env.callWrite plugin vResult aResult)

/-- `remove`. -/
def remove (env : Env Text) (plugin : PluginContainer) (id : String) :
    M Text (Except String Bool) := do
  return plugin.optionalResult "remove not found" (← env.callRemove plugin id)

end PluginContainer

end PxAccounts
