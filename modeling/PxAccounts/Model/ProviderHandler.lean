import PxAccounts.Model.FileUtils

/-!
# Provider files

The constructor of the provider handler loads the provider files of three directories.  Its result
is the map of providers that the account operations consult.
-/

namespace PxAccounts

variable {Text : Type}

/-- A directory with the order in which `readdir` gives its files. -/
structure Directory (Text : Type) where
  files : StrMap Text
  readdir : List String
  readdir_perm : readdir.Perm files.keys

/-- The extension to look for, which may be given with its dot. -/
def withoutDot (ext : String) : String :=
  match ext.toList with
  | '.' :: rest => String.ofList rest
  | _ => ext

/-- `dirfiles`, for the directory as it is. -/
def Directory.dirfiles (dir : Directory Text) (ext : String) : List String :=
  dir.readdir.filter fun name =>
    (withoutDot ext).isEmpty || FILE.extpart name == withoutDot ext

theorem Directory.dirfiles_eq (env : Env Text) (w : World Text) (path ext : String) :
    FILE.dirfiles env w path ext =
      ({ files := w.files path, readdir := env.readdir (w.files path)
         readdir_perm := env.readdir_perm _ } : Directory Text).dirfiles ext := rfl

namespace ProviderHandler

/-- `node[key]`, where a subscript of an undefined node is undefined again. -/
def subscript (key : String) : Option Node → Except ReadError (Option Node)
  | none => .ok none
  | some node => node.subscript key

/-- The loop over the parameters of a service. -/
def readParams (yaml : YamlCpp Text) (svcName : String) (params : Option Node)
    (plugins : StrMap StrStrMap) : Except ReadError (StrMap StrStrMap) :=
  (Node.iter params).foldlM
    (fun plugins p => do
      let pkey ← yaml.asString p.first
      let pval ← yaml.asString p.second
      return plugins.insert svcName ((plugins.getD svcName ∅).insert pkey pval))
    plugins

/-- The two loops over the services. -/
def readPlugins (yaml : YamlCpp Text) (node : Option Node) (plugins : StrMap StrStrMap) :
    Except ReadError (StrMap StrStrMap) :=
  (Node.iter node).foldlM
    (fun plugins it =>
      (Node.iter it.node).foldlM
        (fun plugins svc => do
          let svcName ← yaml.asString svc.first
          readParams yaml svcName svc.second plugins)
        plugins)
    plugins

/-- The provider in a loaded document. -/
def readProvider (yaml : YamlCpp Text) (root : Node) : Except ReadError ProviderStruct := do
  let title ← yaml.asString (← subscript "title" (← root.subscript "provider"))
  let plugins ← readPlugins yaml (← subscript "plugins" (← root.subscript "provider")) ∅
  return { title, plugins }

/-- `initProvider`, for a file that may not be there. -/
def initProvider (yaml : YamlCpp Text) (file : Option Text) (providers : StrMap ProviderStruct) :
    Bool × StrMap ProviderStruct :=
  match file with
  | none => (false, providers)
  | some text =>
    match yaml.load text with
    | none => (false, providers)
    | some root =>
      match readProvider yaml root with
      | .error _ => (false, providers)
      | .ok provider => (true, providers.insert provider.title provider)

/-- The loop of `init`. -/
def initFiles (yaml : YamlCpp Text) (files : StrMap Text) :
    List String → StrMap ProviderStruct → Bool × StrMap ProviderStruct
  | [], providers => (true, providers)
  | providerName :: names, providers =>
    match initProvider yaml files[providerName]? providers with
    | (false, providers) => (false, providers)
    | (true, providers) => initFiles yaml files names providers

/-- `init`. -/
def init (yaml : YamlCpp Text) (dir : Directory Text) (providers : StrMap ProviderStruct) :
    Bool × StrMap ProviderStruct :=
  initFiles yaml dir.files (dir.dirfiles ".yaml") providers

/-- The providers after the constructor. -/
def construct (yaml : YamlCpp Text) (system app user : Directory Text) : StrMap ProviderStruct :=
  let (_, providers) := init yaml system ∅
  let (_, providers) := init yaml app providers
  let (_, providers) := init yaml user providers
  providers

end ProviderHandler

end PxAccounts
