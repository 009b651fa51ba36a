import PxAccounts.Model.ProviderHandler

/-!
# Loading of plugins

The constructor of `PluginManager`: the plugin files of the given paths are read into containers,
which are then initiated in the order of the plugin names and registered under the titles that the
plugins give.  Shared libraries and Python modules are what `dlopen` and the import system find.
-/

namespace PxAccounts

variable {Text : Type}

/-- `PluginInfo`. -/
structure PluginInfo where
  name : String
  version : String
  typeStr : String
  type : PluginTypes
  path : String
  infoPath : String
deriving DecidableEq

/-! ## Plugin files -/

namespace PluginContainerBase

/-- The type that a plugin file names, if it is a valid one. -/
def typeOfStr (typeStr : String) : Option PluginTypes :=
  if typeStr == "python" then some .pythonPlugin
  else if typeStr == "cpp" then some .cppPlugin
  else none

/-- The plugin in a loaded document, if it describes one. -/
def readInfo (yaml : YamlCpp Text) (root : Node) (pluginInfoPath : String) :
    Except ReadError (Option PluginInfo) := do
  match ← root.subscript "plugin" with
  | none => return none
  | some plugin =>
    let name ← yaml.asString (← plugin.subscript "name")
    let version ← yaml.asString (← plugin.subscript "version")
    let path ← yaml.asString (← plugin.subscript "path")
    let typeStr ← yaml.asString (← plugin.subscript "type")
    return (typeOfStr typeStr).map fun type =>
      { name, version, typeStr, type, path, infoPath := pluginInfoPath }

/-- `CreateContainer`, for a file that may not be there. -/
def createContainer (yaml : YamlCpp Text) (file : Option Text) (pluginInfoPath : String) :
    Option PluginInfo :=
  match file with
  | none => none
  | some text =>
    match yaml.load text with
    | none => none
    | some root =>
      match readInfo yaml root pluginInfoPath with
      | .error _ => none
      | .ok result => result

end PluginContainerBase

/-! ## Plugins -/

/-- The attributes of an `IPlugin`. -/
structure IPlugin where
  title : String
  autoInit : Bool := false
  maxCount : ℤ := -1
deriving DecidableEq

/-- A shared library, with what its `allocator` makes unless `allocator` or `deleter` is missing. -/
structure CppLibrary where
  instance? : Option IPlugin
deriving DecidableEq

/-- An object of a Python class: what its attributes are cast to, or the exception instead. -/
structure PythonPlugin where
  title : Except String String
  autoInit : Except String Bool
  maxCount : Except String ℤ

/-- A Python module: the object that its class `Plugin` makes, or the exception instead. -/
structure PythonModule where
  plugin : Except String PythonPlugin

/-- What the plugin files refer to. -/
structure PluginHost where
  /-- `dlopen`. -/
  dlopen : String → Option CppLibrary
  /-- The modules that are part of the interpreter, and what a directory of `sys.path` holds under a
  name: nothing, a module that raises when it is executed, or a module. -/
  builtinModule : String → Option PythonModule
  findModule : String → String → Option (Except String PythonModule)

/-- The state of the Python interpreter: `sys.path` and `sys.modules`. -/
structure Interpreter where
  sysPath : List String
  modules : StrMap PythonModule

namespace Interpreter

/-- `importlib.import_module`: a module that was imported before is not looked for again.  Executing
a module is taken to leave `sys.path` alone and to import no module of another plugin. -/
def importModule (host : PluginHost) (py : Interpreter) (moduleName : String) :
    Except String PythonModule × Interpreter :=
  match py.modules[moduleName]? with
  | some m => (.ok m, py)
  | none =>
    let found := (host.builtinModule moduleName).map .ok <|>
      py.sysPath.findSome? fun dir => host.findModule dir moduleName
    match found with
    | none => (.error ("No module named '" ++ moduleName ++ "'"), py)
    | some (.error what) => (.error what, py)
    | some (.ok m) => (.ok m, { py with modules := py.modules.insert moduleName m })

/-- The first lines of the script: the path of the module is moved to the front of `sys.path`. -/
def usePath (py : Interpreter) (modulePath : String) : Interpreter :=
  { py with sysPath := modulePath :: py.sysPath.erase modulePath }

end Interpreter

/-- `package2module`. -/
def PLUGIN.package2module (title : String) : String :=
  String.ofList (title.toList.map fun c => if c = '-' then '_' else c.toLower)

/-- A container that was initiated, with what it holds. -/
inductive InitedPlugin
  | cpp (library : CppLibrary)
  | python (plugin : PythonPlugin)

namespace InitedPlugin

/-- `DLGetInstance()->`. -/
def derefInstance (library : CppLibrary) : Except Exn IPlugin :=
  match library.instance? with
  | some plugin => .ok plugin
  | none => .error (.undefined "DLGetInstance() is null")

/-- `_plugin.attr(..).cast`. -/
def castAttr {α : Type} (attr : Except String α) : Except Exn α := attr.mapError .std

/-- `getTitle`. -/
def getTitle : InitedPlugin → Except Exn String
  | .cpp library => return (← derefInstance library).title
  | .python plugin => castAttr plugin.title

/-- `autoInitialize`. -/
def autoInitialize : InitedPlugin → Except Exn Bool
  | .cpp library => return (← derefInstance library).autoInit
  | .python plugin => castAttr plugin.autoInit

/-- `maxInstanceCount`. -/
def maxInstanceCount : InitedPlugin → Except Exn ℤ
  | .cpp library => return (← derefInstance library).maxCount
  | .python plugin => castAttr plugin.maxCount

end InitedPlugin

/-- `PluginContainerCpp::init`. -/
def PluginContainerCpp.init (host : PluginHost) (info : PluginInfo) : Option InitedPlugin :=
  (host.dlopen info.path).map .cpp

/-- `PluginContainerPython::init`.  Without a path the script fails at `module_path`. -/
def PluginContainerPython.init (host : PluginHost) (info : PluginInfo) (py : Interpreter) :
    Option InitedPlugin × Interpreter :=
  if info.path.isEmpty then
    (none, py)
  else
    match (py.usePath info.path).importModule host (PLUGIN.package2module info.name) with
    | (.error _, py) => (none, py)
    | (.ok m, py) => (m.plugin.toOption.map .python, py)

namespace PluginManager

/-- A registered container. -/
structure LoadedPlugin where
  info : PluginInfo
  plugin : InitedPlugin

/-- The container as the account operations see it. -/
def LoadedPlugin.container (p : LoadedPlugin) : Except Exn PluginContainer := do
  let title ← p.plugin.getTitle
  let maxInstanceCount ← p.plugin.maxInstanceCount
  let autoInitialize ← p.plugin.autoInitialize
  return { type := p.info.type, title, autoInitialize, maxInstanceCount }

/-! ## The constructor -/

/-- `readPathPlugins`. -/
def readPathPlugins (yaml : YamlCpp Text) (dir : Directory Text) (path : String) :
    List PluginInfo :=
  (dir.dirfiles ".yaml").filterMap fun pluginFile =>
    PluginContainerBase.createContainer yaml dir.files[pluginFile]? (path ++ "/" ++ pluginFile)

/-- The loop over the paths: of the containers with one name the last is kept. -/
def readPlugins (yaml : YamlCpp Text) (dirs : String → Directory Text) (pluginPaths : List String) :
    StrMap PluginInfo :=
  pluginPaths.foldl
    (fun plugins path => (readPathPlugins yaml (dirs path) path).foldl
      (fun plugins p => plugins.insert p.name p) plugins)
    ∅

/-- `init`. -/
def initContainer (host : PluginHost) (info : PluginInfo) (py : Interpreter) :
    Option InitedPlugin × Interpreter :=
  match info.type with
  | .pythonPlugin => PluginContainerPython.init host info py
  | .cppPlugin => (PluginContainerCpp.init host info, py)

/-- The registered plugins, with the interpreter that Python plugins run in. -/
structure State where
  plugins : StrMap LoadedPlugin
  py : Interpreter

/-- The turn of `initPlugins` for one container.  The message about the new plugin asks it for its
title and its other attributes. -/
def initPlugin (host : PluginHost) (s : State) (kv : String × PluginInfo) : Except Exn State :=
  match initContainer host kv.2 s.py with
  | (none, py) => return { s with py }
  | (some plugin, py) => do
    let container ← (LoadedPlugin.mk kv.2 plugin).container
    return { plugins := s.plugins.insert container.title ⟨kv.2, plugin⟩, py }

/-- `initPlugins`. -/
def initPlugins (host : PluginHost) (py : Interpreter) (plugins : StrMap PluginInfo) :
    Except Exn State :=
  plugins.toList.foldlM (initPlugin host) { plugins := ∅, py }

/-- The constructor, once the paths are known; `py` is the interpreter that it starts. -/
def construct (host : PluginHost) (yaml : YamlCpp Text) (dirs : String → Directory Text)
    (pluginPaths : List String) (py : Interpreter) : Except Exn State :=
  initPlugins host py (readPlugins yaml dirs pluginPaths)

/-- The loop of `operator[]`. -/
def find (pluginName : String) : List (String × LoadedPlugin) → Except Exn (Option LoadedPlugin)
  | [] => return none
  | kv :: rest => do
    if (← kv.2.plugin.getTitle) == pluginName then
      return some kv.2
    else
      find pluginName rest

/-- `operator[]`. -/
def subscript (s : State) (pluginName : String) : Except Exn (Option LoadedPlugin) :=
  find pluginName s.plugins.toList

end PluginManager

end PxAccounts
