import AutoTune.Lib.DependencyOrder
import AutoTune.Lib.Numerals

/-!
# Loading plugins

Only the plugins that AUTOTUNE_PLUGINS lists load. Each is looked up among the installed packages and
checked against the name and the API version it states, then all of them are put behind those they
require. Whatever is wrong stops the process with a message that says which plugin it is.
-/

namespace AutoTune

open Lib

/-- `PLUGIN_API_VERSION`. -/
def pluginApiVersion : Int := 2

/-- What `load` reads of a plugin. -/
structure Plugin where
  name : String
  apiVersion : Int
  requires : List String := []
deriving DecidableEq, Repr

/-- What importing an entry point gives: an exception, an object of another class, or a plugin. -/
inductive LoadedObject where
  | raised (message : String)
  | other
  | plugin (p : Plugin)
deriving DecidableEq, Repr

/-- An installed entry point: what it points at, and what that is. -/
structure EntryPoint where
  value : String
  loads : LoadedObject
deriving DecidableEq, Repr

/-- Why a plugin cannot be loaded as configured. -/
inductive PluginError where
  | listedTwice (name : String)
  | notInstalled (name : String) (available : List String)
  | failedToImport (name message : String)
  | notAPlugin (name value : String)
  | otherName (name own : String)
  | badName (own : String)
  | otherApi (name : String) (version : Int)
  | missing (name : String) (required : List String)
  | cycle (chain : List String)
deriving DecidableEq, Repr

/-- The message; `quote` is `repr` of a string. -/
def PluginError.text (quote : String → String) : PluginError → String
  | .listedTwice name => "plugin " ++ quote name ++ " is listed twice in AUTOTUNE_PLUGINS"
  | .notInstalled name available =>
      "AUTOTUNE_PLUGINS lists " ++ quote name ++ ", but no installed package provides " ++
        "it (installed plugins: " ++ (if available = [] then "none" else ", ".intercalate available) ++ ")"
  | .failedToImport name message => "plugin " ++ quote name ++ " failed to import: " ++ message
  | .notAPlugin name value =>
      "plugin " ++ quote name ++ " points at " ++ value ++ ", which is not an app.plugins.Plugin"
  | .otherName name own =>
      "plugin " ++ quote name ++ " names itself " ++ quote own ++ "; the entry-point name and " ++
        "Plugin.name must match"
  | .badName own => "plugin name " ++ quote own ++ " must be lowercase letters, digits and underscores"
  | .otherApi name version =>
      "plugin " ++ quote name ++ " was written for plugin API " ++ toString version ++ ", and this " ++
        "platform provides " ++ toString pluginApiVersion ++ ": use a version of the plugin " ++
        "made for this release"
  | .missing name required =>
      "plugin " ++ quote name ++ " requires " ++ ", ".intercalate (required.map quote) ++ ", " ++
        "which AUTOTUNE_PLUGINS does not enable"
  | .cycle chain => "plugins require each other in a cycle: " ++ " -> ".intercalate chain

/-! ## Reading the configuration -/

/-- `_NAME.match`: a dollar also stands before a newline at the end. -/
def isPluginName (name : String) : Bool :=
  let isLower := fun c : Char => 'a' ≤ c && c ≤ 'z'
  match withoutNewline name.toList with
  | [] => false
  | c :: cs => isLower c && cs.length ≤ 39 && cs.all fun c => isLower c || c.isDigit || c == '_'

/-- The checks of `load` on one listed name. -/
def loadEntry (available : List (String × EntryPoint)) (name : String) : Except PluginError Plugin :=
  match dictGet available name with
  | none => .error (.notInstalled name ((available.map Prod.fst).mergeSort fun a b => a ≤ b))
  | some entry =>
      match entry.loads with
      | .raised message => .error (.failedToImport name message)
      | .other => .error (.notAPlugin name entry.value)
      | .plugin p =>
          if p.name ≠ name then .error (.otherName name p.name)
          else if isPluginName p.name = false then .error (.badName p.name)
          else if p.apiVersion ≠ pluginApiVersion then .error (.otherApi name p.apiVersion)
          else .ok p

/-- One turn of the loop of `load`. -/
def loadNext (available : List (String × EntryPoint)) (plugins : List Plugin) (name : String) :
    Except PluginError (List Plugin) :=
  if name ∈ plugins.map Plugin.name then .error (.listedTwice name)
  else (loadEntry available name).map fun p => plugins ++ [p]

/-- `by_name[name]`; the names of loaded plugins are distinct. -/
def pluginNamed (plugins : List Plugin) (name : String) : Option Plugin := plugins.find? fun p => p.name = name

/-- What the plugin of a name requires. -/
def requiredBy (plugins : List Plugin) (name : String) : List String :=
  ((pluginNamed plugins name).map Plugin.requires).getD []

/-- What a plugin requires that is not enabled. -/
def missingOf (plugins : List Plugin) (p : Plugin) : List String :=
  p.requires.filter fun r => r ∉ plugins.map Plugin.name

/-- `_in_dependency_order`. -/
def inDependencyOrder (plugins : List Plugin) : Except PluginError (List Plugin) :=
  match plugins.find? fun p => missingOf plugins p ≠ [] with
  | some p => .error (.missing p.name (missingOf plugins p))
  | none =>
      ((dependencyOrder (requiredBy plugins) (plugins.map Plugin.name)).mapError PluginError.cycle).map fun l =>
        l.filterMap (pluginNamed plugins)

/-- `load`. -/
def loadPlugins (available : List (String × EntryPoint)) (names : List String) :
    Except PluginError (List Plugin) := do
  let plugins ← names.foldlM (loadNext available) []
  inDependencyOrder plugins

end AutoTune
