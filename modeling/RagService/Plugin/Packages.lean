import RagService.Foundation.Dependencies
import RagService.Foundation.Dicts
import RagService.Plugin.Config

/-!
# Plugins

The plugins that are installed, what Redis knows about them, the service that manages
them, and the order in which a start loads them.
-/

namespace RagService
namespace Plugin

open Toml

/-!
# State

The plugins in the order of `os.listdir`, and what Redis has for each of them: a text that may
be no JSON.
-/

/-- A directory with an `__init__.py` in the directory of plugins. -/
structure PluginPackage where
  name : Text
  config : List (Text × Toml)
  files : PluginFiles

/-- What `json.loads` gives for a text in Redis: nothing when it is no JSON. -/
abbrev CachedInfo := Option Json

/-- The plugins in the order of `os.listdir`, and Redis, by the end of a key after the prefix. -/
structure PluginState where
  packages : List PluginPackage
  redis : Text -> Option CachedInfo

structure PluginSettings where
  /-- `ENVIRONMENT` is `dev` -/
  dev : Bool
  pluginRequired : List Text
  rbacRoleMenuMode : Bool

inductive PluginOp where
  | updateStatus (plugin : Text)
  | uninstall (plugin : Text)
  | start
  deriving DecidableEq

inductive StartError where
  | config (e : PluginConfigError)
  /-- `json.dumps` raises `TypeError` -/
  | type
  deriving DecidableEq

inductive PluginServiceError where
  | request (msg : Text)
  | notFound (msg : Text)
  /-- the text in Redis is no information about a plugin -/
  | unreadable

/-- `v[key]` -/
def item (v : Json) (key : String) : Option Json :=
  match v with
  | .obj fields => Json.field fields key.toList
  | _ => none

/-- `str(StatusType.enable.value)` and `str(StatusType.disable.value)` -/
def enableValue : Text := ['1']

def disableValue : Text := ['0']

def getPluginEnable (pluginInfo : Option CachedInfo) (default : Text) : Json :=
  match pluginInfo with
  | some (some v) => ((item v "plugin").bind fun info => item info "enable").getD (.str default)
  | _ => .str default

def isText (v : Json) (s : Text) : Bool :=
  match v with
  | .str s' => s' = s
  | _ => false

namespace PluginState

/-- `get_plugins` -/
def names (st : PluginState) : List Text :=
  st.packages.map PluginPackage.name

def enabled (st : PluginState) (plugin : Text) : Bool :=
  isText (getPluginEnable (st.redis plugin) enableValue) enableValue

def getEnabledPlugins (st : PluginState) : List Text :=
  st.names.filter st.enabled

end PluginState

/-!
# Entries

The entries of the plugins that a start looks at, with the dependencies of their
configurations.
-/

structure PluginEntry where
  name : Text
  dependsOn : Option (List Text)
  extend : Option Text
  routers : Option (List Text)
  api : Option Toml

namespace PluginPackage

def setting (package : PluginPackage) (table key : String) : Option Toml :=
  (field package.config table.toList).bind fun info => info.get key.toList

/-- `plugin_config['plugin'].get('depends_on')` -/
def dependsOn (package : PluginPackage) : Option (List Text) :=
  (package.setting "plugin" "depends_on").map texts

def extendEntry (package : PluginPackage) : PluginEntry where
  name := package.name
  dependsOn := package.dependsOn
  extend := (package.setting "app" "extend").bind text
  routers := none
  api := field package.config "api".toList

def appEntry (package : PluginPackage) : PluginEntry where
  name := package.name
  dependsOn := package.dependsOn
  extend := none
  routers := (package.setting "app" "router").map texts
  api := none

/-- The configuration with the name and the status in its table `plugin`, for `json.dumps`. -/
def info (package : PluginPackage) (enable : Json) : Option Json :=
  match fieldsToJson package.config with
  | none => none
  | some config =>
      match Json.field config "plugin".toList with
      | some (.obj plugin) =>
          let plugin := Json.setField plugin "name".toList (.str package.name)
          let plugin := Json.setField plugin "enable".toList enable
          some (.obj (Json.setField config "plugin".toList (.obj plugin)))
      | _ => none

end PluginPackage

/-- The loop of `parse_plugin_config`. -/
def parsePlugins (isupper : Text -> Bool) : List PluginPackage -> (Text -> Option CachedInfo) ->
    (Text -> Option CachedInfo) × Except StartError (List PluginEntry × List PluginEntry)
  | [], redis => (redis, .ok ([], []))
  | package :: rest, redis =>
      match validatePluginConfig isupper package.name package.config package.files with
      | .error e => (redis, .error (.config e))
      | .ok level =>
          match package.info (getPluginEnable (redis package.name) enableValue) with
          | none => (redis, .error .type)
          | some info =>
              match parsePlugins isupper rest
                (Function.update redis package.name (some (some info))) with
              | (redis, .error e) => (redis, .error e)
              | (redis, .ok (extendPlugins, appPlugins)) =>
                  match level with
                  | .extend => (redis, .ok (package.extendEntry :: extendPlugins, appPlugins))
                  | .app => (redis, .ok (extendPlugins, package.appEntry :: appPlugins))
                  | .capability => (redis, .ok (extendPlugins, appPlugins))

def parsePluginConfig (isupper : Text -> Bool) (st : PluginState) :
    PluginState × Except StartError (List PluginEntry × List PluginEntry) :=
  -- keys of unknown plugins are deleted first, and `changed` last
  match parsePlugins isupper st.packages
    (fun key => if key ∈ st.names then st.redis key else none) with
  | (redis, .error e) => ({ st with redis }, .error e)
  | (redis, .ok entries) =>
      ({ st with redis := Function.update redis "changed".toList none }, .ok entries)

/-!
# Order

A start builds the router from all plugins and then orders the enabled ones for their hooks.
-/

/-- `plugin_map` -/
def pluginGraph (plugins : List PluginEntry) : Dependencies.Graph PluginEntry Text where
  key := PluginEntry.name
  dependsOn := PluginEntry.dependsOn
  find := (Dict.ofPairs (plugins.map fun plugin => (plugin.name, plugin))).get

def orderError : Dependencies.Failure Text -> PluginConfigError
  | .cycle path => .cycle path
  | .missing plugin dependency => .missingDependency plugin dependency
  | .tooDeep => .tooDeep

def resolvePluginOrder (plugins : List PluginEntry) :
    Except PluginConfigError (List PluginEntry) :=
  match (pluginGraph plugins).order plugins with
  | .error e => .error (orderError e)
  | .ok ordered => .ok ordered

def resolved (plugins : List PluginEntry) : Except StartError (List PluginEntry) :=
  match resolvePluginOrder plugins with
  | .error e => .error (.config e)
  | .ok ordered => .ok ordered

def getOrderedEnabledPlugins (isupper : Text -> Bool) (st : PluginState) :
    PluginState × Except StartError (List PluginEntry) :=
  let enabledPlugins := st.getEnabledPlugins
  match parsePluginConfig isupper st with
  | (st, .error e) => (st, .error e)
  | (st, .ok (extendPlugins, appPlugins)) =>
      (st, resolved ((extendPlugins ++ appPlugins).filter fun plugin =>
        plugin.name ∈ enabledPlugins))

def buildFinalRouter (isupper : Text -> Bool) (st : PluginState) :
    PluginState × Except StartError (List PluginEntry) :=
  match parsePluginConfig isupper st with
  | (st, .error e) => (st, .error e)
  | (st, .ok (extendPlugins, appPlugins)) => (st, resolved (extendPlugins ++ appPlugins))

/-- `register_app`: the router is built, and then the hooks of plugins are registered. -/
def start (isupper : Text -> Bool) (st : PluginState) :
    PluginState × Except StartError (List PluginEntry) :=
  match buildFinalRouter isupper st with
  | (st, .error e) => (st, .error e)
  | (st, .ok _) => getOrderedEnabledPlugins isupper st

/-!
# Service

The service of the administration; an operation that is refused changes nothing.
-/

def getRequiredPlugins (settings : PluginSettings) : List Text :=
  if !settings.rbacRoleMenuMode && "casbin_rbac".toList ∉ settings.pluginRequired then
    settings.pluginRequired ++ ["casbin_rbac".toList]
  else
    settings.pluginRequired

/-- The text `true` under the key `changed`. -/
def markChanged (redis : Text -> Option CachedInfo) : Text -> Option CachedInfo :=
  Function.update redis "changed".toList (some (some (.bool true)))

namespace PluginService

def uninstall (settings : PluginSettings) (st : PluginState) (plugin : Text) :
    Except PluginServiceError PluginState :=
  if !settings.dev then .error (.request "禁止在非开发环境下卸载插件".toList)
  else if plugin ∈ getRequiredPlugins settings then
    .error (.request ("插件 ".toList ++ plugin ++ " 为必需插件，禁止卸载".toList))
  else if plugin ∉ st.names then .error (.notFound "插件不存在".toList)
  else
    .ok {
      packages := st.packages.filter fun package => package.name ≠ plugin
      redis := markChanged (Function.update st.redis plugin none) }

def updateStatus (st : PluginState) (plugin : Text) : Except PluginServiceError PluginState :=
  match st.redis plugin with
  | none => .error (.notFound "插件不存在".toList)
  | some (some (.obj fields)) =>
      match Json.field fields "plugin".toList with
      | some (.obj info) =>
          match Json.field info "enable".toList with
          | none => .error .unreadable
          | some enable =>
              let newStatus := if isText enable disableValue then enableValue else disableValue
              let info := Json.setField info "enable".toList (.str newStatus)
              let fields := Json.setField fields "plugin".toList (.obj info)
              .ok { st with
                redis := markChanged (Function.update st.redis plugin (some (some (.obj fields)))) }
      | _ => .error .unreadable
  | some _ => .error .unreadable

end PluginService

def perform (isupper : Text -> Bool) (settings : PluginSettings) (st : PluginState) :
    PluginOp -> PluginState
  | .updateStatus plugin =>
      match PluginService.updateStatus st plugin with
      | .ok st' => st'
      | .error _ => st
  | .uninstall plugin =>
      match PluginService.uninstall settings st plugin with
      | .ok st' => st'
      | .error _ => st
  | .start => (start isupper st).1

def performAll (isupper : Text -> Bool) (settings : PluginSettings) (st : PluginState)
    (ops : List PluginOp) : PluginState :=
  ops.foldl (perform isupper settings) st

end Plugin
end RagService
