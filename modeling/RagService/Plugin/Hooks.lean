import RagService.Common.Lifespan
import RagService.Plugin.Packages

/-!
# Hooks of plugins

The modules `hooks` of the enabled plugins, in the order of their dependencies: their
lifespans are registered and their setups run when the application is made.
-/

namespace RagService
namespace Plugin

variable {ι Exn : Type}

inductive HookAttr (α : Type) where
  | missing
  | notCallable
  | callable (hook : α)

/-- A module `hooks`; a setup that is called returns or raises. -/
structure HookModule (ι Exn : Type) where
  lifespan : HookAttr ι
  setup : HookAttr (Except Exn Unit)

inductive HookError where
  | start (e : StartError)
  /-- a `PluginInjectError` with its message -/
  | inject (msg : Text)

def registerPluginLifespanHook [DecidableEq ι] (m : LifespanManager ι)
    (module : HookModule ι Exn) : LifespanManager ι :=
  match module.lifespan with
  | .callable hook => m.register hook .plugin
  | .missing | .notCallable => m

def runPluginSetupHook (module : HookModule ι Exn) : Except Exn Unit :=
  match module.setup with
  | .callable out => out
  | .missing | .notCallable => .ok ()

/-- A plugin whose module is not there, or cannot be imported, is left out. -/
def getPluginHookModules (modules : Text -> Option (HookModule ι Exn))
    (plugins : List PluginEntry) : List (Text × HookModule ι Exn) :=
  plugins.filterMap fun plugin => (modules plugin.name).map fun module => (plugin.name, module)

def runSetupHooks [DecidableEq ι] (str : Exn -> Text) :
    List (Text × HookModule ι Exn) -> LifespanManager ι -> Except HookError (LifespanManager ι)
  | [], m => .ok m
  | (plugin, module) :: rest, m =>
      match runPluginSetupHook module with
      | .error e =>
          .error (.inject ("插件 ".toList ++ plugin ++ " setup hooks 执行失败：".toList ++ str e))
      | .ok _ => runSetupHooks str rest (registerPluginLifespanHook m module)

def registerPluginHooks [DecidableEq ι] (isupper : Text -> Bool) (str : Exn -> Text)
    (modules : Text -> Option (HookModule ι Exn)) (st : PluginState) (m : LifespanManager ι) :
    PluginState × Except HookError (LifespanManager ι) :=
  match getOrderedEnabledPlugins isupper st with
  | (st, .error e) => (st, .error (.start e))
  | (st, .ok plugins) => (st, runSetupHooks str (getPluginHookModules modules plugins) m)

/-- `lifespan_manager` before the hooks of plugins: `register_init` is registered. -/
def coreLifespans [DecidableEq ι] (registerInit : ι) : LifespanManager ι :=
  LifespanManager.empty.register registerInit .core

end Plugin
end RagService
