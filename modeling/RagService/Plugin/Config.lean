import RagService.Foundation.Json

/-!
# Plugin configurations

`plugin.toml` as `rtoml` reads it, and its validation: the schema of each level of
plugins, the dependencies, and the SQL scripts.
-/

namespace RagService
namespace Plugin

inductive Toml where
  | str (s : Text)
  | int (z : Int)
  | float (literal : Text)
  | bool (b : Bool)
  /-- a date, a time of day, or both -/
  | date
  | arr (items : List Toml)
  | table (fields : List (Text × Toml))

namespace Toml

def field (fields : List (Text × Toml)) (key : Text) : Option Toml :=
  (fields.find? fun f => f.1 = key).map Prod.snd

/-- `v.get(key)` of a table -/
def get (v : Toml) (key : Text) : Option Toml :=
  match v with
  | table fields => field fields key
  | _ => none

def text : Toml -> Option Text
  | str s => some s
  | _ => none

def texts : Toml -> List Text
  | arr items => items.filterMap text
  | _ => []

mutual

/-- The value for `json.dumps`, which refuses dates. -/
def toJson : Toml -> Option Json
  | str s => some (.str s)
  | int z => some (.int z)
  | float literal => some (.float literal)
  | bool b => some (.bool b)
  | date => none
  | arr items => (itemsToJson items).map .arr
  | table fields => (fieldsToJson fields).map .obj

def itemsToJson : List Toml -> Option (List Json)
  | [] => some []
  | v :: vs => do
      let v ← toJson v
      let vs ← itemsToJson vs
      some (v :: vs)

def fieldsToJson : List (Text × Toml) -> Option (List (Text × Json))
  | [] => some []
  | (key, v) :: rest => do
      let v ← toJson v
      let rest ← fieldsToJson rest
      some ((key, v) :: rest)

end

/-!
# Checks

The checks of values, as the schemas of `pydantic` make them.
-/

def isStr (least : Nat) (greatest : Option Nat) : Toml -> Bool
  | str s => least ≤ s.length && greatest.all fun n => s.length ≤ n
  | _ => false

def isStrThat (accepts : Text -> Bool) : Toml -> Bool
  | str s => accepts s
  | _ => false

/-- `list[str]` with a least length, of which a validator accepts each item -/
def isStrList (least : Nat) (accepts : Text -> Bool) : Toml -> Bool
  | arr items => least ≤ items.length && items.all (isStrThat accepts)
  | _ => false

def required (fields : List (Text × Toml)) (key : String) (check : Toml -> Bool) : Bool :=
  (field fields key.toList).any check

def optional (fields : List (Text × Toml)) (key : String) (check : Toml -> Bool) : Bool :=
  (field fields key.toList).all check

end Toml

open Toml

/-!
# Patterns

The regular expressions of the validators; `$` also matches before a line break at the end.
-/

/-- `$`: the end, or a line break at the end -/
def atEnd (s : Text) : Bool :=
  s = [] || s = ['\n']

/-- `\d+` -/
def dropDigits (s : Text) : Option Text :=
  match s.takeWhile Text.isDecimal with
  | [] => none
  | digits => some (s.drop digits.length)

def dropDot : Text -> Option Text
  | '.' :: rest => some rest
  | _ => none

/-- `^\d+\.\d+\.\d+$` -/
def matchesVersion (s : Text) : Bool :=
  ((dropDigits s).bind dropDot |>.bind dropDigits |>.bind dropDot |>.bind dropDigits).any atEnd

def isWordCharacter (c : Char) : Bool :=
  c.isAlphanum || c = '_'

/-- `^[a-zA-Z_][a-zA-Z0-9_]*$` -/
def matchesApiName : Text -> Bool
  | c :: rest => (c.isAlpha || c = '_') && atEnd (rest.dropWhile isWordCharacter)
  | [] => false

def matchesPrefix : Text -> Bool
  | '/' :: rest => atEnd (rest.dropWhile fun c => isWordCharacter c || c = '/' || c = '-')
  | _ => false

/-!
# Schemas

The schemas of the three levels of plugins, of which only that of capability plugins forbids
other keys.
-/

def validTags : List Text :=
  ["ai", "mcp", "agent", "auth", "storage", "notification", "task", "payment", "other"].map
    String.toList

def validDatabases : List Text :=
  ["mysql", "postgresql"].map String.toList

def acceptsPluginInfo (database : List (Text × Toml) -> Bool) : Toml -> Bool
  | table fields =>
      optional fields "icon" (isStr 0 none) &&
      required fields "summary" (isStr 1 (some 100)) &&
      required fields "version" (isStrThat matchesVersion) &&
      required fields "description" (isStr 1 (some 500)) &&
      required fields "author" (isStr 1 (some 50)) &&
      required fields "tags" (isStrList 1 fun tag => tag ∈ validTags) &&
      database fields &&
      optional fields "depends_on" (isStrList 0 fun dep => dep ≠ [])
  | _ => false

def PluginInfoSchema : Toml -> Bool :=
  acceptsPluginInfo fun fields =>
    required fields "database" (isStrList 1 fun database => database ∈ validDatabases)

def CapabilityPluginInfoSchema : Toml -> Bool :=
  acceptsPluginInfo fun fields =>
    optional fields "database" (isStrList 0 fun database => database ∈ validDatabases)

def AppPluginAppSchema : Toml -> Bool
  | table fields => required fields "router" (isStrList 1 fun router => router ≠ [])
  | _ => false

def ExtendPluginAppSchema : Toml -> Bool
  | table fields => required fields "extend" (isStr 1 none)
  | _ => false

def ApiConfigSchema : Toml -> Bool
  | table fields =>
      required fields "prefix" (isStrThat matchesPrefix) && required fields "tags" (isStr 1 none)
  | _ => false

/-- `validate_api_config`, and the schema of each interface -/
def validateApiConfig : Toml -> Bool
  | table fields =>
      fields ≠ [] && fields.all fun f => matchesApiName f.1 && ApiConfigSchema f.2
  | _ => false

def isSetting : Toml -> Bool
  | .str _ | .int _ | .float _ | .bool _ => true
  | .arr items => items.all (isStrThat fun _ => true)
  | .date | .table _ => false

/-- `_validate_settings`; `isupper` is `str.isupper`. -/
def validateSettings (isupper : Text -> Bool) : Toml -> Bool
  | table fields => fields.all fun f => isupper f.1 && isSetting f.2
  | _ => false

def AppPluginConfigSchema (isupper : Text -> Bool) (config : List (Text × Toml)) : Bool :=
  required config "plugin" PluginInfoSchema &&
  required config "app" AppPluginAppSchema &&
  optional config "settings" (validateSettings isupper)

def ExtendPluginConfigSchema (isupper : Text -> Bool) (config : List (Text × Toml)) : Bool :=
  required config "plugin" PluginInfoSchema &&
  required config "app" ExtendPluginAppSchema &&
  required config "api" validateApiConfig &&
  optional config "settings" (validateSettings isupper)

/-- The only schema that forbids other keys. -/
def CapabilityPluginConfigSchema (isupper : Text -> Bool) (config : List (Text × Toml)) : Bool :=
  required config "plugin" CapabilityPluginInfoSchema &&
  optional config "settings" (validateSettings isupper) &&
  config.all fun f => f.1 = "plugin".toList || f.1 = "settings".toList

/-!
# Validation

A configuration is validated with the files of the plugin and the name of its directory.
-/

inductive PluginLevelType where
  | extend
  | app
  | capability
  deriving DecidableEq

inductive PluginConfigError where
  /-- the schema refuses the configuration -/
  | schema (plugin : Text)
  | dependsOnItself (plugin : Text)
  | undeclaredDatabase (plugin : Text)
  /-- for each database, the scripts that are missing -/
  | missingSql (plugin : Text) (missing : List (Text × List Text))
  | cycle (path : List Text)
  | missingDependency (plugin dependency : Text)
  /-- the recursion gets deeper than the number of plugins -/
  | tooDeep
  deriving DecidableEq

/-- The text of the error; what `pydantic` says about a schema is left out. -/
def PluginConfigError.message : PluginConfigError -> Text
  | schema plugin => "插件 ".toList ++ plugin ++ " 配置校验失败: ".toList
  | dependsOnItself plugin => "插件 ".toList ++ plugin ++ " 不能依赖自身".toList
  | undeclaredDatabase plugin =>
      "插件 ".toList ++ plugin ++ " 包含 model 目录时必须声明支持的数据库".toList
  | missingSql plugin missing =>
      "插件 ".toList ++ plugin ++
        " 必须至少提供一种数据库的初始化和销毁 SQL 脚本，当前缺失: ".toList ++
        Text.join "; ".toList (missing.map fun (database, files) =>
          database ++ ": ".toList ++ Text.join ", ".toList files)
  | cycle path => "插件存在循环依赖: ".toList ++ Text.join " -> ".toList path
  | missingDependency plugin dependency =>
      "插件 ".toList ++ plugin ++ " 依赖插件 ".toList ++ dependency ++ "，但插件 ".toList ++
        dependency ++ " 不存在".toList
  | tooDeep => []

structure PluginFiles where
  modelDir : Bool
  /-- the paths of the scripts from the directory of the plugin -/
  sqlFiles : List Text
  deriving DecidableEq

def requiredSqlFiles (database : Text) : List Text :=
  ["init.sql", "destroy.sql", "init_snowflake.sql", "destroy_snowflake.sql"].map fun file =>
    "sql/".toList ++ database ++ "/".toList ++ file.toList

def missingSqlFiles (files : PluginFiles) (database : Text) : List Text :=
  (requiredSqlFiles database).filter fun file => file ∉ files.sqlFiles

def pluginSchema (isupper : Text -> Bool) (config : List (Text × Toml)) :
    (List (Text × Toml) -> Bool) × PluginLevelType :=
  if (field config "api".toList).isSome then (ExtendPluginConfigSchema isupper, .extend)
  else if (field config "app".toList).isSome then (AppPluginConfigSchema isupper, .app)
  else (CapabilityPluginConfigSchema isupper, .capability)

def validatePluginConfig (isupper : Text -> Bool) (pluginName : Text)
    (config : List (Text × Toml)) (files : PluginFiles) :
    Except PluginConfigError PluginLevelType :=
  let listed (key : String) : List Text :=
    (((field config "plugin".toList).bind fun info => info.get key.toList).map texts).getD []
  if !(pluginSchema isupper config).1 config then .error (.schema pluginName)
  else if pluginName ∈ listed "depends_on" then .error (.dependsOnItself pluginName)
  else if files.modelDir then
    if listed "database" = [] then .error (.undeclaredDatabase pluginName)
    else if validDatabases.all fun database => missingSqlFiles files database ≠ [] then
      .error (.missingSql pluginName
        (validDatabases.map fun database => (database, missingSqlFiles files database)))
    else .ok (pluginSchema isupper config).2
  else .ok (pluginSchema isupper config).2

end Plugin
end RagService
