import RagService.Foundation.Dicts
import RagService.Foundation.Numbers
import RagService.Foundation.Tables

/-!
# Dynamic settings

The settings of the process, and the loaders that assign the values of the configuration rows
to them.
-/

namespace RagService
namespace DynamicConfig

abbrev Settings := Text -> Json

inductive ConfigError where
  /-- `ImportError` -/
  | import (msg : Text)
  /-- the query raises -/
  | database
  /-- `ValueError` -/
  | value
  deriving DecidableEq

inductive ConfigType where
  | ai
  | email
  | userSecurity
  | login
  deriving DecidableEq

def ConfigType.value : ConfigType -> Text
  | ai => "AI".toList
  | email => "EMAIL".toList
  | userSecurity => "USER_SECURITY".toList
  | login => "LOGIN".toList

structure Config where
  type : Option Text
  key : Text
  value : Text
  deriving DecidableEq

/-- What a call finds: the files of the plugin and the rows, if they can be read. -/
structure ConfigState where
  installed : Bool
  importable : Bool
  rows : Except ConfigError (Table Config)

/-- `config_dao.get_all` -/
def getAll (rows : Table Config) (type : Text) : List Config :=
  (rows.filter fun row => row.deleted = 0 && row.value.type = some type).map Row.value

/-!
# Converters

What the values of rows are converted with: `int` and `str_to_bool`.
-/

abbrev Converter := Text -> Except ConfigError Json

def toInt : Converter := fun value =>
  match Double.intOfText value with
  | some z => .ok (.int z)
  | none => .error .value

def strToBool : Converter := fun value =>
  .ok (.bool (value = "true".toList))

/-!
# Loading

`load_config` makes a dictionary of the rows and assigns the settings in the order of the
mapping.  A converter may raise after some settings have been assigned.
-/

/-- The first part of `load_config`: the rows as a dictionary, none when nothing is to be done. -/
def dynamicConfigs (state : ConfigState) (configType : ConfigType) (statusKey : Text) :
    Except ConfigError (Option (Dict Text Text)) :=
  if !state.installed then .ok none
  else if !state.importable then
    .error (.import "参数配置插件用法导入失败，请联系系统管理员".toList)
  else
    match state.rows with
    | .error e => .error e
    | .ok rows =>
        let dynamicConfig := getAll rows configType.value
        if dynamicConfig.isEmpty then .ok none
        else
          let configs := Dict.ofPairs (dynamicConfig.map fun dc => (dc.key, dc.value))
          if (configs.get statusKey).getD ['1'] = ['0'] then .ok none else .ok (some configs)

def assignConfigs (configs : Dict Text Text) :
    List (Text × Converter) -> Settings -> Settings × Except ConfigError Unit
  | [], settings => (settings, .ok ())
  | (configKey, converter) :: rest, settings =>
      match configs.get configKey with
      | none => assignConfigs configs rest settings
      | some value =>
          match converter value with
          | .error e => (settings, .error e)
          | .ok x => assignConfigs configs rest (Function.update settings configKey x)

def loadConfig (state : ConfigState) (configType : ConfigType)
    (mapping : List (Text × Converter)) (statusKey : Text) (settings : Settings) :
    Settings × Except ConfigError Unit :=
  match dynamicConfigs state configType statusKey with
  | .error e => (settings, .error e)
  | .ok none => (settings, .ok ())
  | .ok (some configs) => assignConfigs configs mapping settings

inductive Loader where
  | userSecurity
  | login
  deriving DecidableEq

namespace Loader

def configType : Loader -> ConfigType
  | userSecurity => .userSecurity
  | login => .login

def mapping : Loader -> List (Text × Converter)
  | userSecurity =>
      [("USER_LOCK_THRESHOLD".toList, toInt),
        ("USER_LOCK_SECONDS".toList, toInt),
        ("USER_PASSWORD_EXPIRY_DAYS".toList, toInt),
        ("USER_PASSWORD_REMINDER_DAYS".toList, toInt),
        ("USER_PASSWORD_HISTORY_CHECK_COUNT".toList, toInt),
        ("USER_PASSWORD_MIN_LENGTH".toList, toInt),
        ("USER_PASSWORD_MAX_LENGTH".toList, toInt),
        ("USER_PASSWORD_REQUIRE_SPECIAL_CHAR".toList, strToBool)]
  | login => [("LOGIN_CAPTCHA_ENABLED".toList, strToBool)]

def statusKey : Loader -> Text
  | userSecurity => "USER_SECURITY_CONFIG_STATUS".toList
  | login => "LOGIN_CONFIG_STATUS".toList

/-- `load_user_security_config` and `load_login_config` -/
def load (loader : Loader) (state : ConfigState) (settings : Settings) :
    Settings × Except ConfigError Unit :=
  loadConfig state loader.configType loader.mapping loader.statusKey settings

end Loader

def afterCalls (settings : Settings) (calls : List (Loader × ConfigState)) : Settings :=
  calls.foldl (fun settings call => (call.1.load call.2 settings).1) settings

end DynamicConfig
end RagService
