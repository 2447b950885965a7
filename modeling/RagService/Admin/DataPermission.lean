import RagService.Admin.LoginUser
import RagService.Foundation.Dicts
import RagService.Foundation.Numbers
import RagService.Foundation.Truth

/-!
# Data permissions

`filter_data_permission`: the SQL condition that the data rules of a user build for some
models.  A statement fails when a value is bound that is not of the type of its column.
-/

namespace RagService
namespace Admin

/-!
# Columns

The types of columns by their `python_type`, with the values that a row may have; a time is an
instant, and an item of an array may be `NULL`.  The models of the filter and the constants of
its surroundings are arguments.
-/

inductive ColumnType where
  /-- `int`, of so many bits -/
  | integer (bits : Nat)
  /-- `str` -/
  | string
  /-- `bool` -/
  | boolean
  /-- `float` -/
  | float
  /-- `datetime` -/
  | datetime
  /-- `bytes` -/
  | binary
  /-- `dict` -/
  | json
  /-- `list`, of texts -/
  | array
  /-- A type that does not implement `python_type`, as `UniversalText` -/
  | untyped
  deriving DecidableEq

def ColumnType.Value : ColumnType -> Type
  | integer _ => Int
  | string => Text
  | boolean => Bool
  | float => Double
  | datetime => Int
  | binary => Bytes
  | json => Json
  | array => List (Option Text)
  | untyped => Text

/-- What a model class, an aliased class or a table is to the filter. -/
structure TargetModel where
  /-- `getattr(model, '__name__', str(model))` -/
  name : Text
  /-- The name that its columns have in the statement. -/
  entity : Text
  /-- An `Alias` of a table, which has no `__table__`. -/
  isAlias : Bool
  columns : Dict Text ColumnType

structure PermissionEnv where
  /-- `str(timezone.now)` of the function itself -/
  nowText : Text
  /-- `get_all_models()` -/
  allModels : List TargetModel
  /-- The order of the texts in the database -/
  collation : Text -> Text -> Bool

/-!
# Comparing

What `=` and `<` mean in SQL on the values of a column.  In the database `nan` is the greatest
floating point number, `NULL` is the greatest item of an array, and arrays are compared by
their first difference.
-/

/-- `RoleDataRuleExpressionType`, but for `in_` and `not_in` -/
inductive Comparator where
  | eq
  | ne
  | gt
  | ge
  | lt
  | le
  deriving DecidableEq

inductive RuleExpression where
  | compare (c : Comparator)
  | isIn
  | notIn
  deriving DecidableEq

def RuleExpression.ofNat : Nat -> Option RuleExpression
  | 0 => some (.compare .eq)
  | 1 => some (.compare .ne)
  | 2 => some (.compare .gt)
  | 3 => some (.compare .ge)
  | 4 => some (.compare .lt)
  | 5 => some (.compare .le)
  | 6 => some .isIn
  | 7 => some .notIn
  | _ => none

/-- The order of floating point numbers in the database: `nan` is the greatest. -/
def floatBefore (x y : Double) : Bool :=
  if x = .nan then false
  else if y = .nan then true
  else x.le y && x ≠ y

/-- The order of the items of an array in the database: `NULL` is the greatest. -/
def itemBefore (env : PermissionEnv) : Option Text -> Option Text -> Bool
  | none, _ => false
  | some _, none => true
  | some x, some y => env.collation x y

def arrayBefore (env : PermissionEnv) : List (Option Text) -> List (Option Text) -> Bool
  | _, [] => false
  | [], _ :: _ => true
  | x :: xs, y :: ys => if x = y then arrayBefore env xs ys else itemBefore env x y

namespace ColumnType

/-- `x = y` in SQL; there is no such comparison of JSON. -/
def same : (ty : ColumnType) -> ty.Value -> ty.Value -> Bool
  | integer _ => fun (x y : Int) => decide (x = y)
  | string => fun (x y : Text) => decide (x = y)
  | boolean => fun (x y : Bool) => decide (x = y)
  | float => fun (x y : Double) => decide (x = y)
  | datetime => fun (x y : Int) => decide (x = y)
  | binary => fun (x y : Bytes) => decide (x = y)
  | json => fun _ _ => false
  | array => fun (x y : List (Option Text)) => decide (x = y)
  | untyped => fun (x y : Text) => decide (x = y)

def before (env : PermissionEnv) : (ty : ColumnType) -> ty.Value -> ty.Value -> Bool
  | integer _ => fun (x y : Int) => decide (x < y)
  | string => env.collation
  | boolean => fun (x y : Bool) => !x && y
  | float => floatBefore
  | datetime => fun (x y : Int) => decide (x < y)
  | binary => fun (x y : Bytes) => decide (x < y)
  | json => fun _ _ => false
  | array => arrayBefore env
  | untyped => env.collation

def compare (env : PermissionEnv) (ty : ColumnType) (c : Comparator) (x y : ty.Value) : Bool :=
  match c with
  | .eq => ty.same x y
  | .ne => !ty.same x y
  | .gt => ty.before env y x
  | .ge => ty.before env y x || ty.same x y
  | .lt => ty.before env x y
  | .le => ty.before env x y || ty.same x y

end ColumnType

/-!
# Values

The text of a rule is a template variable or stands for itself, and is then cast by calling the
type of the column.  A `ValueError` or a `TypeError` of the type leaves the text, which may not
be bound to the column: then the statement fails.
-/

inductive Operand where
  | int (z : Int)
  | text (s : Text)
  | bool (b : Bool)
  | float (x : Double)
  | bytes (b : Bytes)
  | dict
  | list (items : List Text)

inductive Argument where
  | text (s : Text)
  | int (n : Nat)
  | none
  | function

def userIdKey : Text :=
  "${user_id}".toList

def deptIdKey : Text :=
  "${dept_id}".toList

def nowKey : Text :=
  "${now}".toList

def templateKeys : List Text :=
  [userIdKey, deptIdKey, nowKey]

/-- `template_resolvers[value]`, or the value itself -/
def resolve (user : UserDetail) (value : Text) : Argument :=
  if value = userIdKey then .int user.id
  else if value = deptIdKey then
    match user.deptId with
    | some deptId => .int deptId
    | none => .none
  else if value = nowKey then .function
  else .text value

/-- `list(s)` -/
def characters (s : Text) : List Text :=
  s.map fun c => [c]

/-- The type called with a value; `none` is a `ValueError` or a `TypeError`. -/
def construct (env : PermissionEnv) : ColumnType -> Argument -> Option Operand
  | .integer _, .text s => (Double.intOfText s).map .int
  | .integer _, .int n => some (.int n)
  | .string, .text s => some (.text s)
  | .string, .int n => some (.text (Text.decimal n))
  | .string, .none => some (.text "None".toList)
  | .string, .function => some (.text env.nowText)
  | .boolean, .text s => some (.bool (!s.isEmpty))
  | .boolean, .int n => some (.bool (n ≠ 0))
  | .boolean, .none => some (.bool false)
  | .boolean, .function => some (.bool true)
  | .float, .text s => (Double.ofText s).map .float
  | .float, .int n => some (.float (Double.ofRat n))
  | .binary, .int n => some (.bytes (List.replicate n 0))
  | .json, .text [] => some .dict
  | .array, .text s => some (.list (characters s))
  | _, _ => none

def castValue (env : PermissionEnv) (user : UserDetail) (ty : ColumnType) (value : Text) :
    Operand :=
  (construct env ty (resolve user value)).getD (.text value)

def InRange (bits : Nat) (z : Int) : Prop :=
  -2 ^ (bits - 1) ≤ z ∧ z < 2 ^ (bits - 1)

instance (bits : Nat) (z : Int) : Decidable (InRange bits z) :=
  inferInstanceAs (Decidable (_ ∧ _))

/-- What a column is compared to when the value is bound; `none` makes the statement fail. -/
def ColumnType.bind : (ty : ColumnType) -> Operand -> Option ty.Value
  | integer bits, .int z => if InRange bits z then some z else none
  | string, .text s => some s
  | boolean, .bool b => some b
  | float, .float x => some x
  | binary, .bytes b => some b
  | array, .list items => some (items.map some)
  | _, _ => none

/-!
# The condition of a rule

A rule compares a column with an operand, or with the list of its parts.  The values of such a
list have the type of the first one.
-/

inductive FilterError where
  /-- `ArgumentError`: an order with `True` or `False` -/
  | argument
  /-- `NotImplementedError`: a column without `python_type` -/
  | notImplemented
  /-- `AttributeError`: an `Alias` has no `__table__` -/
  | attribute
  /-- The statement fails. -/
  | statement
  deriving DecidableEq

/-- A row of the statement: the value of a column of an entity, `none` for `NULL`. -/
abbrev Cells := Text -> Text -> (ty : ColumnType) -> Option ty.Value

abbrev FilterCondition := Condition Cells FilterError

def bound (ty : ColumnType) (operand : Operand) : Except FilterError ty.Value :=
  match ty.bind operand with
  | some v => .ok v
  | none => .error .statement

/-- `column <op> operand` -/
def compareCondition (env : PermissionEnv) (entity column : Text) (ty : ColumnType)
    (c : Comparator) (operand : Operand) : Except FilterError FilterCondition :=
  match operand, c with
  | .bool _, .gt | .bool _, .ge | .bool _, .lt | .bool _, .le => .error .argument
  | _, _ => .ok fun cells => do
      let w ← bound ty operand
      return (cells entity column ty).map fun v => ty.compare env c v w

/-- The values of a list have the type of the first one; an array takes a text for a list. -/
def listOperands : List Operand -> List Operand
  | .list items :: rest =>
      .list items :: rest.map fun operand =>
        match operand with
        | .text s => .list (characters s)
        | _ => operand
  | operands => operands

/-- `column.in_(operands)` -/
def inCondition (env : PermissionEnv) (entity column : Text) (ty : ColumnType)
    (operands : List Operand) : FilterCondition := fun cells => do
  let ws ← (listOperands operands).mapM (bound ty)
  return Truth.any (ws.map fun w => (cells entity column ty).map fun v => ty.compare env .eq v w)

/-- `[cast_value(v.strip()) for v in value.split(',')]` -/
def castValues (env : PermissionEnv) (user : UserDetail) (ty : ColumnType) (value : Text) :
    List Operand :=
  (value.splitOn ',').map fun v => castValue env user ty (Text.strip v)

/-- The condition that a rule builds on a column of its type, if it has an expression. -/
def ruleCondition (env : PermissionEnv) (user : UserDetail) (rule : DataRule)
    (entity column : Text) (ty : ColumnType) : Except FilterError (Option FilterCondition) :=
  match RuleExpression.ofNat rule.expression with
  | some (.compare c) =>
      (compareCondition env entity column ty c (castValue env user ty rule.value)).map some
  | some .isIn =>
      .ok (some (inCondition env entity column ty (castValues env user ty rule.value)))
  | some .notIn =>
      .ok (some fun cells => do
        let t ← inCondition env entity column ty (castValues env user ty rule.value) cells
        return t.not)
  | none => .ok none

/-!
# The condition of all rules

`filter_data_permission` collects the conditions of the rules in two lists, over the models
that each rule is about.
-/

/-- `key.strip('_')` -/
def stripUnderscores (s : Text) : Text :=
  ((s.dropWhile (· = '_')).reverse.dropWhile (· = '_')).reverse

def columnTemplates : List Text :=
  ["__dept_id__".toList, "__created_by__".toList]

/-- `column_template_resolvers.get(column, column)` -/
def ruleColumn (column : Text) : Text :=
  if column ∈ columnTemplates then stripUnderscores column else column

def columnExclude : List Text :=
  ["id".toList, "sort".toList, "deleted".toList, "deleted_time".toList, "created_time".toList,
    "updated_time".toList]

/-- The condition of a rule on one of its target models. -/
def clause (env : PermissionEnv) (user : UserDetail) (rule : DataRule) (target : TargetModel) :
    Except FilterError (Option FilterCondition) :=
  if target.isAlias then .error .attribute
  else
    let column := ruleColumn rule.column
    match target.columns.get column with
    | none => .ok none
    | some ty =>
        if column ∈ columnExclude then .ok none
        else if ty = .untyped then .error .notImplemented
        else ruleCondition env user rule target.entity column ty

/-- The loop over the rules and their target models: `where_and_list` and `where_or_list`. -/
def collect (env : PermissionEnv) (user : UserDetail) :
    List (DataRule × TargetModel) ->
      Except FilterError (List FilterCondition × List FilterCondition)
  | [] => .ok ([], [])
  | (rule, target) :: rest => do
      let condition ← clause env user rule target
      let (whereAnd, whereOr) ← collect env user rest
      match condition with
      | none => return (whereAnd, whereOr)
      | some c =>
          if rule.operator = 0 then return (c :: whereAnd, whereOr)
          else if rule.operator = 1 then return (whereAnd, c :: whereOr)
          else return (whereAnd, whereOr)

def dataRules (user : UserDetail) : List (Row DataRule) :=
  ((user.roles.filter fun role => role.role.value.status ≠ 0).flatMap fun role =>
    (role.scopes.filter fun scope => scope.scope.value.status ≠ 0).flatMap fun scope =>
      scope.rules).dedup

def targetModelMap (env : PermissionEnv) (models : List TargetModel) : Dict Text TargetModel :=
  Dict.ofPairs ((if models = [] then env.allModels else models).map fun m => (m.name, m))

def targetModels (targets : Dict Text TargetModel) (rule : DataRule) : List TargetModel :=
  if rule.model = "__ALL__".toList then targets.values else (targets.get rule.model).toList

def filterDataPermission (env : PermissionEnv) (user : UserDetail) (models : List TargetModel) :
    Except FilterError FilterCondition :=
  if user.isSuperuser then .ok (.const true)
  else if exists role, role ∈ user.roles ∧ role.role.value.status ≠ 0 ∧
      role.role.value.isFilterScopes = false then .ok (.const true)
  else
    let rules := dataRules user
    if rules = [] then .ok (.const false)
    else do
      let targets := targetModelMap env models
      let (whereAnd, whereOr) ← collect env user (rules.flatMap fun rule =>
        (targetModels targets rule.value).map fun target => (rule.value, target))
      let whereList := (if whereAnd.isEmpty then [] else [Condition.conj whereAnd]) ++
        (if whereOr.isEmpty then [] else [Condition.disj whereOr])
      return if whereList.isEmpty then .const true else .disj whereList

end Admin
end RagService
