import RagService.Admin.LoginUser

/-!
# Requests on users and their rights

The services for users, roles, menus, departments, data scopes and data rules.  Each
request commits a database and clears the keys of some users, or raises and changes
nothing.  The id of a new row is an argument; password and captcha checks are outcomes.
-/

namespace RagService
namespace Admin

structure Committed where
  db : AdminDb
  cleared : List Nat

abbrev Outcome := Except AdminError Committed

/-- The row, or `errors.NotFoundError`. -/
def found {α : Type} (row : Option α) (msg : Text) : Except AdminError α :=
  match row with
  | some row => .ok row
  | none => .error (.notFound msg)

def refuse (check : Bool) (e : AdminError) : Except AdminError Unit :=
  if check then .error e else .ok ()

/-- The rows have these ids, as sets. -/
def sameIds {α : Type} (rows : List (Row α)) (ids : List Nat) : Bool :=
  rows.all (fun row => row.id ∈ ids) && ids.all fun id => id ∈ rows.map Row.id

/-- The id, when it is truthy. -/
def truthy (id : Option Nat) : Option Nat :=
  id.filter (· ≠ 0)

def roleIds (db : AdminDb) (roles : List Nat) : List Nat :=
  (db.roles.getAllByIds roles).map Row.id

namespace UserService

def emailBound (db : AdminDb) (email : Option Text) : Bool :=
  match email with
  | some email => !email.isEmpty && (db.users.getBy fun u => u.email = some email).isSome
  | none => false

def checkRoles (db : AdminDb) (roles : List Nat) : Except AdminError Unit :=
  refuse (!roles.isEmpty && !sameIds (db.roles.getAllByIds roles) roles)
    (.notFound "角色不存在".toList)

def create (db : AdminDb) (newId : Nat) (obj : AddUserParam) : Outcome := do
  refuse (db.users.getBy fun u => u.username = obj.username).isSome
    (.conflict "用户名已注册".toList)
  refuse (emailBound db obj.email) (.conflict "邮箱已被绑定".toList)
  refuse obj.password.isEmpty (.request "密码不允许为空".toList)
  let _ ← found (db.depts.get obj.deptId) "部门不存在".toList
  checkRoles db obj.roles
  return {
    db := { db with
      users := db.users.create newId obj.user
      userRole := db.userRole ++ (roleIds db obj.roles).map fun roleId => (newId, roleId) }
    cleared := [] }

def update (db : AdminDb) (pk : ℕ+) (obj : UpdateUserParam) : Outcome := do
  let user ← found (db.users.get pk) "用户不存在".toList
  refuse (obj.username ≠ user.value.username &&
    (db.users.getBy fun u => u.username = obj.username).isSome) (.conflict "用户名已注册".toList)
  refuse (obj.email.join ≠ user.value.email && emailBound db obj.email.join)
    (.conflict "邮箱已被绑定".toList)
  refuse ((truthy obj.deptId.join).any fun deptId =>
    user.value.deptId ≠ some deptId && (db.depts.get deptId).isNone)
    (.notFound "部门不存在".toList)
  checkRoles db obj.roles
  return {
    db := { db with
      users := db.users.update [user.id] obj.apply
      userRole := db.userRole.relink user.id (roleIds db obj.roles) }
    cleared := [user.id] }

def updatePermission (db : AdminDb) (requestUser : RequestUser) (pk : Nat)
    (type : UserPermissionType) : Outcome := do
  let user ← found (db.users.get pk) "用户不存在".toList
  match type with
  | .superuser =>
      refuse (pk = requestUser.id) (.forbidden "禁止修改自身权限".toList)
      return {
        db := { db with users := db.users.update [pk] fun u =>
          { u with isSuperuser := !user.value.isSuperuser } }
        cleared := [user.id] }
  | .staff =>
      refuse (pk = requestUser.id) (.forbidden "禁止修改自身权限".toList)
      return {
        db := { db with users := db.users.update [pk] fun u =>
          { u with isStaff := !user.value.isStaff } }
        cleared := [user.id] }
  | .status =>
      refuse (pk = requestUser.id) (.forbidden "禁止修改自身权限".toList)
      return {
        db := { db with users := db.users.update [pk] fun u =>
          { u with status := if user.value.status = 1 then 0 else 1 } }
        cleared := [user.id] }
  | .multiLogin =>
      let multiLogin := if pk ≠ user.id then user.value.isMultiLogin else requestUser.isMultiLogin
      return {
        db := { db with users := db.users.update [pk] fun u =>
          { u with isMultiLogin := !multiLogin } }
        cleared := [user.id] }

def resetPassword (db : AdminDb) (pk : Nat) (validated : Except AdminError Unit) : Outcome := do
  let user ← found (db.users.get pk) "用户不存在".toList
  validated
  return { db := db, cleared := [user.id] }

def updateNickname (db : AdminDb) (userId : Nat) (nickname : Text) : Outcome :=
  .ok {
    db := { db with users := db.users.update [userId] fun u => { u with nickname := nickname } }
    cleared := [userId] }

def updateAvatar (db : AdminDb) (userId : Nat) (avatar : Text) : Outcome :=
  .ok {
    db := { db with users := db.users.update [userId] fun u => { u with avatar := some avatar } }
    cleared := [userId] }

/-- `captchaCode` is the code in Redis for the address of the request, or empty. -/
def updateEmail (db : AdminDb) (captchaCode : Text) (userId : Nat) (captcha email : Text) :
    Outcome := do
  refuse captchaCode.isEmpty (.request "验证码已失效，请重新获取".toList)
  refuse (captcha ≠ captchaCode) (.custom 40001 "error.captcha.error".toList)
  refuse ((db.users.getBy fun u => u.email = some email).any fun user => user.id ≠ userId)
    (.conflict "邮箱已被绑定".toList)
  return {
    db := { db with users := db.users.update [userId] fun u => { u with email := some email } }
    cleared := [userId] }

/-- `changed` is what becomes of the password and its history. -/
def updatePassword (db : AdminDb) (userId : Nat) (changed : Except AdminError Unit) :
    Outcome := do
  changed
  return { db := db, cleared := [userId] }

def delete (db : AdminDb) (pk : Nat) : Outcome := do
  let user ← found (db.users.get pk) "用户不存在".toList
  return {
    db := { db with
      users := db.users.delete [user.id]
      userRole := db.userRole.relink user.id [] }
    cleared := [user.id] }

end UserService

namespace RoleService

def nameTaken (db : AdminDb) (name : Text) : Bool :=
  (db.roles.getBy fun role => role.name = name).isSome

def create (db : AdminDb) (newId : Nat) (obj : Role) : Outcome := do
  refuse (nameTaken db obj.name) (.conflict "角色已存在".toList)
  return { db := { db with roles := db.roles.create newId obj }, cleared := [] }

def update (db : AdminDb) (pk : Nat) (obj : UpdateRoleParam) : Outcome := do
  let role ← found (db.roles.get pk) "角色不存在".toList
  refuse (role.value.name ≠ obj.name && nameTaken db obj.name) (.conflict "角色已存在".toList)
  let db := { db with roles := db.roles.update [pk] obj.apply }
  return { db := db, cleared := UserCacheManager.clearByRoleId db [pk] }

def updateRoleMenu (db : AdminDb) (pk : Nat) (menus : List Nat) : Outcome := do
  let _ ← found (db.roles.get pk) "角色不存在".toList
  refuse (!menus.isEmpty && !sameIds (db.menus.getAllByIds menus) menus)
    (.notFound "菜单不存在".toList)
  let db := { db with roleMenu := db.roleMenu.relink pk menus }
  return { db := db, cleared := UserCacheManager.clearByRoleId db [pk] }

def updateRoleScope (db : AdminDb) (pk : Nat) (scopes : List Nat) : Outcome := do
  let _ ← found (db.roles.get pk) "角色不存在".toList
  refuse (!scopes.isEmpty && !sameIds (db.scopes.getAllByIds scopes) scopes)
    (.notFound "数据范围不存在".toList)
  let db := { db with roleScope := db.roleScope.relink pk scopes }
  return { db := db, cleared := UserCacheManager.clearByRoleId db [pk] }

def delete (db : AdminDb) (pks : List Nat) : Outcome := do
  let db := { db with roles := db.roles.delete pks }
  return { db := db, cleared := UserCacheManager.clearByRoleId db pks }

end RoleService

namespace MenuService

/-- `get_by_title` does not look at buttons. -/
def titleTaken (db : AdminDb) (title : Text) : Bool :=
  (db.menus.getBy fun menu => menu.title = title && menu.type ≠ 2).isSome

def parentMissing (db : AdminDb) (parentId : Option Nat) : Bool :=
  (truthy parentId).any fun parentId => (db.menus.get parentId).isNone

def create (db : AdminDb) (newId : Nat) (obj : Menu) : Outcome := do
  refuse (titleTaken db obj.title) (.conflict "菜单标题已存在".toList)
  refuse (parentMissing db obj.parentId) (.notFound "父级菜单不存在".toList)
  return { db := { db with menus := db.menus.create newId obj }, cleared := [] }

def update (db : AdminDb) (pk : Nat) (obj : UpdateMenuParam) : Outcome := do
  let menu ← found (db.menus.get pk) "菜单不存在".toList
  refuse (menu.value.title ≠ obj.title && titleTaken db obj.title)
    (.conflict "菜单标题已存在".toList)
  refuse (parentMissing db obj.parentId.join) (.notFound "父级菜单不存在".toList)
  refuse (obj.parentId.join = some menu.id) (.forbidden "禁止关联自身为父级".toList)
  let db := { db with menus := db.menus.update [pk] obj.apply }
  return { db := db, cleared := UserCacheManager.clearByMenuId db [pk] }

/-- The links to the menu are removed before the users are looked up over them. -/
def delete (db : AdminDb) (pk : Nat) : Outcome := do
  refuse (db.menus.getBy fun menu => menu.parentId = some pk).isSome
    (.conflict "菜单下存在子菜单，无法删除".toList)
  let count := (db.menus.getAllByIds [pk]).length
  let db := { db with roleMenu := db.roleMenu.unlink pk, menus := db.menus.delete [pk] }
  return { db := db
           cleared := if count ≠ 0 then UserCacheManager.clearByMenuId db [pk] else [] }

end MenuService

namespace DeptService

def nameTaken (db : AdminDb) (name : Text) : Bool :=
  (db.depts.getBy fun dept => dept.name = name).isSome

def create (db : AdminDb) (newId : Nat) (obj : Dept) : Outcome := do
  refuse (nameTaken db obj.name) (.conflict "部门名称已存在".toList)
  refuse (obj.parentId.any fun parentId => (db.depts.get parentId).isNone)
    (.notFound "父级部门不存在".toList)
  return { db := { db with depts := db.depts.create newId obj }, cleared := [] }

/-- No key is cleared. -/
def update (db : AdminDb) (pk : Nat) (obj : UpdateDeptParam) : Outcome := do
  let dept ← found (db.depts.get pk) "部门不存在".toList
  refuse (dept.value.name ≠ obj.name && nameTaken db obj.name)
    (.conflict "部门名称已存在".toList)
  refuse ((truthy obj.parentId.join).any fun parentId => (db.depts.get parentId).isNone)
    (.notFound "父级部门不存在".toList)
  refuse (obj.parentId.join = some dept.id) (.forbidden "禁止关联自身为父级".toList)
  return { db := { db with depts := db.depts.update [pk] obj.apply }, cleared := [] }

def delete (db : AdminDb) (pk : Nat) : Outcome := do
  let dept ← found (db.depts.get pk) "部门不存在".toList
  refuse (db.users.getBy fun user => user.deptId = some dept.id).isSome
    (.conflict "部门下存在用户，无法删除".toList)
  refuse (db.depts.getBy fun child => child.parentId = some pk).isSome
    (.conflict "部门下存在子部门，无法删除".toList)
  return { db := { db with depts := db.depts.delete [pk] }, cleared := [] }

end DeptService

namespace DataScopeService

def nameTaken (db : AdminDb) (name : Text) : Bool :=
  (db.scopes.getBy fun scope => scope.name = name).isSome

def create (db : AdminDb) (newId : Nat) (obj : DataScope) : Outcome := do
  refuse (nameTaken db obj.name) (.conflict "数据范围已存在".toList)
  return { db := { db with scopes := db.scopes.create newId obj }, cleared := [] }

def update (db : AdminDb) (pk : Nat) (obj : DataScope) : Outcome := do
  let dataScope ← found (db.scopes.get pk) "数据范围不存在".toList
  refuse (dataScope.value.name ≠ obj.name && nameTaken db obj.name)
    (.conflict "数据范围已存在".toList)
  let db := { db with scopes := db.scopes.update [pk] fun _ => obj }
  return { db := db, cleared := UserCacheManager.clearByDataScopeId db [pk] }

def updateDataScopeRule (db : AdminDb) (pk : Nat) (rules : List Nat) : Outcome := do
  let _ ← found (db.scopes.get pk) "数据范围不存在".toList
  refuse (!rules.isEmpty && !sameIds (db.rules.getAllByIds rules) rules)
    (.notFound "数据规则不存在".toList)
  let db := { db with scopeRule := db.scopeRule.relink pk rules }
  return { db := db, cleared := UserCacheManager.clearByDataScopeId db [pk] }

def delete (db : AdminDb) (pks : List Nat) : Outcome := do
  let db := { db with scopes := db.scopes.delete pks }
  return { db := db, cleared := UserCacheManager.clearByDataScopeId db pks }

end DataScopeService

namespace DataRuleService

def nameTaken (db : AdminDb) (name : Text) : Bool :=
  (db.rules.getBy fun rule => rule.name = name).isSome

def create (db : AdminDb) (newId : Nat) (obj : DataRule) : Outcome := do
  refuse (nameTaken db obj.name) (.conflict "数据规则已存在".toList)
  return { db := { db with rules := db.rules.create newId obj }, cleared := [] }

def update (db : AdminDb) (pk : Nat) (obj : DataRule) : Outcome := do
  let dataRule ← found (db.rules.get pk) "数据规则不存在".toList
  refuse (dataRule.value.name ≠ obj.name && nameTaken db obj.name)
    (.conflict "数据规则已存在".toList)
  let db := { db with rules := db.rules.update [pk] fun _ => obj }
  return { db := db, cleared := UserCacheManager.clearByDataRuleId db [pk] }

def delete (db : AdminDb) (pks : List Nat) : Outcome := do
  let db := { db with rules := db.rules.delete pks }
  return { db := db, cleared := UserCacheManager.clearByDataRuleId db pks }

end DataRuleService

/-!
# Requests

The requests of the routes, what each commits, and the ids that the database may draw for new
rows.
-/

inductive AdminRequest where
  | createUser (newId : Nat) (obj : AddUserParam)
  | updateUser (pk : ℕ+) (obj : UpdateUserParam)
  | updatePermission (requestUser : RequestUser) (pk : Nat) (type : UserPermissionType)
  | resetPassword (pk : Nat) (validated : Except AdminError Unit)
  | updateNickname (userId : Nat) (nickname : Text)
  | updateAvatar (userId : Nat) (avatar : Text)
  | updateEmail (captchaCode : Text) (userId : Nat) (captcha email : Text)
  | updatePassword (userId : Nat) (changed : Except AdminError Unit)
  | deleteUser (pk : Nat)
  | createRole (newId : Nat) (obj : Role)
  | updateRole (pk : Nat) (obj : UpdateRoleParam)
  | updateRoleMenu (pk : Nat) (menus : List Nat)
  | updateRoleScope (pk : Nat) (scopes : List Nat)
  | deleteRoles (pks : List Nat)
  | createMenu (newId : Nat) (obj : Menu)
  | updateMenu (pk : Nat) (obj : UpdateMenuParam)
  | deleteMenu (pk : Nat)
  | createDept (newId : Nat) (obj : Dept)
  | updateDept (pk : Nat) (obj : UpdateDeptParam)
  | deleteDept (pk : Nat)
  | createDataScope (newId : Nat) (obj : DataScope)
  | updateDataScope (pk : Nat) (obj : DataScope)
  | updateDataScopeRule (pk : Nat) (rules : List Nat)
  | deleteDataScopes (pks : List Nat)
  | createDataRule (newId : Nat) (obj : DataRule)
  | updateDataRule (pk : Nat) (obj : DataRule)
  | deleteDataRules (pks : List Nat)

namespace AdminRequest

def perform (db : AdminDb) : AdminRequest -> Outcome
  | createUser newId obj => UserService.create db newId obj
  | updateUser pk obj => UserService.update db pk obj
  | updatePermission requestUser pk type => UserService.updatePermission db requestUser pk type
  | resetPassword pk validated => UserService.resetPassword db pk validated
  | updateNickname userId nickname => UserService.updateNickname db userId nickname
  | updateAvatar userId avatar => UserService.updateAvatar db userId avatar
  | updateEmail captchaCode userId captcha email =>
      UserService.updateEmail db captchaCode userId captcha email
  | updatePassword userId changed => UserService.updatePassword db userId changed
  | deleteUser pk => UserService.delete db pk
  | createRole newId obj => RoleService.create db newId obj
  | updateRole pk obj => RoleService.update db pk obj
  | updateRoleMenu pk menus => RoleService.updateRoleMenu db pk menus
  | updateRoleScope pk scopes => RoleService.updateRoleScope db pk scopes
  | deleteRoles pks => RoleService.delete db pks
  | createMenu newId obj => MenuService.create db newId obj
  | updateMenu pk obj => MenuService.update db pk obj
  | deleteMenu pk => MenuService.delete db pk
  | createDept newId obj => DeptService.create db newId obj
  | updateDept pk obj => DeptService.update db pk obj
  | deleteDept pk => DeptService.delete db pk
  | createDataScope newId obj => DataScopeService.create db newId obj
  | updateDataScope pk obj => DataScopeService.update db pk obj
  | updateDataScopeRule pk rules => DataScopeService.updateDataScopeRule db pk rules
  | deleteDataScopes pks => DataScopeService.delete db pks
  | createDataRule newId obj => DataRuleService.create db newId obj
  | updateDataRule pk obj => DataRuleService.update db pk obj
  | deleteDataRules pks => DataRuleService.delete db pks

/-- The database draws a new id that is positive and not used in the table. -/
def FreshId (db : AdminDb) : AdminRequest -> Prop
  | createUser newId _ => 0 < newId ∧ newId ∉ db.users.ids
  | createRole newId _ => 0 < newId ∧ newId ∉ db.roles.ids
  | createMenu newId _ => 0 < newId ∧ newId ∉ db.menus.ids
  | createDept newId _ => 0 < newId ∧ newId ∉ db.depts.ids
  | createDataScope newId _ => 0 < newId ∧ newId ∉ db.scopes.ids
  | createDataRule newId _ => 0 < newId ∧ newId ∉ db.rules.ids
  | _ => True

instance (db : AdminDb) (r : AdminRequest) : Decidable (r.FreshId db) := by
  unfold FreshId
  split <;> infer_instance

end AdminRequest
end Admin
end RagService
