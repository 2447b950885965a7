import Mathlib.Data.PNat.Defs
import RagService.Admin.Model
import RagService.Foundation.Maps

/-!
# The login user

`get_current_user` reads a user with the department, the roles, their menus and their data
scopes; `get_jwt_user` keeps the outcome in Redis, where `UserCacheManager` clears it.
What the cache keeps is the part that authorization looks at.
-/

namespace RagService
namespace Admin

structure ScopeDetail where
  scope : Row DataScope
  rules : List (Row DataRule)
  deriving DecidableEq

structure RoleDetail where
  role : Row Role
  menus : List (Row Menu)
  scopes : List ScopeDetail
  deriving DecidableEq

structure UserDetail where
  id : Nat
  status : Nat
  isSuperuser : Bool
  isStaff : Bool
  deptId : Option Nat
  dept : Option (Row Dept)
  roles : List RoleDetail
  deriving DecidableEq

namespace AdminDb

def scopeDetail (db : AdminDb) (scope : Row DataScope) : ScopeDetail where
  scope := scope
  rules := db.rules.linked db.scopeRule scope.id

def roleDetail (db : AdminDb) (role : Row Role) : RoleDetail where
  role := role
  menus := db.menus.linked db.roleMenu role.id
  scopes := (db.scopes.linked db.roleScope role.id).map db.scopeDetail

def userDetail (db : AdminDb) (user : Row User) : UserDetail where
  id := user.id
  status := user.value.status
  isSuperuser := user.value.isSuperuser
  isStaff := user.value.isStaff
  deptId := user.value.deptId
  dept := user.value.deptId.bind db.depts.get
  roles := (db.roles.linked db.userRole user.id).map db.roleDetail

/-- `user_dao.get_join`: an id of a row is positive, so the filter on the id is there. -/
def getJoin (db : AdminDb) (userId : ℕ+) : Option UserDetail :=
  (db.users.get userId).map db.userDetail

end AdminDb

def getCurrentUser (db : AdminDb) (pk : ℕ+) : Except AdminError UserDetail :=
  match db.getJoin pk with
  | none => throw (.token "Token 无效".toList)
  | some user =>
      if user.status = 0 then
        throw (.authorization "用户已被锁定，请联系系统管理员".toList)
      else if (user.deptId.getD 0 ≠ 0 && user.dept.isNone) = true then
        throw (.authorization "用户所属部门不存在或已被删除，请联系系统管理员".toList)
      else if user.dept.any (fun dept => dept.value.status = 0) = true then
        throw (.authorization "用户所属部门已被锁定，请联系系统管理员".toList)
      else if (!user.roles.isEmpty && user.roles.all fun r => r.role.value.status = 0) = true then
        throw (.authorization "用户所属角色已被锁定，请联系系统管理员".toList)
      else return user

/-!
# The cache

The database with the values of the keys `JWT_USER_REDIS_PREFIX:user_id`: what a request finds
of its user, and which keys the clearing functions delete.
-/

structure LoginState where
  db : AdminDb
  cache : AList fun _ : Nat => UserDetail

def getJwtUser (s : LoginState) (userId : ℕ+) : LoginState × Except AdminError UserDetail :=
  match s.cache.lookup (userId : Nat) with
  | some user => (s, .ok user)
  | none =>
      match getCurrentUser s.db userId with
      | .ok user => ({ s with cache := s.cache.insert (userId : Nat) user }, .ok user)
      | .error e => (s, .error e)

namespace UserCacheManager

def clearByRoleId (db : AdminDb) (roleIds : List Nat) : List Nat :=
  db.userRole.sources roleIds

def clearByMenuId (db : AdminDb) (menuIds : List Nat) : List Nat :=
  db.userRole.sources (db.roleMenu.sources menuIds)

def clearByDataScopeId (db : AdminDb) (scopeIds : List Nat) : List Nat :=
  db.userRole.sources (db.roleScope.sources scopeIds)

def clearByDataRuleId (db : AdminDb) (ruleIds : List Nat) : List Nat :=
  db.userRole.sources (db.roleScope.sources (db.scopeRule.sources ruleIds))

end UserCacheManager
end Admin
end RagService
