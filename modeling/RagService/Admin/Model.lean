import Mathlib.Data.List.AList
import RagService.Foundation.Tables
import RagService.Foundation.Text

/-!
# Users and their rights

The tables behind a login user: users, departments, roles, menus, data scopes and data
rules, with the link tables between them, and the parameters of the requests on them.
-/

namespace RagService
namespace Admin

inductive AdminError where
  | request (msg : Text)
  | forbidden (msg : Text)
  | notFound (msg : Text)
  | conflict (msg : Text)
  | token (msg : Text)
  | authorization (msg : Text)
  /-- `CustomError`, with the key of its message -/
  | custom (code : Nat) (key : Text)
  deriving DecidableEq

/-!
# Rows

The rows of `sys_user`, `sys_dept`, `sys_role`, `sys_menu`, `sys_data_scope` and
`sys_data_rule`, with the columns that requests on rights read or write.
-/

structure User where
  username : Text
  nickname : Text
  email : Option Text
  avatar : Option Text
  status : Nat
  isSuperuser : Bool
  isStaff : Bool
  isMultiLogin : Bool
  deptId : Option Nat
  deriving DecidableEq

structure Dept where
  name : Text
  parentId : Option Nat
  status : Nat
  deriving DecidableEq

structure Role where
  name : Text
  status : Nat
  isFilterScopes : Bool
  deriving DecidableEq

structure Menu where
  title : Text
  parentId : Option Nat
  type : Nat
  perms : Option Text
  status : Nat
  deriving DecidableEq

structure DataScope where
  name : Text
  status : Nat
  deriving DecidableEq

structure DataRule where
  name : Text
  model : Text
  column : Text
  operator : Nat
  expression : Nat
  value : Text
  deriving DecidableEq

structure AdminDb where
  users : Table User
  depts : Table Dept
  roles : Table Role
  menus : Table Menu
  scopes : Table DataScope
  rules : Table DataRule
  userRole : Links
  roleMenu : Links
  roleScope : Links
  scopeRule : Links

/-!
# Parameters

A field of an update that may be left out is `none` when it is.
-/

structure AddUserParam where
  username : Text
  password : Text
  nickname : Option Text
  email : Option Text
  deptId : Nat
  roles : List Nat

/-- The row that `add` adds; the nickname is `obj.nickname or obj.username`. -/
def AddUserParam.user (obj : AddUserParam) : User where
  username := obj.username
  nickname := (obj.nickname.filter fun nickname => !nickname.isEmpty).getD obj.username
  email := obj.email
  avatar := none
  status := 1
  isSuperuser := false
  isStaff := false
  isMultiLogin := false
  deptId := some obj.deptId

structure UpdateUserParam where
  username : Text
  nickname : Text
  email : Option (Option Text)
  avatar : Option (Option Text)
  deptId : Option (Option Nat)
  roles : List Nat

def UpdateUserParam.apply (obj : UpdateUserParam) (user : User) : User :=
  { user with
    username := obj.username
    nickname := obj.nickname
    email := obj.email.getD user.email
    avatar := obj.avatar.getD user.avatar
    deptId := obj.deptId.getD user.deptId }

structure UpdateDeptParam where
  name : Text
  parentId : Option (Option Nat)
  status : Nat

def UpdateDeptParam.apply (obj : UpdateDeptParam) (dept : Dept) : Dept where
  name := obj.name
  parentId := obj.parentId.getD dept.parentId
  status := obj.status

structure UpdateRoleParam where
  name : Text
  status : Nat
  isFilterScopes : Option Bool

def UpdateRoleParam.apply (obj : UpdateRoleParam) (role : Role) : Role where
  name := obj.name
  status := obj.status
  isFilterScopes := obj.isFilterScopes.getD role.isFilterScopes

structure UpdateMenuParam where
  title : Text
  parentId : Option (Option Nat)
  type : Nat
  perms : Option (Option Text)
  status : Nat

def UpdateMenuParam.apply (obj : UpdateMenuParam) (menu : Menu) : Menu where
  title := obj.title
  parentId := obj.parentId.getD menu.parentId
  type := obj.type
  perms := obj.perms.getD menu.perms
  status := obj.status

structure RequestUser where
  id : Nat
  isMultiLogin : Bool

inductive UserPermissionType where
  | superuser
  | staff
  | status
  | multiLogin

end Admin
end RagService
