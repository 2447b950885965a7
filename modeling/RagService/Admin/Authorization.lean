import RagService.Admin.Sidebar
import RagService.Foundation.Splitting

/-!
# Authorization of requests

The middleware that authenticates a request, the dependencies `DependsJwtAuth`,
`DependsSuperUser` and `DependsRBAC` that stand before a handler, and the permission codes
that a user is shown.
-/

namespace RagService
namespace Admin

open Text

/-!
# Requests and settings

What the middleware and the dependencies see of a request.  How FastAPI reads the header
`Authorization` is a part of the settings, since it is the code of a library; the rest of the
settings is that of `core/conf.py`.
-/

structure HttpRequest where
  path : Text
  method : Text
  /-- the header `Authorization` -/
  authorization : Option Text

inductive Rejection where
  /-- `AuthenticationError` of the middleware -/
  | authentication (code : Nat) (msg : Text)
  /-- the exception of `HTTPBearer` -/
  | notAuthenticated
  | token (msg : Text)
  | authorization (msg : Text)
  | server (msg : Text)
  deriving DecidableEq

def AdminError.code : AdminError -> Nat
  | request _ => 400
  | forbidden _ => 403
  | notFound _ => 404
  | conflict _ => 409
  | token _ => 401
  | authorization _ => 403
  | custom code _ => code

def AdminError.msg : AdminError -> Text
  | request msg | forbidden msg | notFound msg | conflict msg | token msg | authorization msg => msg
  | custom _ key => key

structure HttpSecurity where
  /-- `get_authorization_scheme_param` -/
  schemeParam : Text -> Text × Text
  /-- `HTTPBearer` finds credentials. -/
  hasBearer : HttpRequest -> Bool

structure AuthorizationSettings where
  tokenRequestPathExclude : List Text
  tokenRequestPathExcludePattern : List (Text -> Bool)
  tokenRequestUnderlyingSecurity : Bool
  rbacRoleMenuMode : Bool
  rbacRoleMenuExclude : List Text
  /-- `casbin_verify` of a plugin that may be installed -/
  casbinVerify : Option (HttpRequest -> UserDetail -> Except Rejection Unit)
  security : HttpSecurity

def defaultAuthorization (security : HttpSecurity) : AuthorizationSettings where
  tokenRequestPathExclude := ["/api/v1/auth/login".toList]
  tokenRequestPathExcludePattern := []
  tokenRequestUnderlyingSecurity := true
  rbacRoleMenuMode := true
  rbacRoleMenuExclude := []
  casbinVerify := none
  security := security

def pathExcluded (cfg : AuthorizationSettings) (path : Text) : Bool :=
  decide (path ∈ cfg.tokenRequestPathExclude) ||
    cfg.tokenRequestPathExcludePattern.any fun pattern => pattern path

/-!
# The middleware

The middleware looks for a token in the header, and asks whose session it is of.  Where a token
is refused it lets the request through without a user, and leaves the exception in the context.
-/

def extractToken (cfg : AuthorizationSettings) (request : HttpRequest) : Option Text :=
  match request.authorization with
  | none => none
  | some authorization =>
      if authorization.isEmpty then none
      else if pathExcluded cfg request.path then none
      else if lowerAscii (cfg.security.schemeParam authorization).1 ≠ "bearer".toList then none
      else some (cfg.security.schemeParam authorization).2

/-- `request.user`, when it is no `UnauthenticatedUser`, and the exception in the context. -/
structure Authenticated where
  user : Option UserDetail
  exception : Option Text

def tokenError (cfg : AuthorizationSettings) (msg : Text) : Except Rejection Authenticated :=
  if cfg.tokenRequestUnderlyingSecurity then throw (.authentication 401 msg)
  else return ⟨none, some msg⟩

/--
`JwtAuthMiddleware.authenticate`: `session` tells whose session a token is of, or how
`jwt_decode` and the token in Redis refuse it.
-/
def authenticate (cfg : AuthorizationSettings) (session : Text -> Except Text ℕ+)
    (s : LoginState) (request : HttpRequest) : LoginState × Except Rejection Authenticated :=
  match extractToken cfg request with
  | none => (s, .ok ⟨none, none⟩)
  | some token =>
      match session token with
      | .error msg => (s, tokenError cfg msg)
      | .ok userId =>
          match getJwtUser s userId with
          | (s, .ok user) => (s, .ok ⟨some user, none⟩)
          | (s, .error (.token msg)) => (s, tokenError cfg msg)
          | (s, .error e) => (s, .error (.authentication e.code e.msg))

/-!
# Dependencies

The dependencies before a handler.  `rbac_verify` ends with the role-menu mode, in which the
permission of the route has to be one of the enabled menus of the roles.
-/

def jwtAuthenticationVerify (cfg : AuthorizationSettings) (request : HttpRequest)
    (auth : Authenticated) : Except Rejection UserDetail :=
  if !cfg.security.hasBearer request then throw .notAuthenticated
  else
    match auth.user with
    | some user => return user
    | none => throw (.token (auth.exception.getD "Not Authenticated".toList))

def superuserVerify (cfg : AuthorizationSettings) (request : HttpRequest)
    (auth : Authenticated) : Except Rejection UserDetail := do
  let user ← jwtAuthenticationVerify cfg request auth
  if !user.isSuperuser || !user.isStaff then throw (.authorization "Permission Denied".toList)
  else return user

def uniqueMenus (roles : List RoleDetail) : Dict Nat (Row Menu) :=
  Dict.ofPairs ((roles.flatMap RoleDetail.menus).map fun menu => (menu.id, menu))

def menuPerms (menu : Row Menu) : List Text :=
  match menu.value.perms with
  | some perms =>
      if !perms.isEmpty && menu.value.status = 1 then Splitting.split [','] perms else []
  | none => []

def allowPerms (roles : List RoleDetail) : List Text :=
  (uniqueMenus roles).values.flatMap menuPerms

/-- `RBAC_ROLE_MENU_MODE`: the permission of the route is one of the menus of the roles. -/
def roleMenuVerify (cfg : AuthorizationSettings) (permission : Option Text)
    (roles : List RoleDetail) : Except Rejection Unit :=
  match permission with
  | none => return
  | some permission =>
      if permission.isEmpty || decide (permission ∈ cfg.rbacRoleMenuExclude) then return
      else if permission ∈ allowPerms roles then return
      else throw (.authorization "Permission Denied".toList)

def reject (check : Bool) (e : Rejection) : Except Rejection Unit :=
  if check then .error e else .ok ()

/-- `RBAC 鉴权`, the last part of `rbac_verify` -/
def permissionVerify (cfg : AuthorizationSettings) (permission : Option Text)
    (request : HttpRequest) (user : UserDetail) : Except Rejection Unit :=
  if cfg.rbacRoleMenuMode then
    roleMenuVerify cfg permission (enabledRoles user)
  else
    match cfg.casbinVerify with
    | some casbinVerify => casbinVerify request user
    | none => throw (.server "Casbin RBAC 插件用法导入失败，请联系系统管理员".toList)

/-- `rbac_verify` with the permission in the context -/
def rbacVerify (cfg : AuthorizationSettings) (permission : Option Text) (request : HttpRequest)
    (auth : Authenticated) : Except Rejection UserDetail := do
  let user ← jwtAuthenticationVerify cfg request auth
  if pathExcluded cfg request.path then return user
  else if user.isSuperuser then return user
  else
    reject (enabledRoles user).isEmpty
      (.authorization "用户所属角色已被锁定，请联系系统管理员".toList)
    reject ((enabledRoles user).all fun role => role.menus.isEmpty)
      (.authorization "用户未分配菜单，请联系系统管理员".toList)
    reject (request.method ≠ "GET".toList && request.method ≠ "OPTIONS".toList && !user.isStaff)
      (.authorization "用户已被禁止后台管理操作，请联系系统管理员".toList)
    permissionVerify cfg permission request user
    return user

/-- `RequestPermission.__call__`: what `ctx.permission` is afterwards. -/
def requestPermission (cfg : AuthorizationSettings) (value : Text) : Option Text :=
  if cfg.rbacRoleMenuMode then some value else none

inductive Guard where
  | jwt
  | superUser
  /-- `RequestPermission(value)` before `DependsRBAC` -/
  | rbac (value : Text)

def Guard.verify (cfg : AuthorizationSettings) (request : HttpRequest) (auth : Authenticated) :
    Guard -> Except Rejection UserDetail
  | jwt => jwtAuthenticationVerify cfg request auth
  | superUser => superuserVerify cfg request auth
  | rbac value => rbacVerify cfg (requestPermission cfg value) request auth

/-!
# Permission codes

The codes by which a page decides which buttons it shows: `get_codes` reads the menus that the
gate reads.
-/

namespace AuthService

def getCodes (db : AdminDb) (user : UserDetail) : List Text :=
  if user.isSuperuser then (db.menus.live.flatMap menuPerms).dedup
  else ((enabledRoles user).flatMap fun role => role.menus.flatMap menuPerms).dedup

end AuthService

/-!
# Routes

The method, the dependencies and the arguments of the route of each request.  A handler for the
user who makes the request passes on the id of the token.
-/

namespace AdminRequest

def method : AdminRequest -> Text
  | createUser .. | createRole .. | createMenu .. | createDept .. | createDataScope ..
  | createDataRule .. => "POST".toList
  | deleteUser .. | deleteRoles .. | deleteMenu .. | deleteDept .. | deleteDataScopes ..
  | deleteDataRules .. => "DELETE".toList
  | _ => "PUT".toList

def guard : AdminRequest -> Guard
  | createUser .. | updateUser .. | updatePermission .. | resetPassword .. => .superUser
  | updateNickname .. | updateAvatar .. | updateEmail .. | updatePassword .. => .jwt
  | deleteUser .. => .rbac "sys:user:del".toList
  | createRole .. => .rbac "sys:role:add".toList
  | updateRole .. => .rbac "sys:role:edit".toList
  | updateRoleMenu .. => .rbac "sys:role:menu:edit".toList
  | updateRoleScope .. => .rbac "sys:role:scope:edit".toList
  | deleteRoles .. => .rbac "sys:role:del".toList
  | createMenu .. => .rbac "sys:menu:add".toList
  | updateMenu .. => .rbac "sys:menu:edit".toList
  | deleteMenu .. => .rbac "sys:menu:del".toList
  | createDept .. => .rbac "sys:dept:add".toList
  | updateDept .. => .rbac "sys:dept:edit".toList
  | deleteDept .. => .rbac "sys:dept:del".toList
  | createDataScope .. => .rbac "data:scope:add".toList
  | updateDataScope .. => .rbac "data:scope:edit".toList
  | updateDataScopeRule .. => .rbac "data:scope:rule:edit".toList
  | deleteDataScopes .. => .rbac "data:scope:del".toList
  | createDataRule .. => .rbac "data:rule:add".toList
  | updateDataRule .. => .rbac "data:rule:edit".toList
  | deleteDataRules .. => .rbac "data:rule:del".toList

/-- The handler passes the user of the request on. -/
def SentBy (user : UserDetail) : AdminRequest -> Prop
  | updatePermission requestUser _ _ => requestUser.id = user.id
  | updateNickname userId _ | updateAvatar userId _ | updateEmail _ userId _ _
  | updatePassword userId _ => userId = user.id
  | _ => True

instance (user : UserDetail) (r : AdminRequest) : Decidable (r.SentBy user) := by
  unfold SentBy
  split <;> infer_instance

end AdminRequest

end Admin
end RagService
