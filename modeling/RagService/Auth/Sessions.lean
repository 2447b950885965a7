import RagService.Auth.Tokens

/-!
# Services of sessions

`AuthService.login`, `refresh_token` and `logout`, the forced logout of the online
monitor, and the operations of `UserService` that end all sessions of a user.  Captcha,
lock and password checks are outcomes of a call.
-/

namespace RagService

open Interleaving AuthAction

structure Client where
  ip : Text
  os : Text
  browser : Text
  device : Text
  deriving DecidableEq

/-- `timezone.to_str(user.last_login_time)` -/
def lastLoginText (cfg : AuthSettings) (user : User) : AuthAction Text :=
  match user.lastLoginTime with
  | some time => return cfg.timeText time
  | none => raise .attribute

namespace AuthService

/-- The two tokens of a login: one in the body, one as cookie. -/
def login (cfg : AuthSettings) (now : Nat) (uuid : Text) (client : Client) (username : Text)
    (captcha verified : Except AuthError Unit) : AuthAction (AccessToken × RefreshToken) := do
  ofExcept captcha
  let found ← getUserByUsername username
  match found with
  | none => raise (.notFound "用户名或密码有误".toList)
  | some found =>
      if found.status = 0 then
        raise (.authorization "用户已被锁定, 请联系统管理员".toList)
      ofExcept verified
      let _ ← updateLoginTime username now
      let refreshed ← refreshUser found.id
      match refreshed with
      | none => raise .attribute
      | some user =>
          let lastLogin ← lastLoginText cfg user
          let access ← createAccessToken cfg now uuid user.id user.isMultiLogin
            [("username".toList, .str user.username), ("nickname".toList, .str user.nickname),
              ("last_login_time".toList, .str lastLogin), ("ip".toList, .str client.ip),
              ("os".toList, .str client.os), ("browser".toList, .str client.browser),
              ("device".toList, .str client.device)]
          let refresh ← createRefreshToken cfg now access.sessionUuid user.id user.isMultiLogin
          return (access, refresh)

def refreshToken (cfg : AuthSettings) (now : Nat) (uuid : Text) (client : Client)
    (cookie : Option Credential) : AuthAction NewToken := do
  match cookie with
  | none => raise (.request "Refresh Token 已过期，请重新登录".toList)
  | some cookie =>
      let payload ← ofExcept (jwtDecode now cookie)
      let found ← getUser payload.sub
      match found with
      | none => raise (.notFound "用户不存在".toList)
      | some user =>
          if user.status = 0 then
            raise (.authorization "用户已被锁定, 请联系统管理员".toList)
          let tokenKeys ← getByPrefix .token user.id 100
          if !user.isMultiLogin &&
              tokenKeys.any (fun key => key.sessionUuid ≠ some payload.sessionUuid) then
            raise (.forbidden "此用户已在异地登录，请重新登录并及时修改密码".toList)
          let lastLogin ← lastLoginText cfg user
          createNewToken cfg now uuid payload payload.sessionUuid user.id user.isMultiLogin
            [("username".toList, .str user.username), ("nickname".toList, .str user.nickname),
              ("last_login_time".toList, .str lastLogin), ("ip".toList, .str client.ip),
              ("os".toList, .str client.os), ("browser".toList, .str client.browser),
              ("device_type".toList, .str client.device)]

/-- A header without a bearer token is `none`; the cookie is there or not. -/
def logout (now : Nat) (authorization : Option Credential) (refreshCookie : Bool) :
    AuthAction Unit :=
  match authorization.map (jwtDecode now) with
  | none | some (.error _) => return ()
  | some (.ok payload) => do
      delete [tokenKey payload.sub payload.sessionUuid]
      delete [extraInfoKey payload.sub payload.sessionUuid]
      if refreshCookie then
        delete [refreshKey payload.sub payload.sessionUuid]

end AuthService

namespace UserService

/-- What a password change and a deletion do to the keys of the user. -/
def deleteSessions (userId : Nat) : AuthAction Unit := do
  deleteByPrefix .token userId [] 1000
  deleteByPrefix .refreshToken userId [] 1000
  deleteByPrefix .jwtUser userId [] 1000

def resetPassword (pk : Nat) (validated : Except AuthError Unit) : AuthAction Unit := do
  let found ← getUser pk
  match found with
  | none => raise (.notFound "用户不存在".toList)
  | some user =>
      ofExcept validated
      deleteSessions user.id

def updatePassword (userId : Nat) (validated : Except AuthError Unit) : AuthAction Unit := do
  let found ← getUser userId
  match found with
  | none => raise .attribute
  | some _ =>
      ofExcept validated
      deleteSessions userId

def delete (pk : Nat) : AuthAction Nat := do
  let found ← getUser pk
  match found with
  | none => raise (.notFound "用户不存在".toList)
  | some user =>
      let count ← deleteUser user.id
      deleteSessions user.id
      return count

end UserService

def deleteSession (pk : Nat) (sessionUuid : Text) : AuthAction Unit :=
  revokeToken pk sessionUuid

/-!
# Samples
-/

def sampleAuthSettings : AuthSettings where
  tokenExpireSeconds := 86400
  tokenRefreshExpireSeconds := 604800
  timeText := Text.decimal

def sampleUser : User where
  id := 1
  username := ['a']
  nickname := ['a']
  status := 1
  isMultiLogin := false
  lastLoginTime := none
  deleted := 0

def sampleClient : Client := ⟨[], [], [], []⟩

/-- The refresh token of a login at time `1` that draws the uuid `u`. -/
def sampleRefreshToken : Token := ⟨['u'], 604801, 1⟩

end RagService
