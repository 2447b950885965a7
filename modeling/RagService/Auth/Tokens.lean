import RagService.Auth.Redis

/-!
# Tokens

`jwt.py`: the tokens of a session are kept in Redis under keys of their own, and a new
session replaces the others of a user who may not have several.  The clock and the drawn
`uuid4` are arguments.
-/

namespace RagService

open Interleaving

abbrev AuthAction := Program authInterface

namespace AuthAction

variable {α : Type}

def raise (e : AuthError) : AuthAction α := Program.raise (I := authInterface) e
def get (key : Key) : AuthAction (Option Value) := Program.issue (I := authInterface) (.get key)
def set (key : Key) (value : Value) : AuthAction Unit :=
  Program.issue (I := authInterface) (.set key value)
def delete (keys : List Key) : AuthAction Unit :=
  Program.issue (I := authInterface) (.delete keys)
def «exists» (key : Key) : AuthAction Bool := Program.issue (I := authInterface) (.exists key)
def scanIter (family : KeyFamily) (userId : Nat) (count : Option Nat) :
    AuthAction (List Key) :=
  Program.issue (I := authInterface) (.scanIter family userId count)
def getUser (id : Nat) : AuthAction (Option User) :=
  Program.issue (I := authInterface) (.getUser id)
def getUserByUsername (username : Text) : AuthAction (Option User) :=
  Program.issue (I := authInterface) (.getUserByUsername username)
def updateLoginTime (username : Text) (now : Nat) : AuthAction Nat :=
  Program.issue (I := authInterface) (.updateLoginTime username now)
def refreshUser (id : Nat) : AuthAction (Option User) :=
  Program.issue (I := authInterface) (.refreshUser id)
def deleteUser (id : Nat) : AuthAction Nat := Program.issue (I := authInterface) (.deleteUser id)

def ofExcept : Except AuthError α -> AuthAction α
  | .ok a => .ret a
  | .error e => raise e

end AuthAction

open AuthAction

/-- The expiry times of `settings`, and `timezone.to_str`. -/
structure AuthSettings where
  tokenExpireSeconds : Nat
  tokenRefreshExpireSeconds : Nat
  timeText : Nat -> Text

def tokenKey (userId : Nat) (sessionUuid : Text) : Key := ⟨.token, userId, some sessionUuid⟩
def extraInfoKey (userId : Nat) (sessionUuid : Text) : Key :=
  ⟨.tokenExtraInfo, userId, some sessionUuid⟩
def refreshKey (userId : Nat) (sessionUuid : Text) : Key :=
  ⟨.refreshToken, userId, some sessionUuid⟩

/-!
# Keys by prefix

`get_by_prefix` and `delete_by_prefix` of the keys `family:user_id`.
-/

def deleteByPrefix (family : KeyFamily) (userId : Nat) (excludeKeys : List Key)
    (batchSize : Nat) : AuthAction Unit :=
  RedisCli.deleteByPrefix «exists» (scanIter family userId none) delete
    ⟨family, userId, none⟩ excludeKeys batchSize

def getByPrefix (family : KeyFamily) (userId count : Nat) : AuthAction (List Key) :=
  scanIter family userId (some count)

/-!
# Sessions

Access tokens and refresh tokens, made and exchanged.
-/

structure AccessToken where
  accessToken : Token
  accessTokenExpireTime : Nat
  sessionUuid : Text
  deriving DecidableEq

structure RefreshToken where
  refreshToken : Token
  refreshTokenExpireTime : Nat
  deriving DecidableEq

structure NewToken where
  newAccessToken : Token
  newAccessTokenExpireTime : Nat
  newRefreshToken : Token
  newRefreshTokenExpireTime : Nat
  sessionUuid : Text
  deriving DecidableEq

/-- `create_access_token`, with the extra information as fields of a JSON object -/
def createAccessToken (cfg : AuthSettings) (now : Nat) (uuid : Text) (userId : Nat)
    (multiLogin : Bool) (extra : List (Text × Json)) : AuthAction AccessToken := do
  let expire := now + cfg.tokenExpireSeconds
  let sessionUuid := uuid
  let accessToken : Token := { sessionUuid := sessionUuid, exp := expire, sub := userId }
  if !multiLogin then
    deleteByPrefix .token userId [] 1000
  set (tokenKey userId sessionUuid) (.token accessToken)
  if !extra.isEmpty then
    set (extraInfoKey userId sessionUuid) (.text ((Json.obj extra).dumps false))
  return { accessToken := accessToken, accessTokenExpireTime := expire,
           sessionUuid := sessionUuid }

def createRefreshToken (cfg : AuthSettings) (now : Nat) (sessionUuid : Text) (userId : Nat)
    (multiLogin : Bool) : AuthAction RefreshToken := do
  let expire := now + cfg.tokenRefreshExpireSeconds
  let refreshToken : Token := { sessionUuid := sessionUuid, exp := expire, sub := userId }
  if !multiLogin then
    deleteByPrefix .refreshToken userId [] 1000
  set (refreshKey userId sessionUuid) (.token refreshToken)
  return { refreshToken := refreshToken, refreshTokenExpireTime := expire }

def createNewToken (cfg : AuthSettings) (now : Nat) (uuid : Text) (refreshToken : Token)
    (sessionUuid : Text) (userId : Nat) (multiLogin : Bool) (extra : List (Text × Json)) :
    AuthAction NewToken := do
  let redisRefreshToken ← get (refreshKey userId sessionUuid)
  if redisRefreshToken ≠ some (.token refreshToken) then
    raise (.token "Refresh Token 已过期，请重新登录".toList)
  delete [refreshKey userId sessionUuid]
  delete [tokenKey userId sessionUuid]
  let access ← createAccessToken cfg now uuid userId multiLogin extra
  let refresh ← createRefreshToken cfg now access.sessionUuid userId multiLogin
  return { newAccessToken := access.accessToken,
           newAccessTokenExpireTime := access.accessTokenExpireTime,
           newRefreshToken := refresh.refreshToken,
           newRefreshTokenExpireTime := refresh.refreshTokenExpireTime,
           sessionUuid := access.sessionUuid }

def revokeToken (userId : Nat) (sessionUuid : Text) : AuthAction Unit := do
  delete [tokenKey userId sessionUuid]
  delete [extraInfoKey userId sessionUuid]

/-!
# Credentials

What a request presents as a token is a token of the server, or something that fails to be
decoded: signatures cannot be forged.
-/

inductive Credential where
  | malformed
  | signed (t : Token)
  deriving DecidableEq

def jwtDecode (now : Nat) : Credential -> Except AuthError Token
  | .malformed => .error (.token "Token 无效".toList)
  | .signed t =>
      if t.exp < now then .error (.token "Token 已过期".toList)
      else if t.sessionUuid = [] ∨ t.exp = 0 then .error (.token "Token 无效".toList)
      else .ok t

theorem jwtDecode_signed {now : Nat} {credential : Credential} {payload : Token}
    (h : jwtDecode now credential = .ok payload) : credential = .signed payload := by
  cases credential with
  | malformed => cases h
  | signed t =>
      unfold jwtDecode at h
      dsimp only at h
      split at h
      · cases h
      · split at h
        · cases h
        · cases h
          rfl

/-- `jwt_authentication`, over `get_jwt_user` -/
def jwtAuthentication {Detail : Type} (getJwtUser : Nat -> AuthAction Detail) (now : Nat)
    (token : Credential) : AuthAction Detail := do
  let payload ← ofExcept (jwtDecode now token)
  let redisToken ← get (tokenKey payload.sub payload.sessionUuid)
  match redisToken with
  | none => raise (.token "Token 已过期".toList)
  | some value =>
      if value ≠ .token payload then
        raise (.token "Token 已失效".toList)
      getJwtUser payload.sub

end RagService
