import RagService.Admin.Services

/-!
# Logins by social accounts

The OAuth2 plugin: the Redis states of its authorization links, the callback of a provider,
which binds the social account to a user or logs a user in, and the table of bindings.  Each
request commits before the next one begins.  The time of a user's last login, which no
modelled function reads, is left out.
-/

namespace RagService
namespace OAuth2

open Admin

inductive UserSocialType where
  | github
  | google
  deriving DecidableEq

def UserSocialType.value : UserSocialType -> Text
  | github => "Github".toList
  | google => "Google".toList

structure UserSocial where
  sid : Text
  source : UserSocialType
  userId : Nat
  deriving DecidableEq

structure OAuthDb where
  admin : AdminDb
  socials : Table UserSocial
  /-- the names that `login_log_service.create` is queued with -/
  loginLogs : List Text

inductive StateInfo where
  | login
  | binding (userId : Nat)
  deriving DecidableEq

structure OAuthState where
  db : OAuthDb
  /-- the keys under `OAUTH2_STATE_REDIS_PREFIX` -/
  states : AList fun _ : Text => StateInfo

inductive OAuthError where
  /-- an error of the service, with its message -/
  | refused (e : AdminError)
  /-- an `IntegrityError` of the database -/
  | integrity
  /-- a `ValidationError` of a parameter -/
  | validation
  /-- the `AttributeError` of a user that is not there -/
  | attribute
  deriving DecidableEq

structure SocialProfile where
  sid : Text
  username : Option Text
  nickname : Option Text
  email : Option Text
  avatar : Option Text

structure OAuthEnv where
  /-- `validate_email(value)[1]`, if it does not raise -/
  validateEmail : Text -> Option Text
  /-- `str(HttpUrl(value))`, if it does not raise -/
  httpUrl : Text -> Option Text

/-- The ids of new rows and the texts of `text_captcha`. -/
structure Draws where
  userId : Nat
  socialId : Nat
  base : Text
  captchas : List Text

/-!
# Bindings

The table of bindings; its two unique constraints refuse a second row.
-/

namespace UserSocialDao

def checkBinding (t : Table UserSocial) (userId : Nat) (source : UserSocialType) :
    Option (Row UserSocial) :=
  t.getBy fun social => social.userId = userId && social.source = source

def getBySid (t : Table UserSocial) (sid : Text) (source : UserSocialType) :
    Option (Row UserSocial) :=
  t.getBy fun social => social.sid = sid && social.source = source

/-- The two unique constraints of the table refuse a second row. -/
def create (t : Table UserSocial) (newId : Nat) (obj : UserSocial) :
    Except OAuthError (Table UserSocial) :=
  if (checkBinding t obj.userId obj.source).isSome || (getBySid t obj.sid obj.source).isSome then
    .error .integrity
  else .ok (t.create newId obj)

def delete (t : Table UserSocial) (userId : Nat) (source : UserSocialType) : Table UserSocial :=
  t.deleteWhere fun social => social.userId = userId && social.source = source

def deleteByUserId (t : Table UserSocial) (userId : Nat) : Table UserSocial :=
  t.deleteWhere fun social => social.userId = userId

end UserSocialDao

/-!
# Users

A user who is made for an account has the first role that is enabled.  The database refuses a
second name or address, and a row without a nickname.
-/

/-- The row that `add_by_oauth2` adds. -/
def newUser (username nickname : Text) (email avatar : Option Text) : User where
  username := username
  nickname := nickname
  email := email
  avatar := avatar
  status := 1
  isSuperuser := false
  isStaff := true
  isMultiLogin := false
  deptId := none

def validated (validate : Text -> Option Text) (value : Option Text) :
    Except OAuthError (Option Text) :=
  match value with
  | none => .ok none
  | some value =>
      match validate value with
      | some value => .ok (some value)
      | none => .error .validation

def insertable (db : AdminDb) (username : Text) (email : Option Text) : Bool :=
  (db.users.getBy fun u => u.username = username).isNone &&
    email.all fun email => (db.users.getBy fun u => u.email = some email).isNone

/--
`add_by_oauth2`: the user gets the first role that is enabled.  The database refuses a row
without a nickname.
-/
def addByOauth2 (db : AdminDb) (newId : Nat) (username : Text)
    (nickname email avatar : Option Text) : Except OAuthError AdminDb :=
  match nickname with
  | none => .error .integrity
  | some nickname =>
      if !insertable db username email then
        .error .integrity
      else
        match db.roles.getBy fun role => role.status = 1 with
        | none => .error (.refused (.notFound "未找到可用角色，请联系系统管理员".toList))
        | some role =>
            .ok { db with
              users := db.users.create newId (newUser username nickname email avatar)
              userRole := db.userRole ++ [(newId, role.id)] }

def usernameCandidates (profile : SocialProfile) (draws : Draws) : List Text :=
  let base := (profile.username.filter fun name => !name.isEmpty).getD draws.base
  base :: draws.captchas.map fun captcha => base ++ ['_'] ++ captcha

def freeUsername (db : AdminDb) (candidates : List Text) : Option Text :=
  candidates.find? fun candidate => (db.users.getBy fun u => u.username = candidate).isNone

/-!
# The callback

The callback of a provider uses the state up, whatever becomes of the request.  An account that
is not bound belongs to the user with its address, or to a new one.
-/

def userOfEmail (db : AdminDb) (profile : SocialProfile) : Option (Row User) :=
  match profile.email.filter fun email => !email.isEmpty with
  | none => none
  | some email => db.users.getBy fun u => u.email = some email

/-- The user for an account that is not bound, with the name: by the address, or a new one. -/
def userFor (env : OAuthEnv) (db : AdminDb) (profile : SocialProfile) (draws : Draws) :
    Except OAuthError (AdminDb × Nat × Text) :=
  match userOfEmail db profile with
  | some user => .ok (db, user.id, user.value.username)
  | none => do
      match freeUsername db (usernameCandidates profile draws) with
      | none => throw (.refused (.conflict "用户名已存在，请重试".toList))
      | some username =>
          let email ← validated env.validateEmail
            (profile.email.filter fun email => !email.isEmpty)
          let avatar ← validated env.httpUrl profile.avatar
          let db ← addByOauth2 db draws.userId username profile.nickname email avatar
          return (db, draws.userId, username)

def setAvatar (db : AdminDb) (user : Row User) (avatar : Option Text) : AdminDb :=
  match avatar with
  | none => db
  | some avatar =>
      if (user.value.avatar.getD []).isEmpty then
        { db with users := db.users.update [user.id] fun u => { u with avatar := some avatar } }
      else db

/-- `login`: the database, and the user who gets the tokens. -/
def login (env : OAuthEnv) (db : OAuthDb) (source : UserSocialType) (profile : SocialProfile)
    (draws : Draws) : Except OAuthError (OAuthDb × Nat) :=
  match UserSocialDao.getBySid db.socials profile.sid source with
  | some social =>
      match db.admin.users.get social.value.userId with
      | none => .error .attribute
      | some user =>
          .ok ({ db with
            admin := setAvatar db.admin user profile.avatar
            loginLogs := db.loginLogs ++ [user.value.username] }, user.id)
  | none => do
      let (admin, userId, username) ← userFor env db.admin profile draws
      let socials ← UserSocialDao.create db.socials draws.socialId ⟨profile.sid, source, userId⟩
      return (⟨admin, socials, db.loginLogs ++ [username]⟩, userId)

def bindingWithOauth2 (db : OAuthDb) (userId : Nat) (sid : Text) (source : UserSocialType)
    (socialId : Nat) : Except OAuthError OAuthDb :=
  if (UserSocialDao.checkBinding db.socials userId source).isSome then
    .error (.refused (.request ("用户已绑定 ".toList ++ source.value ++ " 账号".toList)))
  else if (UserSocialDao.getBySid db.socials sid source).isSome then
    .error (.refused (.request ("该 ".toList ++ source.value ++ " 账号已被其他用户绑定".toList)))
  else do
    let socials ← UserSocialDao.create db.socials socialId ⟨sid, source, userId⟩
    return { db with socials := socials }

def useState (env : OAuthEnv) (db : OAuthDb) (source : UserSocialType) (profile : SocialProfile)
    (draws : Draws) : StateInfo -> Except OAuthError (OAuthDb × Option Nat)
  | .binding userId =>
      if userId = 0 then
        .error (.refused (.forbidden "非法操作，OAuth2 状态信息无效".toList))
      else do
        let db ← bindingWithOauth2 db userId profile.sid source draws.socialId
        return (db, none)
  | .login => do
      let (db, userId) ← login env db source profile draws
      return (db, some userId)

/-- `login_or_binding`: the state is used up, whatever becomes of the request. -/
def loginOrBinding (env : OAuthEnv) (s : OAuthState) (source : UserSocialType)
    (profile : SocialProfile) (state : Option Text) (draws : Draws) :
    OAuthState × Except OAuthError (Option Nat) :=
  match state.filter fun state => !state.isEmpty with
  | none => (s, .error (.refused (.forbidden "OAuth2 状态信息缺失".toList)))
  | some state =>
      match s.states.lookup state with
      | none => (s, .error (.refused (.forbidden "OAuth2 状态信息无效或缺失".toList)))
      | some info =>
          match useState env s.db source profile draws info with
          | .error e => ({ s with states := s.states.erase state }, .error e)
          | .ok (db, user) => (⟨db, s.states.erase state⟩, .ok user)

/-!
# Other requests

The requests that ask for links, unbind accounts, or administer the users: the deletion of a
user deletes the bindings of that user first.
-/

def unbinding (db : OAuthDb) (userId : Nat) (source : UserSocialType) :
    Except OAuthError OAuthDb :=
  match UserSocialDao.checkBinding db.socials userId source with
  | none =>
      .error (.refused (.notFound ("用户未绑定 ".toList ++ source.value ++ " 账号".toList)))
  | some _ => .ok { db with socials := UserSocialDao.delete db.socials userId source }

def OAuthDb.request (db : OAuthDb) (r : AdminRequest) : OAuthDb :=
  match r.perform db.admin with
  | .error _ => db
  | .ok out =>
      match r with
      | .deleteUser pk =>
          { db with admin := out.db, socials := UserSocialDao.deleteByUserId db.socials pk }
      | _ => { db with admin := out.db }

inductive OAuthAction where
  | request (r : AdminRequest)
  /-- the authorization link of a login, with the state that is drawn -/
  | loginUrl (state : Text)
  /-- `get_binding_auth_url` of the user who is logged in -/
  | bindingUrl (userId : Nat) (state : Text)
  | callback (source : UserSocialType) (profile : SocialProfile) (state : Option Text)
      (draws : Draws)
  | unbinding (userId : Nat) (source : UserSocialType)
  /-- a state expires -/
  | expire (state : Text)

/-- New ids are positive and not used in their tables. -/
def Draws.Fresh (draws : Draws) (db : OAuthDb) : Prop :=
  0 < draws.userId ∧ draws.userId ∉ db.admin.users.ids ∧
    0 < draws.socialId ∧ draws.socialId ∉ db.socials.ids

instance (draws : Draws) (db : OAuthDb) : Decidable (draws.Fresh db) :=
  inferInstanceAs (Decidable (_ ∧ _))

def step (env : OAuthEnv) (s : OAuthState) : OAuthAction -> Option OAuthState
  | .request r =>
      if r.FreshId s.db.admin then some { s with db := s.db.request r } else none
  | .loginUrl state =>
      if state ∈ s.states then none else some { s with states := s.states.insert state .login }
  | .bindingUrl userId state =>
      if state ∈ s.states then none
      else some { s with states := s.states.insert state (.binding userId) }
  | .callback source profile state draws =>
      if draws.Fresh s.db then some (loginOrBinding env s source profile state draws).1 else none
  | .unbinding userId source =>
      match unbinding s.db userId source with
      | .ok db => some { s with db := db }
      | .error _ => some s
  | .expire state => some { s with states := s.states.erase state }

def initial (db : AdminDb) : OAuthState :=
  ⟨⟨db, [], []⟩, ∅⟩

end OAuth2
end RagService
