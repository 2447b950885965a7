import RagService.Admin.Services
import RagService.Foundation.Json
import RagService.Foundation.Sorting

/-!
# Passwords and their history

`validate_new_password`, and the services that change a password.  The users are their
passwords here, and a request commits its database or raises and changes nothing.
-/

namespace RagService
namespace Passwords

open Admin

/-!
# Tables

The tables `sys_user` and `sys_user_password_history`, with the next id of each.  How passwords
are hashed is a parameter.
-/

structure Account where
  password : Option Text
  deriving DecidableEq

structure PasswordHistory where
  id : Nat
  userId : Nat
  password : Text
  deriving DecidableEq

structure PasswordDb where
  users : Table Account
  history : List PasswordHistory
  nextUser : Nat
  nextHistory : Nat

structure PasswordHash where
  hash : Text -> Bytes -> Text
  verify : Text -> Text -> Bool

structure PasswordSettings where
  minLength : Int
  maxLength : Int
  requireSpecialChar : Bool
  historyCheckCount : Int

inductive PasswordError where
  /-- An error of `errors` -/
  | raised (e : AdminError)
  /-- The `AttributeError` of a user that is not found -/
  | attribute
  /-- The `ValidationError` of a history without a password -/
  | validation

/-!
# Validation

The checks of a new password in their order: its length, its characters, then the last
passwords of the user, the last one first.
-/

/-- `re.search(r'\d', value)` -/
def isHasNumber (value : Text) : Bool :=
  value.any Text.isDecimal

/-- `re.search(r'[a-zA-Z]', value)` -/
def isHasLetter (value : Text) : Bool :=
  value.any fun c => ('a' ≤ c && c ≤ 'z') || ('A' ≤ c && c ≤ 'Z')

def specialChars : Text :=
  "!@#$%^&*()_+-=[]\x7b\x7d;:'\",.<>?/\\|`~".toList

def isHasSpecialChar (value : Text) : Bool :=
  value.any fun c => c ∈ specialChars

def getByUserId (db : PasswordDb) (userId : Nat) : List PasswordHistory :=
  (Sorting.sortOn PasswordHistory.id (db.history.filter fun row => row.userId = userId)).reverse

/-- `items[:n]` -/
def sliceTo {α : Type} (items : List α) (n : Int) : List α :=
  items.take (if 0 ≤ n then n.toNat else items.length - n.natAbs)

def request (msg : Text) : PasswordError :=
  .raised (.request msg)

def refuse (check : Bool) (e : PasswordError) : Except PasswordError Unit :=
  if check then .error e else .ok ()

def validateNewPassword (hasher : PasswordHash) (settings : PasswordSettings) (db : PasswordDb)
    (userId : Nat) (newPassword : Text) : Except PasswordError Unit := do
  refuse ((newPassword.length : Int) < settings.minLength)
    (request ("密码长度不能少于 ".toList ++ Json.dumpInt settings.minLength ++ " 个字符".toList))
  refuse (settings.maxLength < (newPassword.length : Int))
    (request ("密码长度不能超过 ".toList ++ Json.dumpInt settings.maxLength ++ " 个字符".toList))
  refuse (!isHasNumber newPassword) (request "密码必须包含数字".toList)
  refuse (!isHasLetter newPassword) (request "密码必须包含字母".toList)
  refuse (settings.requireSpecialChar && !isHasSpecialChar newPassword)
    (request "密码必须包含特殊字符（如：!@#$%）".toList)
  refuse ((sliceTo (getByUserId db userId) settings.historyCheckCount).any fun hist =>
      hasher.verify newPassword hist.password)
    (request ("新密码不能与最近 ".toList ++ Json.dumpInt settings.historyCheckCount ++
      " 次使用的密码相同".toList))

/-!
# Changing a password

A change of the password writes the old one into the history.  The old one is read from the
user as it was loaded, which the update refreshes or not.
-/

def add (hasher : PasswordHash) (db : PasswordDb) (password : Text) (salt : Bytes) : PasswordDb :=
  { db with
    users := db.users.create db.nextUser { password := some (hasher.hash password salt) }
    nextUser := db.nextUser + 1 }

def addByOauth2 (db : PasswordDb) : PasswordDb :=
  { db with
    users := db.users.create db.nextUser { password := none }
    nextUser := db.nextUser + 1 }

def savePasswordHistory (db : PasswordDb) (userId : Nat) (password : Option Text) :
    Except PasswordError PasswordDb :=
  match password with
  | none => .error .validation
  | some password =>
      .ok { db with
        history := db.history ++ [⟨db.nextHistory, userId, password⟩]
        nextHistory := db.nextHistory + 1 }

/--
`user_dao.reset_password` and the history after it.  The password that is saved is read from the
user as it was loaded, which the update refreshes or not.
-/
def changePassword (hasher : PasswordHash) (refreshes : Bool) (db : PasswordDb)
    (user : Row Account) (password : Text) (salt : Bytes) : Except PasswordError PasswordDb :=
  let newPwd := hasher.hash password salt
  savePasswordHistory
    { db with users := db.users.update [user.id] fun account =>
        { account with password := some newPwd } }
    user.id (if refreshes then some newPwd else user.value.password)

def resetPassword (hasher : PasswordHash) (refreshes : Bool) (settings : PasswordSettings)
    (db : PasswordDb) (pk : Nat) (password : Text) (salt : Bytes) :
    Except PasswordError PasswordDb :=
  match db.users.get pk with
  | none => .error (.raised (.notFound "用户不存在".toList))
  | some user => do
      validateNewPassword hasher settings db user.id password
      changePassword hasher refreshes db user password salt

structure ResetPasswordParam where
  oldPassword : Text
  newPassword : Text
  confirmPassword : Text

/-- `user.password and not password_verify(old_password, user.password)` -/
def wrongPassword (hasher : PasswordHash) (user : Account) (oldPassword : Text) : Bool :=
  match user.password with
  | none | some [] => false
  | some password => !hasher.verify oldPassword password

def updatePassword (hasher : PasswordHash) (refreshes : Bool) (settings : PasswordSettings)
    (db : PasswordDb) (userId : Nat) (obj : ResetPasswordParam) (salt : Bytes) :
    Except PasswordError PasswordDb :=
  match db.users.get userId with
  | none => .error .attribute
  | some user => do
      refuse (wrongPassword hasher user.value obj.oldPassword) (request "原密码错误".toList)
      refuse (obj.newPassword ≠ obj.confirmPassword) (request "两次密码输入不一致".toList)
      validateNewPassword hasher settings db userId obj.newPassword
      changePassword hasher refreshes db user obj.newPassword salt

def delete (db : PasswordDb) (pk : Nat) : Except PasswordError PasswordDb :=
  match db.users.get pk with
  | none => .error (.raised (.notFound "用户不存在".toList))
  | some user => .ok { db with users := db.users.delete [user.id] }

/-!
# Requests

The requests that set passwords, each with the database that it leaves.
-/

inductive PasswordRequest where
  | add (password : Text) (salt : Bytes)
  | addByOauth2
  | resetPassword (pk : Nat) (password : Text) (salt : Bytes)
  | updatePassword (userId : Nat) (obj : ResetPasswordParam) (salt : Bytes)
  | delete (pk : Nat)

def perform (hasher : PasswordHash) (refreshes : Bool) (settings : PasswordSettings)
    (db : PasswordDb) : PasswordRequest -> Except PasswordError PasswordDb
  | .add password salt => .ok (add hasher db password salt)
  | .addByOauth2 => .ok (addByOauth2 db)
  | .resetPassword pk password salt =>
      resetPassword hasher refreshes settings db pk password salt
  | .updatePassword userId obj salt =>
      updatePassword hasher refreshes settings db userId obj salt
  | .delete pk => delete db pk

/-- The user whose password a request changes, and the new password. -/
def PasswordRequest.changes : PasswordRequest -> Option (Nat × Text)
  | resetPassword pk password _ => some (pk, password)
  | updatePassword userId obj _ => some (userId, obj.newPassword)
  | _ => none

end Passwords
end RagService
