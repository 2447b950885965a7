import RagService.Auth.Redis
import RagService.Foundation.Calls

/-!
# Failed logins

`user_verify` of one user over the two keys of the user in Redis: the count of failures and
the time until which the account is locked.  The times at which a call reads the clock, and
what the password check finds, are inputs of the call.
-/

namespace RagService

open Interleaving

structure LockSettings where
  /-- `USER_LOCK_THRESHOLD` -/
  threshold : Nat
  /-- `USER_LOCK_SECONDS` -/
  seconds : Nat

structure UserVerify where
  /-- the password is the right one -/
  right : Bool
  /-- `check_password_expiry_status` raises -/
  expired : Bool
  /-- the clock when `check_status` reads it -/
  checkedAt : Nat
  /-- the clock when `handle_login_failure` reads it -/
  failedAt : Nat
  deriving DecidableEq

inductive LockCommand where
  | getLock
  | setLock (lockedUntil : Nat)
  | deleteLock
  | getFailures
  | setFailures (count : Nat)
  | deleteFailures
  /-- `password_verify`, which is no command of Redis -/
  | verifyPassword

abbrev LockCommand.Result : LockCommand -> Type
  | getLock | getFailures => Option Nat
  | setLock _ | deleteLock | setFailures _ | deleteFailures | verifyPassword => Unit

abbrev lockInterface : Interface where
  Command := LockCommand
  Result := LockCommand.Result
  Error := AuthError

abbrev LockAction := Program lockInterface

structure LockKeys where
  lock : Option Nat
  failures : Option Nat
  deriving DecidableEq

def LockKeys.exec : (c : LockCommand) -> LockKeys -> LockKeys × Except AuthError c.Result
  | .getLock, s => (s, .ok s.lock)
  | .setLock lockedUntil, s => ({ s with lock := some lockedUntil }, .ok ())
  | .deleteLock, s => ({ s with lock := none }, .ok ())
  | .getFailures, s => (s, .ok s.failures)
  | .setFailures count, s => ({ s with failures := some count }, .ok ())
  | .deleteFailures, s => ({ s with failures := none }, .ok ())
  | .verifyPassword, s => (s, .ok ())

def lockCommand (c : LockCommand) : LockAction c.Result :=
  @Program.issue lockInterface c

/-- `from_str` of what `to_str` writes: the format ends with the seconds. -/
def readBack (time : Nat) : Nat :=
  time / 1000000 * 1000000

def remainingMinutes (lockedUntil now : Nat) : Nat :=
  (lockedUntil - now + 59999999) / 60000000

def lockedError (lockedUntil now : Nat) : AuthError :=
  .authorization ("账号已被锁定，请在 ".toList ++
    Nat.toDigits 10 (remainingMinutes lockedUntil now) ++ " 分钟后重试".toList)

namespace UserPasswordHistoryService

def checkStatus (userStatus now : Nat) : LockAction Unit := do
  if userStatus = 0 then
    Program.raise (.authorization "用户已被锁定, 请联系统管理员".toList)
  else
    match ← lockCommand .getLock with
    | some lockedUntil =>
        if now < lockedUntil then
          Program.raise (lockedError lockedUntil now)
        else
          lockCommand .deleteLock
          lockCommand .deleteFailures
    | none => return ()

def handleLoginFailure (cfg : LockSettings) (now : Nat) : LockAction Unit := do
  if cfg.threshold = 0 then
    return ()
  else
    let stored ← lockCommand .getFailures
    let failureCount := stored.getD 0 + 1
    lockCommand (.setFailures failureCount)
    if cfg.threshold ≤ failureCount then
      lockCommand (.setLock (readBack (now + cfg.seconds * 1000000)))
      Program.raise (.authorization "登录失败次数过多，账号已被锁定".toList)
    else
      return ()

def handleLoginSuccess : LockAction Unit := do
  lockCommand .deleteLock
  lockCommand .deleteFailures

end UserPasswordHistoryService

open UserPasswordHistoryService

/-- `AuthService.user_verify` for a user with this status. -/
def AuthService.userVerify (cfg : LockSettings) (userStatus : Nat) (op : UserVerify) :
    LockAction Unit := do
  checkStatus userStatus op.checkedAt
  lockCommand .verifyPassword
  if op.right then
    if op.expired then
      Program.raise (.authorization "密码已过期，请修改密码后重新登录".toList)
    else
      handleLoginSuccess
  else
    handleLoginFailure cfg op.failedAt
    Program.raise (.authorization "用户名或密码有误".toList)

inductive VerifyProgress where
  | checking
  /-- `check_status` has found the account locked -/
  | rejected
  /-- `check_status` has found a lock whose time is over -/
  | lapsed
  | verified
  /-- the count is set -/
  | counted (count : Nat)
  | locked
  deriving DecidableEq

def VerifyProgress.next (op : UserVerify) (g : VerifyProgress) :
    (c : LockCommand) -> Except AuthError c.Result -> VerifyProgress
  | .getLock, .ok (some lockedUntil) => if op.checkedAt < lockedUntil then rejected else lapsed
  | .verifyPassword, _ => verified
  | .setFailures count, _ => counted count
  | .setLock _, _ => locked
  | _, _ => g

/-- The calls for one user, interleaved. -/
def verifyCalls (cfg : LockSettings) (userStatus : Nat) :
    CallSystem lockInterface LockKeys UserVerify Unit VerifyProgress where
  exec := LockKeys.exec
  body := AuthService.userVerify cfg userStatus
  start := .checking
  next := VerifyProgress.next

end RagService
