import Mathlib.Data.List.AList
import RagService.Foundation.Json
import RagService.Foundation.Maps
import RagService.Redis.Prefix

/-!
# Redis and the users

The keys that sessions have in Redis, the rows of `sys_user`, and the commands that the
services issue on both.  No key lapses.
-/

namespace RagService

open Interleaving

inductive AuthError where
  | token (msg : Text)
  | request (msg : Text)
  | notFound (msg : Text)
  | authorization (msg : Text)
  | forbidden (msg : Text)
  /-- `AttributeError` of `None` -/
  | attribute
  deriving DecidableEq

/-- A token is its payload: `jwt_encode` gives different payloads different strings. -/
structure Token where
  sessionUuid : Text
  exp : Nat
  sub : Nat
  deriving DecidableEq

structure User where
  id : Nat
  username : Text
  nickname : Text
  status : Nat
  isMultiLogin : Bool
  lastLoginTime : Option Nat
  deleted : Nat
  deriving DecidableEq

/-!
# Keys

The prefixes of `settings` are families of keys, none of which is a prefix of another up to the
colon.  A scan finds the keys of one family and one user.
-/

/-- The key prefixes of `settings`; none is a prefix of another up to the colon. -/
inductive KeyFamily where
  | token
  | tokenExtraInfo
  | refreshToken
  | jwtUser
  deriving DecidableEq

/-- `family:user_id:session_uuid`, or `family:user_id` -/
structure Key where
  family : KeyFamily
  userId : Nat
  sessionUuid : Option Text
  deriving DecidableEq

inductive Value where
  | token (t : Token)
  | text (s : Text)
  deriving DecidableEq

abbrev Redis := AList fun _ : Key => Value

namespace Redis

def delete (redis : Redis) (keys : List Key) : Redis :=
  keys.foldl (fun r key => r.erase key) redis

/-- The keys that match `family:user_id:*`. -/
def scan (redis : Redis) (family : KeyFamily) (userId : Nat) : List Key :=
  redis.keys.filter fun key =>
    key.family = family && key.userId = userId && key.sessionUuid.isSome

theorem lookup_delete (redis : Redis) (keys : List Key) (key : Key) :
    (redis.delete keys).lookup key = if key ∈ keys then none else redis.lookup key :=
  lookup_eraseAll redis keys key

theorem lookup_delete_of_mem {redis : Redis} {keys : List Key} {key : Key} (h : key ∈ keys) :
    (redis.delete keys).lookup key = none := by
  rw [lookup_delete, if_pos h]

theorem lookup_of_delete {redis : Redis} {keys : List Key} {key : Key} {value : Value}
    (h : (redis.delete keys).lookup key = some value) : redis.lookup key = some value :=
  (lookup_of_eraseAll h).2

theorem mem_scan {redis : Redis} {family : KeyFamily} {userId : Nat} {key : Key} :
    key ∈ redis.scan family userId ↔
      key ∈ redis ∧ key.family = family ∧ key.userId = userId ∧ key.sessionUuid.isSome := by
  simp [scan, AList.mem_keys, and_assoc]

end Redis

/-!
# Commands

The commands that the services issue, on Redis and on the table `sys_user`.
-/

inductive AuthCommand where
  | get (key : Key)
  | set (key : Key) (value : Value)
  | delete (keys : List Key)
  | exists (key : Key)
  /-- `scan_iter` with the pattern `family:user_id:*` -/
  | scanIter (family : KeyFamily) (userId : Nat) (count : Option Nat)
  /-- `user_dao.get` -/
  | getUser (id : Nat)
  /-- `user_dao.get_by_username` -/
  | getUserByUsername (username : Text)
  /-- `user_dao.update_login_time` -/
  | updateLoginTime (username : Text) (now : Nat)
  /-- `db.refresh` -/
  | refreshUser (id : Nat)
  /-- `user_dao.delete`, without the rows of the join table -/
  | deleteUser (id : Nat)

def AuthCommand.Result : AuthCommand -> Type
  | get _ => Option Value
  | set _ _ => Unit
  | delete _ => Unit
  | «exists» _ => Bool
  | scanIter _ _ _ => List Key
  | getUser _ => Option User
  | getUserByUsername _ => Option User
  | updateLoginTime _ _ => Nat
  | refreshUser _ => Option User
  | deleteUser _ => Nat

def authInterface : Interface where
  Command := AuthCommand
  Result := AuthCommand.Result
  Error := AuthError

structure AuthState where
  redis : Redis
  users : List User

namespace AuthState

def updateUsers (s : AuthState) (p : User -> Bool) (f : User -> User) : AuthState :=
  { s with users := s.users.map fun u => if p u then f u else u }

def liveUser (s : AuthState) (id : Nat) : Option User :=
  s.users.find? fun u => u.id = id && u.deleted = 0

def liveUserByUsername (s : AuthState) (username : Text) : Option User :=
  s.users.find? fun u => u.username = username && u.deleted = 0

def exec : (c : AuthCommand) -> AuthState -> AuthState × Except AuthError c.Result
  | .get key, s => (s, .ok (s.redis.lookup key))
  | .set key value, s => ({ s with redis := s.redis.insert key value }, .ok ())
  | .delete keys, s => ({ s with redis := s.redis.delete keys }, .ok ())
  | .exists key, s => (s, .ok (decide (key ∈ s.redis)))
  | .scanIter family userId _, s => (s, .ok (s.redis.scan family userId))
  | .getUser id, s => (s, .ok (s.liveUser id))
  | .getUserByUsername username, s => (s, .ok (s.liveUserByUsername username))
  | .updateLoginTime username now, s =>
      ((s.updateUsers (fun u => u.username = username && u.deleted = 0)
          fun u => { u with lastLoginTime := some now }),
        .ok (s.users.countP fun u => u.username = username && u.deleted = 0))
  | .refreshUser id, s => (s, .ok (s.users.find? fun u => u.id = id))
  | .deleteUser id, s =>
      ((s.updateUsers (fun u => u.id = id && u.deleted = 0)
          fun u => { u with deleted := u.id }),
        .ok (s.users.countP fun u => u.id = id && u.deleted = 0))

theorem liveUser_mem {s : AuthState} {id : Nat} {user : User} (h : s.liveUser id = some user) :
    user ∈ s.users ∧ user.id = id := by
  have hfound := List.find?_some h
  simp only [Bool.and_eq_true, decide_eq_true_eq] at hfound
  exact ⟨List.mem_of_find?_eq_some h, hfound.1⟩

end AuthState
end RagService
