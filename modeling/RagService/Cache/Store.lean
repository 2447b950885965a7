import RagService.Foundation.Maps
import RagService.Foundation.Text
import RagService.Redis.Prefix

/-!
# The two levels of the cache

The hot cache of each process, Redis, the invalidation channel and the database, with the
commands that the decorators issue on them.  Redis may be out of reach for a while.
-/

namespace RagService
namespace Cache

open Interleaving

inductive CacheError where
  /-- the connection to Redis -/
  | redis
  /-- `errors.ServerError` -/
  | server (msg : Text)
  /-- a result that is not serializable -/
  | encode
  /-- what the wrapped function raises -/
  | raised (msg : Text)
  deriving DecidableEq

structure Invalidation where
  cacheKey : Text
  deleteByPrefix : Bool
  deriving DecidableEq

/-- `hot_cache`: a value may be `None`. -/
abbrev HotCache (Data : Type) := AList fun _ : Text => Option Data

abbrev Redis := AList fun _ : Text => Text

def hasPrefix (keyPrefix key : Text) : Bool :=
  key = keyPrefix || (keyPrefix ++ [':']).isPrefixOf key

namespace HotCache

variable {Data : Type}

/-- `None` when there is no entry, and when the entry is `None`. -/
def get (hot : HotCache Data) (key : Text) : Option Data :=
  (hot.lookup key).join

def deleteByPrefix (hot : HotCache Data) (keyPrefix : Text) (excludeKeys : List Text) :
    HotCache Data :=
  eraseAll hot (hot.keys.filter fun key => hasPrefix keyPrefix key && key ∉ excludeKeys)

def handle (hot : HotCache Data) (message : Invalidation) : HotCache Data :=
  if message.deleteByPrefix then hot.deleteByPrefix message.cacheKey []
  else hot.erase message.cacheKey

end HotCache

def Invalidation.covers (message : Invalidation) (key : Text) : Bool :=
  if message.deleteByPrefix then hasPrefix message.cacheKey key else key = message.cacheKey

theorem HotCache.lookup_of_deleteByPrefix {Data : Type} {hot : HotCache Data}
    {keyPrefix key : Text} {value : Option Data}
    (h : (hot.deleteByPrefix keyPrefix []).lookup key = some value) :
    hasPrefix keyPrefix key = false ∧ hot.lookup key = some value := by
  rcases lookup_of_eraseAll h with ⟨hkey, hvalue⟩
  constructor
  · apply Bool.eq_false_iff.mpr
    intro hcovers
    apply hkey
    apply List.mem_filter.mpr
    constructor
    · exact AList.mem_keys.mp (AList.lookup_isSome.mp (Option.isSome_iff_exists.mpr ⟨_, hvalue⟩))
    · simp [hcovers]
  · exact hvalue

theorem HotCache.lookup_of_handle {Data : Type} {hot : HotCache Data} {message : Invalidation}
    {key : Text} {value : Option Data} (h : (hot.handle message).lookup key = some value) :
    message.covers key = false ∧ hot.lookup key = some value := by
  unfold HotCache.handle at h
  unfold Invalidation.covers
  split at h
  · rename_i hprefix
    rw [if_pos hprefix]
    exact HotCache.lookup_of_deleteByPrefix h
  · rename_i hprefix
    rw [if_neg hprefix]
    rcases lookup_of_erase h with ⟨hne, hvalue⟩
    exact ⟨decide_eq_false hne, hvalue⟩

/-!
# Commands

A command on Redis raises when Redis is out of reach.  The messages on their way to a listener
are in flight until it takes them, and lost when it is not connected.
-/

variable {Process Database Data : Type}

inductive CacheCommand (Process Database Data : Type) where
  /-- `local_cache_manager`, of the process -/
  | localGet (p : Process) (key : Text)
  | localSet (p : Process) (key : Text) (value : Option Data)
  | localDelete (p : Process) (key : Text)
  | localDeleteByPrefix (p : Process) (keyPrefix : Text)
  /-- `redis_client` -/
  | publish (message : Invalidation)
  | get (key : Text)
  | set (key value : Text)
  | delete (keys : List Text)
  | exists (key : Text)
  /-- `scan_iter` with the pattern `prefix:*` -/
  | scanIter (keyPrefix : Text)
  /-- the wrapped function reads the database -/
  | query (key : Text)
  /-- the caller's transaction commits what it has written -/
  | commit (write : Database -> Database)

def CacheCommand.Result : CacheCommand Process Database Data -> Type
  | localGet _ _ => Option Data
  | get _ => Option Text
  | «exists» _ => Bool
  | scanIter _ => List Text
  | query _ => Option Data
  | localSet _ _ _ | localDelete _ _ | localDeleteByPrefix _ _ => Unit
  | publish _ | set _ _ | delete _ | commit _ => Unit

def cacheInterface (Process Database Data : Type) : Interface where
  Command := CacheCommand Process Database Data
  Result := CacheCommand.Result
  Error := CacheError

/-- The settings, the wrapped function by its keys, and how its results are stored. -/
structure CacheSettings (Database Data : Type) where
  ns : Text
  localEnabled : Bool
  /-- `_serialize_result`, which may raise -/
  serialize : Data -> Option Text
  /-- `_deserialize_result` -/
  deserialize : Text -> Option Data
  func : Text -> Database -> Except CacheError (Option Data)

structure CacheState (Process Database Data : Type) where
  db : Database
  redis : Redis
  redisUp : Bool
  hotCache : Process -> HotCache Data
  /-- the listener of a process, with the messages to it, when it is connected -/
  listeners : Process -> Option (List Invalidation)

namespace CacheState

def inFlight (s : CacheState Process Database Data) (p : Process) : List Invalidation :=
  (s.listeners p).getD []

variable [DecidableEq Process]

def updateHotCache (s : CacheState Process Database Data) (p : Process)
    (f : HotCache Data -> HotCache Data) : CacheState Process Database Data :=
  { s with hotCache := Function.update s.hotCache p (f (s.hotCache p)) }

def publish (s : CacheState Process Database Data) (message : Invalidation) :
    CacheState Process Database Data :=
  { s with listeners := fun p => (s.listeners p).map (· ++ [message]) }

def setListener (s : CacheState Process Database Data) (p : Process)
    (messages : Option (List Invalidation)) : CacheState Process Database Data :=
  { s with listeners := Function.update s.listeners p messages }

def onRedis {α : Type} (s s' : CacheState Process Database Data) (a : α) :
    CacheState Process Database Data × Except CacheError α :=
  if s.redisUp then (s', .ok a) else (s, .error .redis)

def exec (cfg : CacheSettings Database Data) :
    (c : CacheCommand Process Database Data) -> CacheState Process Database Data ->
      CacheState Process Database Data × Except CacheError c.Result
  | .localGet p key, s => (s, .ok ((s.hotCache p).get key))
  | .localSet p key value, s => (s.updateHotCache p (·.insert key value), .ok ())
  | .localDelete p key, s => (s.updateHotCache p (·.erase key), .ok ())
  | .localDeleteByPrefix p keyPrefix, s =>
      (s.updateHotCache p (·.deleteByPrefix keyPrefix []), .ok ())
  | .publish message, s => s.onRedis (s.publish message) ()
  | .get key, s => s.onRedis s (s.redis.lookup key)
  | .set key value, s => s.onRedis { s with redis := s.redis.insert key value } ()
  | .delete keys, s => s.onRedis { s with redis := eraseAll s.redis keys } ()
  | .exists key, s => s.onRedis s (decide (key ∈ s.redis))
  | .scanIter keyPrefix, s =>
      s.onRedis s (s.redis.keys.filter fun key => (keyPrefix ++ [':']).isPrefixOf key)
  | .query key, s => (s, cfg.func key s.db)
  | .commit write, s => ({ s with db := write s.db }, .ok ())

end CacheState
end Cache
end RagService
