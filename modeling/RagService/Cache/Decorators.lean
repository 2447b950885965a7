import RagService.Cache.Store

/-!
# The decorators

`cached` and `cache_invalidate`, and the call of a service in its transaction.
-/

namespace RagService
namespace Cache

open Interleaving

variable {Process Database Data : Type}

abbrev CacheAction (Process Database Data : Type) := Program (cacheInterface Process Database Data)

namespace CacheAction

variable {α : Type}

def raise (e : CacheError) : CacheAction Process Database Data α :=
  Program.raise (I := cacheInterface Process Database Data) e

def localGet (p : Process) (key : Text) : CacheAction Process Database Data (Option Data) :=
  Program.issue (I := cacheInterface Process Database Data) (.localGet p key)
def localSet (p : Process) (key : Text) (value : Option Data) :
    CacheAction Process Database Data Unit :=
  Program.issue (I := cacheInterface Process Database Data) (.localSet p key value)
def localDelete (p : Process) (key : Text) : CacheAction Process Database Data Unit :=
  Program.issue (I := cacheInterface Process Database Data) (.localDelete p key)
def localDeleteByPrefix (p : Process) (keyPrefix : Text) :
    CacheAction Process Database Data Unit :=
  Program.issue (I := cacheInterface Process Database Data) (.localDeleteByPrefix p keyPrefix)
def publish (message : Invalidation) : CacheAction Process Database Data Unit :=
  Program.issue (I := cacheInterface Process Database Data) (.publish message)
def get (key : Text) : CacheAction Process Database Data (Option Text) :=
  Program.issue (I := cacheInterface Process Database Data) (.get key)
def set (key value : Text) : CacheAction Process Database Data Unit :=
  Program.issue (I := cacheInterface Process Database Data) (.set key value)
def delete (keys : List Text) : CacheAction Process Database Data Unit :=
  Program.issue (I := cacheInterface Process Database Data) (.delete keys)
def «exists» (key : Text) : CacheAction Process Database Data Bool :=
  Program.issue (I := cacheInterface Process Database Data) (.exists key)
def scanIter (keyPrefix : Text) : CacheAction Process Database Data (List Text) :=
  Program.issue (I := cacheInterface Process Database Data) (.scanIter keyPrefix)
def query (key : Text) : CacheAction Process Database Data (Option Data) :=
  Program.issue (I := cacheInterface Process Database Data) (.query key)
def commit (write : Database -> Database) : CacheAction Process Database Data Unit :=
  Program.issue (I := cacheInterface Process Database Data) (.commit write)

/-- `try`, with the exception as a value. -/
def attempt (p : CacheAction Process Database Data α) :
    CacheAction Process Database Data (Except CacheError α) :=
  Program.outcome (I := cacheInterface Process Database Data) p

def ofExcept : Except CacheError α -> CacheAction Process Database Data α
  | .ok a => .ret a
  | .error e => raise e

end CacheAction

open CacheAction

/-- `_build_cache_key`, from the value that `key` or `key_builder` gives when there is one. -/
def buildCacheKey (ns : Text) (value : Option (Except CacheError Text)) :
    Except CacheError Text :=
  match value with
  | some value => value.map fun v => ns ++ ':' :: v
  | none => .ok ns

/-!
# Reads

The wrapper of `cached` in its stages: the first level, which misses when it is switched off,
then Redis, then the wrapped function, whose result is put into both levels.
-/

/-- What `cached` does with a result that the wrapped function has returned. -/
def refill (cfg : CacheSettings Database Data) (p : Process) (cacheKey : Text) (result : Data) :
    CacheAction Process Database Data Unit :=
  match cfg.serialize result with
  | none => raise .encode
  | some serializedResult => do
      if cfg.localEnabled then
        localSet p cacheKey (cfg.deserialize serializedResult)
      set cacheKey serializedResult

/-- The wrapper of `cached` after both levels have missed. -/
def readThrough (cfg : CacheSettings Database Data) (p : Process) (cacheKey : Text) :
    CacheAction Process Database Data (Option Data) := do
  let result ← query cacheKey
  match result with
  | none => return none
  | some result => do
      let _ ← attempt (refill cfg p cacheKey result)
      return some result

/-- The wrapper of `cached` after the first level has missed. -/
def readRedis (cfg : CacheSettings Database Data) (p : Process) (cacheKey : Text) :
    CacheAction Process Database Data (Option Data) := do
  let redisValue ← attempt (get cacheKey)
  match redisValue with
  | .ok (some redisValue) => do
      if cfg.localEnabled then
        localSet p cacheKey (cfg.deserialize redisValue)
      return cfg.deserialize redisValue
  | .ok none | .error _ => readThrough cfg p cacheKey

def readLocal (cfg : CacheSettings Database Data) (p : Process) (cacheKey : Text) :
    CacheAction Process Database Data (Option Data) :=
  if cfg.localEnabled then localGet p cacheKey else pure none

def cached (cfg : CacheSettings Database Data) (p : Process)
    (value : Option (Except CacheError Text)) :
    CacheAction Process Database Data (Option Data) := do
  let cacheKey ← ofExcept (buildCacheKey cfg.ns value)
  let localValue ← readLocal cfg p cacheKey
  match localValue with
  | some localValue => return some localValue
  | none => readRedis cfg p cacheKey

/-!
# Invalidations

The wrapper of `cache_invalidate` calls the wrapped function and then clears the keys in both
levels and tells the other nodes; `publish_invalidation` lets no exception out.
-/

def publishInvalidation (cacheKey : Text) (deleteByPrefix : Bool) :
    CacheAction Process Database Data Unit := do
  let _ ← attempt (publish ⟨cacheKey, deleteByPrefix⟩)

def deleteByPrefix (keyPrefix : Text) (excludeKeys : List Text) (batchSize : Nat) :
    CacheAction Process Database Data Unit :=
  RedisCli.deleteByPrefix «exists» (scanIter keyPrefix) delete keyPrefix excludeKeys batchSize

def invalidateLocal (cfg : CacheSettings Database Data) (p : Process) (invalidateKey : Text) :
    CacheAction Process Database Data Unit :=
  if cfg.localEnabled then
    if invalidateKey = cfg.ns then localDeleteByPrefix p invalidateKey
    else localDelete p invalidateKey
  else pure ()

def announce (cfg : CacheSettings Database Data) (invalidateKey : Text) :
    CacheAction Process Database Data Unit :=
  if cfg.localEnabled then publishInvalidation invalidateKey (decide (invalidateKey = cfg.ns))
  else pure ()

def invalidateRedis (cfg : CacheSettings Database Data) (invalidateKey : Text) :
    CacheAction Process Database Data Unit :=
  if invalidateKey = cfg.ns then deleteByPrefix invalidateKey [] 1000
  else delete [invalidateKey]

/-- What the wrapper of `cache_invalidate` does after the wrapped function. -/
def invalidate (cfg : CacheSettings Database Data) (p : Process)
    (value : Option (Except CacheError Text)) : CacheAction Process Database Data Unit := do
  let invalidateKey ← ofExcept (buildCacheKey cfg.ns value)
  invalidateLocal cfg p invalidateKey
  announce cfg invalidateKey
  invalidateRedis cfg invalidateKey

def cacheInvalidate {α : Type} (cfg : CacheSettings Database Data) (p : Process)
    (value : Option (Except CacheError Text)) (atomic : Bool)
    (func : CacheAction Process Database Data α) : CacheAction Process Database Data α := do
  let result ← func
  let invalidated ← attempt (invalidate cfg p value)
  match invalidated with
  | .ok _ => return result
  | .error _ =>
      if atomic then raise (.server "缓存失效失败，数据可能不一致".toList)
      else return result

/--
A service that is wrapped by `cache_invalidate` and called in a transaction: the writes
of the service are seen by others at the commit.
-/
def invalidatingService (cfg : CacheSettings Database Data) (p : Process)
    (value : Option (Except CacheError Text)) (atomic : Bool)
    (written : Except CacheError Unit) (write : Database -> Database) :
    CacheAction Process Database Data Unit := do
  let done ← attempt (cacheInvalidate cfg p value atomic (ofExcept written))
  match done with
  | .ok _ => commit write
  | .error e => raise e

end Cache
end RagService
