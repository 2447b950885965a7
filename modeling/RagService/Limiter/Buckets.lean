import Mathlib.Data.List.Sort
import RagService.Foundation.Calls
import RagService.Foundation.Dicts
import RagService.Foundation.Text

/-!
# Buckets of the rate limiter

`RedisBucketFactory` of several processes: a cache of buckets in each of them, and the
items of the buckets in Redis.  An item is its timestamp.
-/

namespace RagService

open Interleaving

structure Rate where
  limit : Nat
  interval : Nat
  deriving DecidableEq

/-- `max(rate.interval for rate in rates)` -/
def largestInterval (rates : List Rate) : Nat :=
  rates.foldr (fun rate longest => max rate.interval longest) 0

/-- What `RedisBucket` does with the items under its key. -/
structure RedisBucket (rates : List Rate) where
  admits : List Nat -> Nat -> Bool
  leak : List Nat -> Nat -> List Nat
  /-- with the new item, the items newer than an interval ago stay within the limit -/
  admits_iff : forall items timestamp, admits items timestamp = true ↔
    forall rate, rate ∈ rates ->
      items.countP (fun item => timestamp < item + rate.interval) + 1 ≤ rate.limit
  /-- only items older than the largest interval are removed -/
  leak_old : forall (items : List Nat) (now : Nat), exists old : List Nat,
    items.Perm (leak items now ++ old) ∧ forall item, item ∈ old -> item + largestInterval rates ≤ now

structure LimiterSettings where
  /-- `sha256(data).hexdigest()` -/
  sha256 : Bytes -> Text
  bucketKey : Text
  rates : List Rate
  maxCacheSize : Nat -> Nat

structure RedisTimeBucket where
  bucketKey : Text
  deriving DecidableEq

structure RedisBucketState where
  bucket : RedisTimeBucket
  lastSeen : Nat
  deriving DecidableEq

def bucketCacheBufferMs : Nat := 10000

namespace LimiterSettings

def rateKey (settings : LimiterSettings) : Text :=
  settings.sha256 (Text.encode (Text.join [':']
    ((settings.rates.insertionSort fun a b => a.interval ≤ b.interval).map fun rate =>
      Text.decimal rate.limit ++ [':'] ++ Text.decimal rate.interval)))

/-- `_bucket_key` -/
def keyOf (settings : LimiterSettings) (name : Text) : Text :=
  settings.bucketKey ++ [':'] ++ settings.rateKey ++ [':'] ++ settings.sha256 (Text.encode name)

def cacheTtl (settings : LimiterSettings) : Nat :=
  largestInterval settings.rates + bucketCacheBufferMs

def cacheSize (settings : LimiterSettings) (process : Nat) : Nat :=
  max 1 (settings.maxCacheSize process)

end LimiterSettings

/-!
# Commands

The commands on Redis and the clock raise nothing.  Some items may be in Redis when the
processes start.
-/

inductive LimiterCommand where
  /-- time goes by -/
  | pass (ms : Nat)
  /-- `_redis_time_ms` -/
  | time
  /-- `async with self.lock` -/
  | acquire (process : Nat)
  | release (process : Nat)
  /-- `self.buckets.get`, and when it is there, its new place and `last_seen` -/
  | find (process : Nat) (key : Text) (now : Nat)
  | insert (process : Nat) (key : Text) (state : RedisBucketState)
  /-- `list(self.buckets.items())` -/
  | items (process : Nat)
  | pop (process : Nat) (key : Text)
  /-- the oldest buckets leave until no more than `max_cache_size` are there -/
  | trim (process : Nat)
  | put (key : Text) (timestamp : Nat)
  | leak (key : Text) (now : Nat)
  | count (key : Text)
  | flush (key : Text)

abbrev LimiterCommand.Result : LimiterCommand -> Type
  | time | count _ => Nat
  | find _ _ _ => Option RedisTimeBucket
  | items _ => List (Text × RedisBucketState)
  | put _ _ => Bool
  | pass _ | acquire _ | release _ | insert _ _ _ | pop _ _ | trim _ | leak _ _ | flush _ => Unit

abbrev limiterInterface : Interface where
  Command := LimiterCommand
  Result := LimiterCommand.Result
  Error := Empty

abbrev LimiterAction := Program limiterInterface

structure LimiterState where
  clock : Nat
  /-- the items in Redis -/
  stored : Text -> List Nat
  locked : Nat -> Bool
  buckets : Nat -> Dict Text RedisBucketState

namespace LimiterState

def initial (clock : Nat) (stored : Text -> List Nat) : LimiterState :=
  ⟨clock, stored, fun _ => false, fun _ => []⟩

def setBuckets (s : LimiterState) (process : Nat) (buckets : Dict Text RedisBucketState) :
    LimiterState :=
  { s with buckets := Function.update s.buckets process buckets }

def setStored (s : LimiterState) (key : Text) (items : List Nat) : LimiterState :=
  { s with stored := Function.update s.stored key items }

def exec (settings : LimiterSettings) (redis : RedisBucket settings.rates) :
    (c : LimiterCommand) -> LimiterState -> LimiterState × Except Empty c.Result
  | .pass ms, s => ({ s with clock := s.clock + ms }, .ok ())
  | .time, s => (s, .ok s.clock)
  | .acquire process, s => ({ s with locked := Function.update s.locked process true }, .ok ())
  | .release process, s => ({ s with locked := Function.update s.locked process false }, .ok ())
  | .find process key now, s =>
      match (s.buckets process).get key with
      | none => (s, .ok none)
      | some state =>
          (s.setBuckets process ((s.buckets process).filter (fun p => p.1 ≠ key) ++
            [(key, { state with lastSeen := now })]), .ok (some state.bucket))
  | .insert process key state, s =>
      (s.setBuckets process ((s.buckets process).set key state), .ok ())
  | .items process, s => (s, .ok (s.buckets process))
  | .pop process key, s =>
      (s.setBuckets process ((s.buckets process).filter fun p => p.1 ≠ key), .ok ())
  | .trim process, s =>
      (s.setBuckets process
        ((s.buckets process).drop ((s.buckets process).length - settings.cacheSize process)), .ok ())
  | .put key timestamp, s =>
      if redis.admits (s.stored key) timestamp then
        (s.setStored key (timestamp :: s.stored key), .ok true)
      else
        (s, .ok false)
  | .leak key now, s => (s.setStored key (redis.leak (s.stored key) now), .ok ())
  | .count key, s => (s, .ok (s.stored key).length)
  | .flush key, s => (s.setStored key [], .ok ())

end LimiterState

def limiterCommand (c : LimiterCommand) : LimiterAction c.Result :=
  @Program.issue limiterInterface c

/-!
# The factory

`RedisBucketFactory` of one process: `get` looks a bucket up by its key, makes one that is not
cached, and evicts those that have not been used for too long.
-/

namespace RedisBucketFactory

/-- The items of `_dispose`, when `cleanup` is set. -/
def dispose (process : Nat) (key : Text) (state : RedisBucketState) (now : Nat) :
    LimiterAction Unit := do
  limiterCommand (.pop process key)
  limiterCommand (.leak state.bucket.bucketKey now)
  let count ← limiterCommand (.count state.bucket.bucketKey)
  if count = 0 then
    limiterCommand (.flush state.bucket.bucketKey)
  else
    return ()

/-- `_evict`; without `cleanup`, `_dispose` awaits nothing. -/
def evict (settings : LimiterSettings) (process now : Nat) : LimiterAction Unit := do
  let buckets ← limiterCommand (.items process)
  Program.forEach buckets fun (key, state) =>
    if now ≤ state.lastSeen + settings.cacheTtl then
      return ()
    else
      dispose process key state now
  limiterCommand (.trim process)

def wrapItem : LimiterAction Nat :=
  limiterCommand .time

/-- The part of `get` for a bucket that is not cached. -/
def create (settings : LimiterSettings) (process : Nat) (key : Text) (now : Nat) :
    LimiterAction RedisTimeBucket := do
  limiterCommand (.insert process key ⟨⟨key⟩, now⟩)
  evict settings process now
  limiterCommand (.release process)
  return ⟨key⟩

def get (settings : LimiterSettings) (process : Nat) (name : Text) :
    LimiterAction RedisTimeBucket := do
  let now ← limiterCommand .time
  limiterCommand (.acquire process)
  let state ← limiterCommand (.find process (settings.keyOf name) now)
  match state with
  | some bucket =>
      limiterCommand (.release process)
      return bucket
  | none => create settings process (settings.keyOf name) now

def getBucket (settings : LimiterSettings) (process : Nat) (name : Text) :
    LimiterAction RedisTimeBucket := do
  let _ ← wrapItem
  get settings process name

end RedisBucketFactory

/-- `RateLimiter.__call__` for an identifier: whether the request is let through. -/
def rateLimiter (settings : LimiterSettings) (process : Nat) (identifier : Text) :
    LimiterAction Bool := do
  let timestamp ← RedisBucketFactory.wrapItem
  let bucket ← RedisBucketFactory.get settings process identifier
  let acquired ← limiterCommand (.put bucket.bucketKey timestamp)
  if acquired then
    return true
  else
    -- `_retry_after` asks the bucket for the rate that failed
    let _ ← RedisBucketFactory.getBucket settings process identifier
    return false

/-!
# Requests

The progress of a request is the timestamp of its item, the time that `get` has read, and what
`put` has answered.
-/

inductive LimiterCall where
  | request (process : Nat) (identifier : Text)
  | pass (ms : Nat)
  deriving DecidableEq

def LimiterCall.body (settings : LimiterSettings) : LimiterCall -> LimiterAction Bool
  | request process identifier => rateLimiter settings process identifier
  | pass ms => do
      limiterCommand (.pass ms)
      return false

/-- The timestamp of the item, the time that `get` has read, and what `put` has answered. -/
structure LimiterProgress where
  stamp : Option Nat
  now : Option Nat
  admitted : Option Bool
  deriving DecidableEq

def LimiterProgress.next (g : LimiterProgress) :
    (c : LimiterCommand) -> Except Empty c.Result -> LimiterProgress
  | .time, .ok t => if g.stamp = none then { g with stamp := some t } else { g with now := some t }
  | .put _ _, .ok acquired => { g with admitted := some acquired }
  | _, _ => g

def limiterCalls (settings : LimiterSettings) (redis : RedisBucket settings.rates) :
    CallSystem limiterInterface LimiterState LimiterCall Bool LimiterProgress where
  exec := LimiterState.exec settings redis
  body := LimiterCall.body settings
  start := ⟨none, none, none⟩
  next _ := LimiterProgress.next

end RagService
