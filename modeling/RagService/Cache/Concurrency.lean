import RagService.Cache.Decorators

/-!
# Interleaved calls on the cache

Calls of wrapped functions that are interleaved at their commands, with the deliveries to
the listeners.  The progress of a call is the stored form of the result that it has read
and may still put into the cache.
-/

namespace RagService
namespace Cache

open Interleaving

variable {Process Database Data : Type}

inductive CacheCall (Process Database : Type) where
  | cached (p : Process) (value : Option (Except CacheError Text))
  | cacheInvalidate (p : Process) (value : Option (Except CacheError Text)) (atomic : Bool)
      (written : Except CacheError Unit) (write : Database -> Database)

namespace CacheCall

def reads (ns : Text) : CacheCall Process Database -> Option Text
  | cached _ value => (buildCacheKey ns value).toOption
  | cacheInvalidate _ _ _ _ _ => none

def body (cfg : CacheSettings Database Data) :
    CacheCall Process Database -> CacheAction Process Database Data Unit
  | cached p value => do
      let _ ← Cache.cached cfg p value
  | cacheInvalidate p value atomic written write =>
      invalidatingService cfg p value atomic written write

end CacheCall

def inHand (cfg : CacheSettings Database Data) (g : Option Text) :
    (c : CacheCommand Process Database Data) -> Except CacheError c.Result -> Option Text
  | .get _, .ok (some redisValue) => some redisValue
  | .query _, .ok (some result) => cfg.serialize result
  | _, _ => g

/-- A call puts into the cache what it has in hand, under the key that it reads. -/
def Allowed (cfg : CacheSettings Database Data) (op : CacheCall Process Database)
    (g : Option Text) : CacheCommand Process Database Data -> Prop
  | .get key | .query key => op.reads cfg.ns = some key
  | .localSet _ key value =>
      op.reads cfg.ns = some key ∧ exists b, g = some b ∧ value = cfg.deserialize b
  | .set key b => op.reads cfg.ns = some key ∧ g = some b
  | _ => True

def FillsNothing : CacheCommand Process Database Data -> Prop
  | .get _ | .query _ | .localSet _ _ _ | .set _ _ => False
  | _ => True

variable {cfg : CacheSettings Database Data} {op : CacheCall Process Database}
variable {p : Process} {key : Text} {g : Option Text} {α : Type}

theorem FillsNothing.allowed {c : CacheCommand Process Database Data} (h : FillsNothing c) :
    Allowed cfg op g c := by
  cases c with
  | get _ | query _ | localSet _ _ _ | set _ _ => cases h
  | _ => trivial

/-!
# An invalidation fills nothing

What is around the wrapped function of an invalidation reads nothing and fills nothing.
-/

theorem issue_issues {P : CacheCommand Process Database Data -> Prop}
    {c : CacheCommand Process Database Data} (h : P c) :
    (Program.issue (I := cacheInterface Process Database Data) c).Issues P fun _ => True := by
  constructor
  · exact h
  · intro r
    cases r <;> trivial

theorem ofExcept_issues {P : CacheCommand Process Database Data -> Prop}
    (r : Except CacheError α) :
    (CacheAction.ofExcept r : CacheAction Process Database Data α).Issues P fun _ => True := by
  cases r <;> trivial

theorem publishInvalidation_issues (cacheKey : Text) (byPrefix : Bool) :
    (publishInvalidation cacheKey byPrefix : CacheAction Process Database Data Unit).Issues
      FillsNothing fun _ => True := by
  apply Program.issues_bind (Program.issues_outcome (issue_issues trivial))
  intro _ _
  trivial

theorem deleteByPrefix_issues (keyPrefix : Text) (excludeKeys : List Text) (batchSize : Nat) :
    (deleteByPrefix keyPrefix excludeKeys batchSize :
      CacheAction Process Database Data Unit).Issues FillsNothing fun _ => True := by
  apply RedisCli.deleteByPrefix_issues
  · intro key
    exact issue_issues trivial
  · exact issue_issues trivial
  · intro keys
    exact issue_issues trivial

theorem invalidateLocal_issues (cfg : CacheSettings Database Data) (p : Process)
    (invalidateKey : Text) :
    (invalidateLocal cfg p invalidateKey).Issues FillsNothing fun _ => True := by
  unfold invalidateLocal
  split
  · split <;> exact issue_issues trivial
  · trivial

theorem announce_issues (cfg : CacheSettings Database Data) (invalidateKey : Text) :
    (announce cfg invalidateKey : CacheAction Process Database Data Unit).Issues FillsNothing
      fun _ => True := by
  unfold announce
  split
  · exact publishInvalidation_issues _ _
  · trivial

theorem invalidateRedis_issues (cfg : CacheSettings Database Data) (invalidateKey : Text) :
    (invalidateRedis cfg invalidateKey : CacheAction Process Database Data Unit).Issues
      FillsNothing fun _ => True := by
  unfold invalidateRedis
  split
  · exact deleteByPrefix_issues _ _ _
  · exact issue_issues trivial

theorem invalidate_issues (cfg : CacheSettings Database Data) (p : Process)
    (value : Option (Except CacheError Text)) :
    (invalidate cfg p value).Issues FillsNothing fun _ => True := by
  apply Program.issues_bind (ofExcept_issues _)
  intro invalidateKey _
  apply Program.issues_bind (invalidateLocal_issues cfg p invalidateKey)
  intro _ _
  apply Program.issues_bind (announce_issues cfg invalidateKey)
  intro _ _
  exact invalidateRedis_issues cfg invalidateKey

theorem cacheInvalidate_issues (cfg : CacheSettings Database Data) (p : Process)
    (value : Option (Except CacheError Text)) (atomic : Bool)
    {func : CacheAction Process Database Data α} (hfunc : func.Issues FillsNothing fun _ => True) :
    (cacheInvalidate cfg p value atomic func).Issues FillsNothing fun _ => True := by
  apply Program.issues_bind hfunc
  intro result _
  apply Program.issues_bind (Program.issues_outcome (invalidate_issues cfg p value))
  intro invalidated _
  cases invalidated with
  | ok _ => trivial
  | error e => cases atomic <;> trivial

theorem invalidatingService_issues (cfg : CacheSettings Database Data) (p : Process)
    (value : Option (Except CacheError Text)) (atomic : Bool)
    (written : Except CacheError Unit) (write : Database -> Database) :
    (invalidatingService cfg p value atomic written write).Issues FillsNothing
      fun _ => True := by
  apply Program.issues_bind (Program.issues_outcome
    (cacheInvalidate_issues cfg p value atomic (ofExcept_issues written)))
  intro done _
  cases done with
  | ok _ => exact issue_issues trivial
  | error e => trivial

/-!
# The system

The processes with their calls.  At first nothing is cached and no listener is connected.
-/

variable [DecidableEq Process]

def cacheCalls (cfg : CacheSettings Database Data) :
    CallSystem (cacheInterface Process Database Data) (CacheState Process Database Data)
      (CacheCall Process Database) Unit (Option Text) where
  exec := CacheState.exec cfg
  body := CacheCall.body cfg
  start := none
  next := fun _ => inHand cfg

abbrev CacheSystem (Process Database Data : Type) :=
  Calls (cacheInterface Process Database Data) (CacheState Process Database Data)
    (CacheCall Process Database) Unit (Option Text)

inductive CacheEvent (Process Database : Type) where
  | call (a : CallAction (CacheCall Process Database))
  /-- the listener handles the next message -/
  | deliver (p : Process)
  | connect (p : Process)
  /-- what is on its way to the listener is lost -/
  | disconnect (p : Process)
  /-- an entry of the hot cache expires or is evicted -/
  | expireLocal (p : Process) (key : Text)
  | expire (key : Text)
  /-- Redis goes out of reach, or comes back -/
  | redis (up : Bool)

namespace CacheSystem

def initial (db : Database) : CacheSystem Process Database Data where
  shared :=
    { db := db
      redis := ∅
      redisUp := true
      hotCache := fun _ => ∅
      listeners := fun _ => none }
  calls := []

def step (cfg : CacheSettings Database Data) (s : CacheSystem Process Database Data) :
    CacheEvent Process Database -> Option (CacheSystem Process Database Data)
  | .call a => (cacheCalls cfg).step s a
  | .deliver p =>
      match s.shared.listeners p with
      | some (message :: rest) =>
          some { s with shared :=
            (s.shared.updateHotCache p (·.handle message)).setListener p (some rest) }
      | _ => none
  | .connect p =>
      match s.shared.listeners p with
      | none => some { s with shared := s.shared.setListener p (some []) }
      | some _ => none
  | .disconnect p =>
      match s.shared.listeners p with
      | some _ => some { s with shared := s.shared.setListener p none }
      | none => none
  | .expireLocal p key =>
      some { s with shared := s.shared.updateHotCache p (·.erase key) }
  | .expire key => some { s with shared.redis := s.shared.redis.erase key }
  | .redis up => some { s with shared.redisUp := up }

/-- No call is running, no transaction is open and no message is in flight. -/
def Quiescent (s : CacheSystem Process Database Data) : Prop :=
  (forall call, call ∈ s.calls -> call.Ended) ∧
    forall p, s.shared.inFlight p = []

end CacheSystem

/-!
# A call follows its protocol

A call puts into the cache only what it has read itself, under the key that it reads.
-/

def protocol (cfg : CacheSettings Database Data) (op : CacheCall Process Database) :
    Protocol (cacheInterface Process Database Data) (Option Text) :=
  (cacheCalls cfg).protocol (Allowed cfg) (fun _ _ => True) op

theorem issue_follows {c : CacheCommand Process Database Data} (h : Allowed cfg op g c) :
    (protocol cfg op).Follows (fun _ _ => True) g
      (Program.issue (I := cacheInterface Process Database Data) c) := by
  constructor
  · exact h
  · intro r _
    cases r <;> trivial

theorem refill_follows {result : Data} (hkey : op.reads cfg.ns = some key)
    (hg : g = cfg.serialize result) :
    (protocol cfg op).Follows (fun _ _ => True) g (refill cfg p key result) := by
  unfold refill
  cases hserialize : cfg.serialize result with
  | none => trivial
  | some b =>
      rw [hserialize] at hg
      dsimp only
      split
      · apply Protocol.follows_issue_bind (T := protocol cfg op)
        · exact ⟨hkey, b, hg, rfl⟩
        · intro _ _
          exact issue_follows ⟨hkey, hg⟩
        · intro _ _
          trivial
      · exact issue_follows ⟨hkey, hg⟩

theorem readThrough_follows (hkey : op.reads cfg.ns = some key) :
    (protocol cfg op).Follows (fun _ _ => True) g (readThrough cfg p key) := by
  apply Protocol.follows_issue_bind (T := protocol cfg op)
  · exact hkey
  · intro result _
    cases result with
    | none => trivial
    | some result =>
        have hrefill : (protocol cfg op).Follows (fun _ _ => True) (cfg.serialize result)
            (CacheAction.attempt (refill cfg p key result)) :=
          Protocol.follows_outcome (refill_follows hkey rfl)
        apply Protocol.follows_bind hrefill
        · intro _ _ _
          trivial
        · intro _ _ _
          trivial
  · intro _ _
    trivial

theorem readRedis_follows (hkey : op.reads cfg.ns = some key) :
    (protocol cfg op).Follows (fun _ _ => True) g (readRedis cfg p key) := by
  constructor
  · exact hkey
  · intro r _
    cases r with
    | error e => exact readThrough_follows hkey
    | ok redisValue =>
        cases redisValue with
        | none => exact readThrough_follows hkey
        | some b =>
            show (protocol cfg op).Follows _ (some b) (if cfg.localEnabled = true then _ else _)
            split
            · apply Protocol.follows_issue_bind (T := protocol cfg op)
              · exact ⟨hkey, b, rfl, rfl⟩
              · intro _ _
                trivial
              · intro _ _
                trivial
            · trivial

theorem readLocal_follows :
    (protocol cfg op).Follows (fun _ _ => True) g (readLocal cfg p key) := by
  unfold readLocal
  split
  · exact issue_follows (c := .localGet p key) trivial
  · trivial

theorem cached_follows {value : Option (Except CacheError Text)}
    (hop : op.reads cfg.ns = (buildCacheKey cfg.ns value).toOption) :
    (protocol cfg op).Follows (fun _ _ => True) g (cached cfg p value) := by
  unfold cached
  cases hkey : buildCacheKey cfg.ns value with
  | error e => trivial
  | ok key =>
      rw [hkey] at hop
      apply Protocol.follows_bind (p := readLocal cfg p key) readLocal_follows
      · intro g' localValue _
        cases localValue with
        | some _ => trivial
        | none => exact readRedis_follows hop
      · intro _ _ _
        trivial

theorem body_follows (cfg : CacheSettings Database Data) (op : CacheCall Process Database) :
    (protocol cfg op).Follows (fun _ _ => True) none (op.body cfg) := by
  cases op with
  | cached p value =>
      apply Protocol.follows_bind (cached_follows rfl)
      · intro _ _ _
        trivial
      · intro _ _ _
        trivial
  | cacheInvalidate p value atomic written write =>
      exact Protocol.follows_of_issues
        (invalidatingService_issues cfg p value atomic written write)
        (fun _ _ h => h.allowed) none

end Cache
end RagService
