import RagService.Cache.Functions
import RagService.Foundation.JsonRoundTrip

/-!
# Values of other functions

An entry of the cache holds what some call with its key has returned.  Whether that was the
same call is a question of the keys alone.
-/

namespace RagService
namespace CachedFunctions

open Interleaving Cache Transitions

variable {Process Database Data Call : Type}

/-!
# Where entries come from

A command that fills nothing adds no entry, and neither does the environment.
-/

/-- A value comes from a result, as it was returned or as it was stored. -/
def Shows (cfg : CacheSettings Database Data) (r x : Option Data) : Prop :=
  x = r ∨ exists result b, r = some result ∧ cfg.serialize result = some b ∧
    x = cfg.deserialize b

def Stored (cfg : CacheSettings Database Data) (F : Functions Call Database Data)
    (returned : List (Call × Option Data)) (key b : Text) : Prop :=
  exists call result, (call, some result) ∈ returned ∧ F.cacheKey call = some key ∧
    cfg.serialize result = some b

structure Sourced (cfg : CacheSettings Database Data) (F : Functions Call Database Data)
    (returned : List (Call × Option Data)) (cache : CacheState Process Database Data) : Prop where
  redis : forall key b, cache.redis.lookup key = some b -> Stored cfg F returned key b
  hot : forall p key value, (cache.hotCache p).lookup key = some value ->
    exists b, Stored cfg F returned key b ∧ value = cfg.deserialize b

structure Fewer (cache cache' : CacheState Process Database Data) : Prop where
  redis : forall key b, cache'.redis.lookup key = some b -> cache.redis.lookup key = some b
  hot : forall p key value, (cache'.hotCache p).lookup key = some value ->
    (cache.hotCache p).lookup key = some value

section

variable {cfg : CacheSettings Database Data} {F : Functions Call Database Data}
variable {returned returned' : List (Call × Option Data)}
variable {cache cache' : CacheState Process Database Data} {key b : Text}

theorem Stored.mono (h : Stored cfg F returned key b)
    (hmore : forall p, p ∈ returned -> p ∈ returned') : Stored cfg F returned' key b := by
  rcases h with ⟨call, result, hin, hkey, hb⟩
  exact ⟨call, result, hmore _ hin, hkey, hb⟩

theorem Sourced.mono (h : Sourced cfg F returned cache)
    (hmore : forall p, p ∈ returned -> p ∈ returned') : Sourced cfg F returned' cache where
  redis := fun key b hlookup => (h.redis key b hlookup).mono hmore
  hot := by
    intro p key value hlookup
    rcases h.hot p key value hlookup with ⟨b, hstored, hvalue⟩
    exact ⟨b, hstored.mono hmore, hvalue⟩

theorem Sourced.fewer (h : Sourced cfg F returned cache) (hfewer : Fewer cache cache') :
    Sourced cfg F returned cache' where
  redis := fun key b hlookup => h.redis key b (hfewer.redis key b hlookup)
  hot := fun p key value hlookup => h.hot p key value (hfewer.hot p key value hlookup)

theorem Fewer.refl (cache : CacheState Process Database Data) : Fewer cache cache :=
  ⟨fun _ _ h => h, fun _ _ _ h => h⟩

theorem Fewer.onRedis {α : Type} (h : Fewer cache cache') (a : α) :
    Fewer cache (cache.onRedis cache' a).1 := by
  unfold CacheState.onRedis
  split
  · exact h
  · exact Fewer.refl cache

variable [DecidableEq Process]

theorem Fewer.updateHotCache {f : HotCache Data -> HotCache Data} {p : Process}
    (hf : forall hot key value, (f hot).lookup key = some value -> hot.lookup key = some value) :
    Fewer cache (cache.updateHotCache p f) where
  redis := fun _ _ h => h
  hot := by
    intro q key value hlookup
    by_cases hq : q = p
    · rw [hq] at hlookup ⊢
      apply hf
      simpa [CacheState.updateHotCache] using hlookup
    · simpa [CacheState.updateHotCache, hq] using hlookup

theorem fewer_exec {c : CacheCommand Process Database Data}
    (hset : forall p key value, c ≠ .localSet p key value) (hredis : forall key b, c ≠ .set key b) :
    Fewer cache (CacheState.exec cfg c cache).1 := by
  cases c with
  | localSet p key value => exact absurd rfl (hset p key value)
  | set key b => exact absurd rfl (hredis key b)
  | localGet _ _ => exact Fewer.refl cache
  | query _ => exact Fewer.refl cache
  | commit _ => exact ⟨fun _ _ h => h, fun _ _ _ h => h⟩
  | get _ => exact (Fewer.refl cache).onRedis _
  | «exists» _ => exact (Fewer.refl cache).onRedis _
  | scanIter _ => exact (Fewer.refl cache).onRedis _
  | publish message =>
      have hfewer : Fewer cache (cache.publish message) := ⟨fun _ _ h => h, fun _ _ _ h => h⟩
      exact hfewer.onRedis _
  | delete keys =>
      have hfewer : Fewer cache { cache with redis := eraseAll cache.redis keys } :=
        ⟨fun _ _ h => (lookup_of_eraseAll h).2, fun _ _ _ h => h⟩
      exact hfewer.onRedis _
  | localDelete p key => exact Fewer.updateHotCache fun _ _ _ h => (lookup_of_erase h).2
  | localDeleteByPrefix p keyPrefix =>
      exact Fewer.updateHotCache fun _ _ _ h => (HotCache.lookup_of_deleteByPrefix h).2

theorem fewer_environment {e : CacheEvent Process Database}
    {s s' : CacheSystem Process Database Data} (hcalls : s.calls = [])
    (h : CacheSystem.step cfg s e = some s') : Fewer s.shared s'.shared := by
  cases e with
  | call a =>
      have hstep : (cacheCalls cfg).step s a = some s' := h
      cases CallSystem.step_cases hstep with
      | inl hstart =>
          rcases hstart with ⟨_, _, hshared, _⟩
          rw [hshared]
          exact Fewer.refl s.shared
      | inr hadvance =>
          rcases hadvance with ⟨i, op, c, k, g, _, hi, _⟩
          rw [hcalls] at hi
          cases hi
  | deliver p =>
      unfold CacheSystem.step at h
      dsimp only at h
      split at h
      · rename_i message rest _
        cases h
        have hfewer : Fewer s.shared (s.shared.updateHotCache p (·.handle message)) :=
          Fewer.updateHotCache fun _ _ _ hlookup => (HotCache.lookup_of_handle hlookup).2
        exact ⟨hfewer.redis, hfewer.hot⟩
      · cases h
  | connect p =>
      unfold CacheSystem.step at h
      dsimp only at h
      split at h
      · cases h
        exact ⟨fun _ _ h => h, fun _ _ _ h => h⟩
      · cases h
  | disconnect p =>
      unfold CacheSystem.step at h
      dsimp only at h
      split at h
      · cases h
        exact ⟨fun _ _ h => h, fun _ _ _ h => h⟩
      · cases h
  | expireLocal p key =>
      cases h
      exact Fewer.updateHotCache fun _ _ _ hlookup => (lookup_of_erase hlookup).2
  | expire key =>
      cases h
      exact ⟨fun _ _ hlookup => (lookup_of_erase hlookup).2, fun _ _ _ hlookup => hlookup⟩
  | redis up =>
      cases h
      exact ⟨fun _ _ h => h, fun _ _ _ h => h⟩

theorem Sourced.localSet (h : Sourced cfg F returned cache) {p : Process} {value : Option Data}
    (hnew : exists b, Stored cfg F returned key b ∧ value = cfg.deserialize b) :
    Sourced cfg F returned (cache.updateHotCache p (·.insert key value)) where
  redis := h.redis
  hot := by
    intro q key' value' hlookup
    by_cases hq : q = p
    · rw [hq] at hlookup
      have hinsert : ((cache.hotCache p).insert key value).lookup key' = some value' := by
        simpa [CacheState.updateHotCache] using hlookup
      cases lookup_of_insert hinsert with
      | inl hsame =>
          rw [hsame.1, hsame.2]
          exact hnew
      | inr hold => exact h.hot p key' value' hold
    · apply h.hot q key' value'
      simpa [CacheState.updateHotCache, hq] using hlookup

theorem Sourced.set (h : Sourced cfg F returned cache) (hnew : Stored cfg F returned key b) :
    Sourced cfg F returned (CacheState.exec cfg (.set key b) cache).1 := by
  have hinsert : Sourced cfg F returned { cache with redis := cache.redis.insert key b } := by
    constructor
    · intro key' b' hlookup
      cases lookup_of_insert hlookup with
      | inl hsame =>
          rw [hsame.1, hsame.2]
          exact hnew
      | inr hold => exact h.redis key' b' hold
    · exact h.hot
  unfold CacheState.exec CacheState.onRedis
  dsimp only
  split
  · exact hinsert
  · exact h

end

/-!
# What a call puts into the cache

A call reads its own key, and puts there what it has in hand; an invalidation reads nothing and
fills nothing.
-/

def Hand.Holds (cfg : CacheSettings Database Data) (b : Text) : Hand Data -> Prop
  | .redis b' => b' = b
  | .result (some value) => cfg.serialize value = some b
  | _ => False

def Hand.Gives (cfg : CacheSettings Database Data) (x : Option Data) : Hand Data -> Prop
  | .nothing => False
  | .hot value => x = some value
  | .redis b => x = cfg.deserialize b
  | .result r => x = r

/-- A call reads its own key, and puts there what it has in hand. -/
def Allows (cfg : CacheSettings Database Data) (key : Option Text) (g : Hand Data) :
    CacheCommand Process Database Data -> Prop
  | .localGet _ key' | .get key' | .query key' => key = some key'
  | .localSet _ key' value => key = some key' ∧ exists b, g.Holds cfg b ∧ value = cfg.deserialize b
  | .set key' b => key = some key' ∧ g.Holds cfg b
  | _ => True

def Permits (cfg : CacheSettings Database Data) (F : Functions Call Database Data) :
    NamespaceOp Process Database Call -> Hand Data ->
      (namespaceInterface Process Database Data Call).Command -> Prop
  | .cached p call, g, (op, c) =>
      op = .cached p call ∧ Allows cfg (F.cacheKey call) g c
  | .cacheInvalidate p atomic written write, _, (op, c) =>
      op = .cacheInvalidate p atomic written write ∧ FillsNothing c

def Ends (cfg : CacheSettings Database Data) :
    NamespaceOp Process Database Call -> Hand Data -> Except CacheError (Option Data) -> Prop
  | .cached _ _, g, .ok x => g.Gives cfg x
  | _, _, _ => True

section

variable {cfg : CacheSettings Database Data} {F : Functions Call Database Data}
variable [DecidableEq Process]
variable {op : NamespaceOp Process Database Call} {p : Process} {key : Text} {call : Call}
variable {g : Hand Data}

abbrev callProtocol (cfg : CacheSettings Database Data) (F : Functions Call Database Data)
    (p : Process) (call : Call) : Protocol (cacheInterface Process Database Data) (Hand Data) :=
  ((namespaceCalls cfg F).protocol (Permits cfg F) (fun _ _ => True) (.cached p call)).untagged
    (.cached p call)

theorem refill_follows {result : Data} (hkey : F.cacheKey call = some key) :
    (callProtocol cfg F p call).Follows (fun g _ => g = .result (some result))
      (.result (some result)) (refill cfg p key result) := by
  have hset : forall b, cfg.serialize result = some b ->
      (callProtocol cfg F p call).Follows (fun g _ => g = .result (some result))
        (.result (some result)) (CacheAction.set key b) := by
    intro b hb
    constructor
    · exact ⟨rfl, hkey, hb⟩
    · intro r _
      cases r with
      | ok _ => rfl
      | error _ => rfl
  unfold refill
  cases hserialize : cfg.serialize result with
  | none => rfl
  | some b =>
      dsimp only
      split
      · apply Protocol.follows_issue_bind (T := callProtocol cfg F p call)
        · exact ⟨rfl, hkey, b, hserialize, rfl⟩
        · intro _ _
          exact hset b hserialize
        · intro _ _
          rfl
      · exact hset b hserialize

theorem readThrough_follows (hkey : F.cacheKey call = some key) :
    (callProtocol cfg F p call).Follows (Ends cfg (.cached p call)) g
      (readThrough cfg p key) := by
  apply Protocol.follows_issue_bind (T := callProtocol cfg F p call)
  · exact ⟨rfl, hkey⟩
  · intro result _
    cases result with
    | none => rfl
    | some result =>
        have hrefill : (callProtocol cfg F p call).Follows
            (fun g _ => g = .result (some result)) (.result (some result))
            (CacheAction.attempt (refill cfg p key result)) :=
          Protocol.follows_outcome (refill_follows hkey)
        apply Protocol.follows_bind hrefill
        · intro g' _ hg
          rw [hg]
          rfl
        · intro _ _ _
          trivial
  · intro _ _
    trivial

theorem readRedis_follows (hkey : F.cacheKey call = some key) :
    (callProtocol cfg F p call).Follows (Ends cfg (.cached p call)) g
      (readRedis cfg p key) := by
  constructor
  · exact ⟨rfl, hkey⟩
  · intro r _
    cases r with
    | error e => exact readThrough_follows hkey
    | ok redisValue =>
        cases redisValue with
        | none => exact readThrough_follows hkey
        | some b =>
            show (callProtocol cfg F p call).Follows _ (.redis b)
              (if cfg.localEnabled = true then _ else _)
            split
            · apply Protocol.follows_issue_bind (T := callProtocol cfg F p call)
              · exact ⟨rfl, hkey, b, rfl, rfl⟩
              · intro _ _
                rfl
              · intro _ _
                trivial
            · rfl

theorem cached_follows (hns : cfg.ns = F.ns) :
    (callProtocol cfg F p call).Follows (Ends cfg (.cached p call)) g
      (Cache.cached cfg p (F.value call)) := by
  unfold Cache.cached
  rw [hns]
  cases hbuilt : buildCacheKey F.ns (F.value call) with
  | error e => trivial
  | ok key =>
      have hkey : F.cacheKey call = some key := by
        unfold Functions.cacheKey
        rw [hbuilt]
        rfl
      show (callProtocol cfg F p call).Follows _ _ (Program.bind (readLocal cfg p key) _)
      unfold readLocal
      split
      · apply Protocol.follows_issue_bind (T := callProtocol cfg F p call)
        · exact ⟨rfl, hkey⟩
        · intro localValue _
          cases localValue with
          | some _ => rfl
          | none => exact readRedis_follows hkey
        · intro _ _
          trivial
      · exact readRedis_follows hkey

theorem body_follows (hns : cfg.ns = F.ns) (op : NamespaceOp Process Database Call) :
    ((namespaceCalls cfg F).protocol (Permits cfg F) (fun _ _ => True) op).Follows
      (Ends cfg op) .nothing (body cfg F op) := by
  cases op with
  | cached p call => exact Protocol.follows_tag (cached_follows hns)
  | cacheInvalidate p atomic written write =>
      apply Protocol.follows_tag
      apply Protocol.follows_mono (Q := fun _ _ => True)
      · apply Protocol.follows_of_issues (P := FillsNothing) (R := fun _ => True)
        · apply Program.issues_bind
            (invalidatingService_issues cfg p none atomic written write)
          intro _ _
          trivial
        · exact fun _ _ hfills => ⟨rfl, hfills⟩
      · intro _ _ _
        trivial

end

/-!
# The invariant

What the functions have returned stays, and only queries of calls add to it; so what is in hand
comes from a call with the same key, or from this very call.
-/

def HandSourced (cfg : CacheSettings Database Data) (F : Functions Call Database Data)
    (returned : List (Call × Option Data)) :
    NamespaceOp Process Database Call -> Hand Data -> Prop
  | .cached _ call, .hot value => exists key b, F.cacheKey call = some key ∧
      Stored cfg F returned key b ∧ some value = cfg.deserialize b
  | .cached _ call, .redis b => exists key, F.cacheKey call = some key ∧
      Stored cfg F returned key b
  | .cached _ call, .result r => (call, r) ∈ returned
  | _, _ => True

section

variable {cfg : CacheSettings Database Data} {F : Functions Call Database Data}
variable {returned returned' : List (Call × Option Data)}
variable {p : Process} {key b : Text} {call : Call} {g : Hand Data}

theorem HandSourced.mono {op : NamespaceOp Process Database Call}
    (h : HandSourced cfg F returned op g) (hmore : forall p, p ∈ returned -> p ∈ returned') :
    HandSourced cfg F returned' op g := by
  cases op with
  | cacheInvalidate _ _ _ _ => cases g <;> trivial
  | cached p call =>
      cases g with
      | nothing => trivial
      | hot value =>
          rcases h with ⟨key, b, hkey, hstored, hvalue⟩
          exact ⟨key, b, hkey, hstored.mono hmore, hvalue⟩
      | redis b =>
          rcases h with ⟨key, hkey, hstored⟩
          exact ⟨key, hkey, hstored.mono hmore⟩
      | result r => exact hmore _ h

theorem stored_of_holds {op : NamespaceOp Process Database Call}
    (h : HandSourced cfg F returned op g) (hop : op = .cached p call)
    (hkey : F.cacheKey call = some key) (hholds : g.Holds cfg b) :
    Stored cfg F returned key b := by
  rw [hop] at h
  cases g with
  | nothing => cases hholds
  | hot _ => cases hholds
  | redis b' =>
      rcases h with ⟨key', hkey', hstored⟩
      have hsame : b' = b := hholds
      rw [hkey] at hkey'
      rw [Option.some.inj hkey', ← hsame]
      exact hstored
  | result r =>
      cases r with
      | none => cases hholds
      | some result => exact ⟨call, result, h, hkey, hholds⟩

variable [DecidableEq Process]
variable {s : NamespaceState Process Database Data Call}

theorem sourced_exec {op op' : NamespaceOp Process Database Call}
    {c : CacheCommand Process Database Data} (h : Sourced cfg F s.returned s.cache)
    (hhand : HandSourced cfg F s.returned op g) (hpermits : Permits cfg F op g (op', c)) :
    Sourced cfg F (exec cfg F (op', c) s).1.returned (exec cfg F (op', c) s).1.cache := by
  cases op with
  | cacheInvalidate p atomic written write =>
      rcases hpermits with ⟨hop, hfills⟩
      rw [hop]
      apply h.fewer
      apply fewer_exec
      · intro _ _ _ hset
        rw [hset] at hfills
        cases hfills
      · intro _ _ hset
        rw [hset] at hfills
        cases hfills
  | cached p call =>
      rcases hpermits with ⟨hop, hallows⟩
      rw [hop]
      cases c with
      | query key =>
          unfold exec
          dsimp only
          split
          · exact h.mono fun _ hin => List.mem_append_left _ hin
          · exact h
      | localSet q key value =>
          rcases hallows with ⟨hkey, b, hholds, hvalue⟩
          exact h.localSet ⟨b, stored_of_holds hhand rfl hkey hholds, hvalue⟩
      | set key b => exact h.set (stored_of_holds hhand rfl hallows.1 hallows.2)
      | _ => exact h.fewer (fewer_exec nofun nofun)

theorem returned_exec (cfg : CacheSettings Database Data) (F : Functions Call Database Data)
    (s : NamespaceState Process Database Data Call) (op : NamespaceOp Process Database Call)
    (c : CacheCommand Process Database Data) :
    (exec cfg F (op, c) s).1.returned = s.returned ∨
      exists p call r, op = .cached p call ∧
        (exec cfg F (op, c) s).1.returned = s.returned ++ [(call, r)] := by
  cases op with
  | cacheInvalidate _ _ _ _ => exact .inl rfl
  | cached p call =>
      cases c with
      | query key =>
          unfold exec
          dsimp only
          split
          · exact .inr ⟨p, call, _, rfl, rfl⟩
          · exact .inl rfl
      | _ => exact .inl rfl

theorem mem_returned_exec {op : NamespaceOp Process Database Call}
    {c : CacheCommand Process Database Data} {q : Call × Option Data} (h : q ∈ s.returned) :
    q ∈ (exec cfg F (op, c) s).1.returned := by
  rcases returned_exec cfg F s op c with hsame | ⟨_, _, _, _, hmore⟩
  · rw [hsame]
    exact h
  · rw [hmore]
    exact List.mem_append_left _ h

theorem handSourced_exec {op op' : NamespaceOp Process Database Call}
    {c : CacheCommand Process Database Data} (h : Sourced cfg F s.returned s.cache)
    (hhand : HandSourced cfg F s.returned op g) (hpermits : Permits cfg F op g (op', c)) :
    HandSourced cfg F (exec cfg F (op', c) s).1.returned op
      (nextHand g (op', c) (exec cfg F (op', c) s).2) := by
  have hstays : HandSourced cfg F (exec cfg F (op', c) s).1.returned op g :=
    hhand.mono fun _ hin => mem_returned_exec hin
  cases op with
  | cacheInvalidate _ _ _ _ => trivial
  | cached p call =>
      rcases hpermits with ⟨hop, hallows⟩
      rw [hop] at hstays ⊢
      cases c with
      | localGet q key =>
          show HandSourced cfg F s.returned _
            (nextHand g (.cached p call, .localGet q key) (.ok ((s.cache.hotCache q).get key)))
          cases hget : (s.cache.hotCache q).get key with
          | none => exact hstays
          | some value =>
              have hlookup := Option.join_eq_some_iff.mp hget
              rcases h.hot q key (some value) hlookup with ⟨b, hstored, hvalue⟩
              exact ⟨key, b, hallows, hstored, hvalue⟩
      | get key =>
          show HandSourced cfg F s.returned _
            (nextHand g (.cached p call, .get key) (s.cache.onRedis s.cache _).2)
          unfold CacheState.onRedis
          split
          · cases hlookup : s.cache.redis.lookup key with
            | none => exact hstays
            | some b => exact ⟨key, hallows, h.redis key b hlookup⟩
          · exact hstays
      | query key =>
          unfold exec at hstays ⊢
          dsimp only at hstays ⊢
          cases hfunc : F.func call s.cache.db with
          | error e =>
              rw [hfunc] at hstays
              exact hstays
          | ok result => exact List.mem_append_right _ (List.mem_singleton.mpr rfl)
      | _ => exact hstays

end

/-!
# Runs

What a call comes back with has been returned to a call with the same key.  Calls whose keys
are apart are answered by their own function with their own arguments.
-/

namespace NamespaceSystem

variable [DecidableEq Process]
variable {cfg : CacheSettings Database Data} {F : Functions Call Database Data}
variable {s s' : NamespaceSystem Process Database Data Call}
variable {call : Call} {x : Option Data} {db : Database}

structure Traced (cfg : CacheSettings Database Data) (F : Functions Call Database Data)
    (s : NamespaceSystem Process Database Data Call) : Prop where
  shared : Sourced cfg F s.shared.returned s.shared.cache
  hands : forall c, c ∈ s.calls -> HandSourced cfg F s.shared.returned c.op c.progress
  called : forall q, q ∈ s.shared.returned -> s.Called q.1
  followed : (namespaceCalls cfg F).Followed (Permits cfg F) (fun _ _ => True) (Ends cfg) s

theorem traced_initial (db : Database) :
    Traced cfg F (initial db : NamespaceSystem Process Database Data Call) where
  shared := ⟨nofun, nofun⟩
  hands := nofun
  called := nofun
  followed := nofun

theorem Traced.advance {a : CallAction (NamespaceOp Process Database Call)} (hns : cfg.ns = F.ns)
    (h : Traced cfg F s) (hstep : (namespaceCalls cfg F).step s a = some s') :
    Traced cfg F s' := by
  have hfollowed := CallSystem.followed_step (body_follows hns) (fun _ => trivial) h.followed hstep
  have hkept : forall call, s.Called call -> s'.Called call := by
    intro call hcalled
    rcases hcalled with ⟨c, p, hc, hop⟩
    rcases CallSystem.exists_of_step hstep hc with ⟨c', hc', hop'⟩
    exact ⟨c', p, hc', hop'.trans hop⟩
  rcases CallSystem.step_cases hstep with
    ⟨op, _, hshared, hcalls⟩ | ⟨i, op, ⟨op', c⟩, k, g, _, hi, hshared, hcalls⟩
  · constructor
    · rw [hshared]
      exact h.shared
    · intro c hc
      rw [hshared]
      cases Calls.mem_start hcalls hc with
      | inl hold => exact h.hands c hold
      | inr hnew =>
          rw [hnew]
          cases op <;> trivial
    · intro q hq
      rw [hshared] at hq
      exact hkept q.1 (h.called q hq)
    · exact hfollowed
  · have hmem := List.mem_of_getElem? hi
    have hpermits : Permits cfg F op g (op', c) := (h.followed _ hmem).1
    have hhand : HandSourced cfg F s.shared.returned op g := h.hands _ hmem
    constructor
    · rw [hshared]
      exact sourced_exec h.shared hhand hpermits
    · intro c' hc'
      rw [hshared]
      cases Calls.mem_advance hcalls hc' with
      | inl hold => exact (h.hands c' hold).mono fun _ hin => mem_returned_exec hin
      | inr hnew =>
          rw [hnew]
          exact handSourced_exec h.shared hhand hpermits
    · intro q hq
      rw [hshared] at hq
      rcases returned_exec cfg F s.shared op' c with
        hsame | ⟨p, call, r, hop', hmore⟩
      · have hq' : q ∈ (exec cfg F (op', c) s.shared).1.returned := hq
        rw [hsame] at hq'
        exact hkept q.1 (h.called q hq')
      · have hq' : q ∈ (exec cfg F (op', c) s.shared).1.returned := hq
        rw [hmore] at hq'
        cases List.mem_append.mp hq' with
        | inl hold => exact hkept q.1 (h.called q hold)
        | inr hnew =>
            rw [List.mem_singleton.mp hnew]
            have hop : op = .cached p call := by
              cases op with
              | cached _ _ => exact hpermits.1.symm.trans hop'
              | cacheInvalidate _ _ _ _ => exact hpermits.1.symm.trans hop'
            exact hkept call ⟨_, p, hmem, hop⟩
    · exact hfollowed

theorem Traced.step {e : NamespaceEvent Process Database Call} (hns : cfg.ns = F.ns)
    (h : Traced cfg F s) (hstep : step cfg F s e = some s') : Traced cfg F s' := by
  cases e with
  | call a => exact h.advance hns hstep
  | environment e =>
      rcases Option.map_eq_some_iff.mp hstep with ⟨t, ht, heq⟩
      rw [← heq]
      exact ⟨h.shared.fewer (fewer_environment rfl ht), h.hands, h.called, h.followed⟩

theorem Traced.answered (h : Traced cfg F s) (hanswered : s.Answered call x) :
    exists call' r, s.Produced call' r ∧ F.cacheKey call' = F.cacheKey call ∧ Shows cfg r x := by
  rcases hanswered with ⟨c, p, hc, hop, hprogram⟩
  have hends := h.followed c hc
  have hhand := h.hands c hc
  rw [hop] at hends hhand
  rw [hprogram] at hends
  have hgives : c.progress.Gives cfg x := hends
  cases hg : c.progress with
  | nothing =>
      rw [hg] at hgives
      cases hgives
  | hot value =>
      rw [hg] at hgives hhand
      rcases hhand with ⟨key, b, hkey, ⟨call', result, hin, hkey', hb⟩, hvalue⟩
      exact ⟨call', some result, hin, hkey'.trans hkey.symm,
        .inr ⟨result, b, rfl, hb, hgives.trans hvalue⟩⟩
  | redis b =>
      rw [hg] at hgives hhand
      rcases hhand with ⟨key, hkey, call', result, hin, hkey', hb⟩
      exact ⟨call', some result, hin, hkey'.trans hkey.symm, .inr ⟨result, b, rfl, hb, hgives⟩⟩
  | result r =>
      rw [hg] at hgives hhand
      exact ⟨call, r, hhand, rfl, .inl hgives⟩

/-- Calls whose keys are apart are answered by their own function with their own arguments. -/
theorem answered_by_own (hns : cfg.ns = F.ns)
    (hrun : Reaches (step cfg F) (fun _ _ => True) (initial db) s)
    (hapart : forall c c', s.Called c -> s.Called c' -> F.cacheKey c = F.cacheKey c' -> c = c')
    (hanswered : s.Answered call x) : exists r, s.Produced call r ∧ Shows cfg r x := by
  have htraced := hrun.invariant (Traced cfg F) (traced_initial db)
    fun htraced _ hstep => htraced.step hns hstep
  rcases htraced.answered hanswered with ⟨call', r, hproduced, hkey, hshows⟩
  have hcalled : s.Called call := by
    rcases hanswered with ⟨c, p, hc, hop, _⟩
    exact ⟨c, p, hc, hop⟩
  have hsame := hapart call' call (htraced.called _ hproduced) hcalled hkey
  rw [hsame] at hproduced
  exact ⟨r, hproduced, hshows⟩

end NamespaceSystem

/-!
# The keys of the services

The text of a number is not that of `None`, and not the key of a code.
-/

section

variable {Database Data : Type}

theorem cacheKey_config (func : ConfigCall -> Database -> Except CacheError (Option Data))
    (call : ConfigCall) : (configFunctions func).cacheKey call =
      some ("fba:cache:config".toList ++ ':' ::
        match call with
        | .get pk => Json.dumpInt pk
        | .getAll none => "none".toList
        | .getAll (some type) => type) := by
  cases call with
  | get pk => rfl
  | getAll type =>
      cases type with
      | none => rfl
      | some type => rfl

theorem cacheKey_dict (func : DictCall -> Database -> Except CacheError (Option Data))
    (call : DictCall) : (dictFunctions func).cacheKey call =
      some ("fba:cache:dict".toList ++ ':' ::
        match call with
        | .get pk => Json.dumpInt pk
        | .getByTypeCode code => "type:".toList ++ code) := by
  cases call with
  | get pk => rfl
  | getByTypeCode code => rfl

theorem dumpInt_injective : Function.Injective Json.dumpInt := by
  intro x y h
  have hx := Json.readNumber_dumpInt x Json.stops_nil
  have hy := Json.readNumber_dumpInt y Json.stops_nil
  rw [h, hy] at hx
  exact (Json.int.inj (congrArg Prod.fst (Option.some.inj hx))).symm

theorem dumpInt_ne_none (z : Int) : Json.dumpInt z ≠ "none".toList := by
  intro h
  rcases Json.dumpInt_head z with ⟨c, cs, heq, hc⟩
  rw [h] at heq
  rw [← (List.cons.inj heq).1] at hc
  revert hc
  decide

theorem dumpInt_ne_type (z : Int) (code : Text) : Json.dumpInt z ≠ "type:".toList ++ code := by
  intro h
  rcases Json.dumpInt_head z with ⟨c, cs, heq, hc⟩
  rw [h] at heq
  rw [← (List.cons.inj heq).1] at hc
  revert hc
  decide

/--
Different calls with one key: a type that is the number of another configuration, and a type
that is called like no type.
-/
def Clash : ConfigCall -> ConfigCall -> Prop
  | .get pk, .getAll type => type = some (Json.dumpInt pk)
  | .getAll type, .get pk => type = some (Json.dumpInt pk)
  | .getAll none, .getAll type => type = some "none".toList
  | .getAll (some type), .getAll none => type = "none".toList
  | _, _ => False

theorem configKey_iff (func : ConfigCall -> Database -> Except CacheError (Option Data))
    (c c' : ConfigCall) :
    ((configFunctions func).cacheKey c = (configFunctions func).cacheKey c' -> c = c') ↔
      ¬ Clash c c' := by
  rw [cacheKey_config, cacheKey_config, Option.some.injEq, List.append_cancel_left_eq,
    List.cons.injEq, and_iff_right rfl]
  cases c with
  | get pk =>
      cases c' with
      | get pk' =>
          constructor
          · exact fun _ => id
          · intro _ h
            rw [dumpInt_injective h]
      | getAll type =>
          constructor
          · intro hsame hclash
            rw [show type = some (Json.dumpInt pk) from hclash] at hsame
            cases hsame rfl
          · intro hclash h
            cases type with
            | none => exact absurd h (dumpInt_ne_none pk)
            | some type => exact absurd (congrArg some h.symm) hclash
  | getAll type =>
      cases c' with
      | get pk =>
          constructor
          · intro hsame hclash
            rw [show type = some (Json.dumpInt pk) from hclash] at hsame
            cases hsame rfl
          · intro hclash h
            cases type with
            | none => exact absurd h.symm (dumpInt_ne_none pk)
            | some type => exact absurd (congrArg some h) hclash
      | getAll type' =>
          cases type with
          | none =>
              cases type' with
              | none => exact ⟨fun _ => nofun, fun _ _ => rfl⟩
              | some type' =>
                  constructor
                  · intro hsame hclash
                    cases hsame (Option.some.inj hclash).symm
                  · exact fun hclash h => absurd (congrArg some h.symm) hclash
          | some type =>
              cases type' with
              | none =>
                  constructor
                  · intro hsame hclash
                    cases hsame hclash
                  · exact fun hclash h => absurd h hclash
              | some type' =>
                  constructor
                  · exact fun _ => id
                  · intro _ h
                    exact congrArg (fun t => ConfigCall.getAll (some t)) h

theorem dictKey_injective (func : DictCall -> Database -> Except CacheError (Option Data))
    {c c' : DictCall}
    (h : (dictFunctions func).cacheKey c = (dictFunctions func).cacheKey c') : c = c' := by
  rw [cacheKey_dict, cacheKey_dict, Option.some.injEq, List.append_cancel_left_eq,
    List.cons.injEq, and_iff_right rfl] at h
  cases c with
  | get pk =>
      cases c' with
      | get pk' => rw [dumpInt_injective h]
      | getByTypeCode code => exact absurd h (dumpInt_ne_type pk code)
  | getByTypeCode code =>
      cases c' with
      | get pk => exact absurd h.symm (dumpInt_ne_type pk code)
      | getByTypeCode code' => rw [List.append_cancel_left h]

end

/-!
# Calls of the services

The calls that have been started and those that have come back, with their values.
-/

section

variable {Database Data : Type}

/--
Two calls of the configuration service have different keys exactly when they do not clash, and
then each is answered with what its own function has returned for its arguments.  Calls of the
dictionary service never clash.
-/
theorem cachedCalls_apart (Process : Type) [DecidableEq Process] (localEnabled : Bool)
    (serialize : Data -> Option Text) (deserialize : Text -> Option Data)
    (configs : ConfigCall -> Database -> Except CacheError (Option Data))
    (dicts : DictCall -> Database -> Except CacheError (Option Data)) (db : Database) :
    (forall c c',
      ((configFunctions configs).cacheKey c = (configFunctions configs).cacheKey c' -> c = c') ↔
        ¬ Clash c c') ∧
    (forall c c',
      (dictFunctions dicts).cacheKey c = (dictFunctions dicts).cacheKey c' -> c = c') ∧
    (forall s : NamespaceSystem Process Database Data ConfigCall,
      Reaches (NamespaceSystem.step
        ((configFunctions configs).settings localEnabled serialize deserialize)
        (configFunctions configs)) (fun _ _ => True) (NamespaceSystem.initial db) s ->
      (forall c c', s.Called c -> s.Called c' -> ¬ Clash c c') ->
      forall call x, s.Answered call x -> exists r, s.Produced call r ∧
        Shows ((configFunctions configs).settings localEnabled serialize deserialize) r x) ∧
    (forall s : NamespaceSystem Process Database Data DictCall,
      Reaches (NamespaceSystem.step
        ((dictFunctions dicts).settings localEnabled serialize deserialize)
        (dictFunctions dicts)) (fun _ _ => True) (NamespaceSystem.initial db) s ->
      forall call x, s.Answered call x -> exists r, s.Produced call r ∧
        Shows ((dictFunctions dicts).settings localEnabled serialize deserialize) r x) := by
  refine ⟨configKey_iff configs, fun c c' => dictKey_injective dicts, ?_, ?_⟩
  · intro s hrun hclear call x hanswered
    apply NamespaceSystem.answered_by_own rfl hrun _ hanswered
    intro c c' hc hc' hkey
    exact (configKey_iff configs c c').mpr (hclear c c' hc hc') hkey
  · intro s hrun call x hanswered
    apply NamespaceSystem.answered_by_own rfl hrun _ hanswered
    intro c c' _ _ hkey
    exact dictKey_injective dicts hkey

end

def NamespaceSystem.answers {Process Database Data Call : Type}
    (s : NamespaceSystem Process Database Data Call) : List (Call × Option Data) :=
  s.calls.filterMap fun c =>
    match c.op, c.program with
    | .cached _ call, .ret x => some (call, x)
    | _, _ => none

theorem NamespaceSystem.answered_of_mem {Process Database Data Call : Type}
    {s : NamespaceSystem Process Database Data Call} {call : Call} {x : Option Data}
    (h : (call, x) ∈ s.answers) : s.Answered call x := by
  rcases List.mem_filterMap.mp h with ⟨c, hc, heq⟩
  split at heq
  · rename_i p call' x' hop hprogram
    cases heq
    exact ⟨c, p, hc, hop, hprogram⟩
  · cases heq

def NamespaceSystem.started {Process Database Data Call : Type}
    (s : NamespaceSystem Process Database Data Call) : List Call :=
  s.calls.filterMap fun c =>
    match c.op with
    | .cached _ call => some call
    | .cacheInvalidate _ _ _ _ => none

theorem NamespaceSystem.mem_started {Process Database Data Call : Type}
    {s : NamespaceSystem Process Database Data Call} {call : Call} (h : s.Called call) :
    call ∈ s.started := by
  rcases h with ⟨c, p, hc, hop⟩
  refine List.mem_filterMap.mpr ⟨c, hc, ?_⟩
  rw [hop]

def sampleConfigs : ConfigCall -> Unit -> Except CacheError (Option Text)
  | .get _, _ => .ok (some "one".toList)
  | .getAll _, _ => .ok (some "all".toList)

def sampleCalls (first second : ConfigCall) : List (NamespaceEvent Unit Unit ConfigCall) :=
  .call (.start (.cached () first)) :: List.replicate 5 (.call (.advance 0)) ++
    [.call (.start (.cached () second)), .call (.advance 1)]

theorem cachedCalls_apart_sample :
    ¬ ((configFunctions sampleConfigs).cacheKey (.get 1) =
        (configFunctions sampleConfigs).cacheKey (.getAll (some ['1'])) ->
      ConfigCall.get 1 = .getAll (some ['1'])) ∧
    exists s : NamespaceSystem Unit Unit Text ConfigCall,
      s.Answered (.get 1) (some "one".toList) ∧
      exists r, s.Produced (.get 1) r ∧
        Shows ((configFunctions sampleConfigs).settings true some some) r
          (some "one".toList) := by
  have happart := cachedCalls_apart Unit true some some sampleConfigs (fun _ _ => .ok none) ()
  constructor
  · intro hsame
    exact (happart.1 _ _).mp hsame rfl
  · rcases exists_reaches (NamespaceSystem.step
        ((configFunctions sampleConfigs).settings true some some) (configFunctions sampleConfigs))
        (fun _ _ => True) (NamespaceSystem.initial ()) (sampleCalls (.get 1) (.get 1))
        (fun s => (ConfigCall.get 1, some "one".toList) ∈ s.answers ∧
          s.started = [.get 1, .get 1]) (by decide +kernel)
      with ⟨s, hrun, hanswers, hstarted⟩
    have hanswered := NamespaceSystem.answered_of_mem hanswers
    refine ⟨s, hanswered, happart.2.2.1 s hrun ?_ _ _ hanswered⟩
    have hone : forall c, s.Called c -> c = .get 1 := by
      intro c hc
      have hin := NamespaceSystem.mem_started hc
      rw [hstarted] at hin
      simpa using hin
    intro c c' hc hc'
    rw [hone c hc, hone c' hc']
    exact id

/-- The list of all configurations of a type comes back as a single one. -/
theorem cachedCalls_clash :
    exists s : NamespaceSystem Unit Unit Text ConfigCall,
      Reaches (NamespaceSystem.step
        ((configFunctions sampleConfigs).settings true some some) (configFunctions sampleConfigs))
        (fun _ _ => True) (NamespaceSystem.initial ()) s ∧
      s.Answered (.getAll (some ['1'])) (some "one".toList) ∧
      forall r, ¬ s.Produced (.getAll (some ['1'])) r := by
  rcases exists_reaches (NamespaceSystem.step
      ((configFunctions sampleConfigs).settings true some some) (configFunctions sampleConfigs))
      (fun _ _ => True) (NamespaceSystem.initial ())
      (sampleCalls (.get 1) (.getAll (some ['1'])))
      (fun s => (ConfigCall.getAll (some ['1']), some "one".toList) ∈ s.answers ∧
        s.shared.returned = [(.get 1, some "one".toList)]) (by decide +kernel)
    with ⟨s, hrun, hanswers, hreturned⟩
  refine ⟨s, hrun, NamespaceSystem.answered_of_mem hanswers, ?_⟩
  intro r hproduced
  unfold NamespaceSystem.Produced at hproduced
  rw [hreturned] at hproduced
  cases List.mem_singleton.mp hproduced

end CachedFunctions
end RagService
