import Mathlib.Data.Fintype.Basic
import RagService.Cache.Concurrency

/-!
# Coherence of the cache

Both levels of the cache hold what the wrapped function would now read, as long as no
entry comes back between an invalidation and its commit.
-/

namespace RagService
namespace Cache

open Interleaving Transitions

variable {Process Database Data : Type}

/-!
# Entries that are up to date

What Redis has is up to date, and so is what a hot cache has but for what messages are about.
A call that keeps to its protocol puts only what is up to date into the cache; only a commit
changes the database.
-/

def CacheSettings.stored (cfg : CacheSettings Database Data) (key : Text) (db : Database) :
    Option Text :=
  match cfg.func key db with
  | .ok (some result) => cfg.serialize result
  | .ok none | .error _ => none

def CacheSettings.Unchanged (cfg : CacheSettings Database Data) (write : Database -> Database)
    (db : Database) (key : Text) : Prop :=
  cfg.stored key (write db) = cfg.stored key db

namespace CacheState

variable {cfg : CacheSettings Database Data} {s s' : CacheState Process Database Data}
variable {p : Process} {key : Text}

def Covered (s : CacheState Process Database Data) (p : Process) (key : Text) : Prop :=
  exists message, message ∈ s.inFlight p ∧ message.covers key = true

/-- Redis is up to date, and a hot cache is but for what messages are about. -/
structure Coherent (cfg : CacheSettings Database Data) (s : CacheState Process Database Data) :
    Prop where
  redis : forall key b, s.redis.lookup key = some b -> cfg.stored key s.db = some b
  hot : forall p key value, (s.hotCache p).lookup key = some value ->
    (cfg.stored key s.db).map cfg.deserialize = some value ∨ s.Covered p key

/-- What a command may do for the cache to stay coherent. -/
def Sound (cfg : CacheSettings Database Data) (s : CacheState Process Database Data) :
    CacheCommand Process Database Data -> Prop
  | .localSet _ key value => (cfg.stored key s.db).map cfg.deserialize = some value
  | .set key b => cfg.stored key s.db = some b
  | .commit write =>
      (forall key, key ∈ s.redis.keys -> cfg.Unchanged write s.db key) ∧
        forall p key, key ∈ (s.hotCache p).keys -> s.Covered p key ∨ cfg.Unchanged write s.db key
  | _ => True

theorem mem_keys_of_lookup {V : Type} {m : AList fun _ : Text => V} {v : V}
    (h : m.lookup key = some v) : key ∈ m.keys :=
  AList.mem_keys.mp (AList.lookup_isSome.mp (Option.isSome_iff_exists.mpr ⟨v, h⟩))

theorem Coherent.shrink (h : s.Coherent cfg) (hdb : s'.db = s.db)
    (hredis : forall key b, s'.redis.lookup key = some b -> s.redis.lookup key = some b)
    (hhot : forall p key value, (s'.hotCache p).lookup key = some value ->
      (s.hotCache p).lookup key = some value ∧ (s.Covered p key -> s'.Covered p key)) :
    s'.Coherent cfg := by
  constructor
  · intro key b hlookup
    rw [hdb]
    exact h.redis key b (hredis key b hlookup)
  · intro p key value hlookup
    rcases hhot p key value hlookup with ⟨hbefore, hcovered⟩
    rw [hdb]
    cases h.hot p key value hbefore with
    | inl hfresh => exact .inl hfresh
    | inr hmessage => exact .inr (hcovered hmessage)

theorem Coherent.onRedis {α : Type} (h : s.Coherent cfg) (h' : s'.Coherent cfg) (a : α) :
    (s.onRedis s' a).1.Coherent cfg := by
  unfold CacheState.onRedis
  split
  · exact h'
  · exact h

theorem covered_publish {message : Invalidation} (h : s.Covered p key) :
    (s.publish message).Covered p key := by
  rcases h with ⟨m, hm, hcovers⟩
  refine ⟨m, ?_, hcovers⟩
  unfold inFlight at hm
  show m ∈ ((s.listeners p).map (· ++ [message])).getD []
  cases hlistener : s.listeners p with
  | none =>
      rw [hlistener] at hm
      cases hm
  | some messages =>
      rw [hlistener] at hm
      exact List.mem_append_left _ hm

variable [DecidableEq Process]

theorem Coherent.updateHotCache (h : s.Coherent cfg) {f : HotCache Data -> HotCache Data}
    (hf : forall hot key value, (f hot).lookup key = some value -> hot.lookup key = some value) :
    (s.updateHotCache p f).Coherent cfg := by
  refine h.shrink rfl (fun _ _ hlookup => hlookup) fun q key value hlookup =>
    ⟨?_, fun hcovered => hcovered⟩
  by_cases hq : q = p
  · subst hq
    apply hf
    simpa [CacheState.updateHotCache] using hlookup
  · simpa [CacheState.updateHotCache, hq] using hlookup

/-- Commands that are sound keep the cache coherent. -/
theorem Coherent.exec (h : s.Coherent cfg) {c : CacheCommand Process Database Data}
    (hc : s.Sound cfg c) : (CacheState.exec cfg c s).1.Coherent cfg := by
  cases c with
  | localGet _ _ | query _ => exact h
  | get _ | «exists» _ | scanIter _ => exact h.onRedis h _
  | localSet p key value =>
      constructor
      · exact h.redis
      · intro q key' value' hlookup
        by_cases hq : q = p
        · subst hq
          have hinsert : ((s.hotCache q).insert key value).lookup key' = some value' := by
            simpa [CacheState.exec, CacheState.updateHotCache] using hlookup
          cases lookup_of_insert hinsert with
          | inl hnew =>
              rw [hnew.1, hnew.2]
              exact .inl hc
          | inr hold => exact h.hot q key' value' hold
        · apply h.hot q key' value'
          simpa [CacheState.exec, CacheState.updateHotCache, hq] using hlookup
  | localDelete p key =>
      exact h.updateHotCache fun hot key' value hlookup => (lookup_of_erase hlookup).2
  | localDeleteByPrefix p keyPrefix =>
      exact h.updateHotCache fun hot key value hlookup =>
        (HotCache.lookup_of_deleteByPrefix hlookup).2
  | publish message =>
      apply h.onRedis
      exact h.shrink rfl (fun _ _ hlookup => hlookup) fun _ _ _ hlookup =>
        ⟨hlookup, covered_publish⟩
  | set key b =>
      apply h.onRedis
      constructor
      · intro key' b' hlookup
        cases lookup_of_insert hlookup with
        | inl hnew =>
            rw [hnew.1, hnew.2]
            exact hc
        | inr hold => exact h.redis key' b' hold
      · exact h.hot
  | delete keys =>
      apply h.onRedis
      exact h.shrink rfl (fun _ _ hlookup => (lookup_of_eraseAll hlookup).2)
        fun _ _ _ hlookup => ⟨hlookup, fun hcovered => hcovered⟩
  | commit write =>
      constructor
      · intro key b hlookup
        exact (hc.1 key (mem_keys_of_lookup hlookup)).trans (h.redis key b hlookup)
      · intro p key value hlookup
        cases hc.2 p key (mem_keys_of_lookup hlookup) with
        | inl hcovered => exact .inr hcovered
        | inr hunchanged =>
            cases h.hot p key value hlookup with
            | inr hcovered => exact .inr hcovered
            | inl hfresh =>
                show (cfg.stored key (write s.db)).map _ = _ ∨ _
                rw [hunchanged]
                exact .inl hfresh

theorem exec_db {c : CacheCommand Process Database Data}
    (hc : forall write, c ≠ .commit write) : (CacheState.exec cfg c s).1.db = s.db := by
  have hredis : forall {α : Type} (s' : CacheState Process Database Data) (a : α),
      s'.db = s.db -> (s.onRedis s' a).1.db = s.db := by
    intro α s' a hdb
    unfold CacheState.onRedis
    split
    · exact hdb
    · rfl
  cases c with
  | commit write => exact absurd rfl (hc write)
  | localGet _ _ | localSet _ _ _ | localDelete _ _ | localDeleteByPrefix _ _ | query _ => rfl
  | get _ | «exists» _ | scanIter _ | publish _ | set _ _ | delete _ => exact hredis _ _ rfl

theorem Coherent.inHand (h : s.Coherent cfg) {op : CacheCall Process Database}
    {g : Option Text} {c : CacheCommand Process Database Data} (hallowed : Allowed cfg op g c)
    (hg : forall key b, op.reads cfg.ns = some key -> g = some b ->
      cfg.stored key s.db = some b) {b : Text} (hkey : op.reads cfg.ns = some key)
    (hb : Cache.inHand cfg g c (CacheState.exec cfg c s).2 = some b) :
    cfg.stored key s.db = some b := by
  cases c with
  | get key' =>
      cases hkey.symm.trans hallowed
      unfold CacheState.exec CacheState.onRedis at hb
      dsimp only at hb
      split at hb
      · cases hlookup : s.redis.lookup key with
        | none =>
            rw [hlookup] at hb
            exact hg key b hkey hb
        | some b' =>
            rw [hlookup] at hb
            cases hb
            exact h.redis key b hlookup
      · exact hg key b hkey hb
  | query key' =>
      cases hkey.symm.trans hallowed
      unfold CacheState.exec at hb
      dsimp only at hb
      unfold CacheSettings.stored
      cases hfunc : cfg.func key s.db with
      | error e =>
          rw [hfunc] at hb
          have hold := hg key b hkey hb
          unfold CacheSettings.stored at hold
          rwa [hfunc] at hold
      | ok found =>
          rw [hfunc] at hb
          cases found with
          | none =>
              have hold := hg key b hkey hb
              unfold CacheSettings.stored at hold
              rwa [hfunc] at hold
          | some result => exact hb
  | _ => exact hg key b hkey hb

omit [DecidableEq Process] in
/-- A call that keeps to its protocol issues sound commands, but for commits. -/
theorem sound_of_allowed {op : CacheCall Process Database} {g : Option Text}
    {c : CacheCommand Process Database Data} (hallowed : Allowed cfg op g c)
    (hg : forall key b, op.reads cfg.ns = some key -> g = some b ->
      cfg.stored key s.db = some b) (hc : forall write, c ≠ .commit write) : s.Sound cfg c := by
  cases c with
  | localSet p key value =>
      rcases hallowed with ⟨hkey, b, hb, hvalue⟩
      show (cfg.stored key s.db).map cfg.deserialize = some value
      rw [hg key b hkey hb, hvalue]
      rfl
  | set key b => exact hg key b hallowed.1 hallowed.2
  | commit write => exact absurd rfl (hc write)
  | _ => trivial

end CacheState

/-!
# Runs

Entries may go, and a listener may change where its process misses nothing.  A commit has to
find the cache clear of what it changes.
-/

namespace CacheSystem

variable [DecidableEq Process]
variable {cfg : CacheSettings Database Data} {s s' : CacheSystem Process Database Data}

/--
What a commit changes is in neither level, but for hot caches that a message is on its way
to, and no running call has read it and may still put it there.
-/
def CommitClear (cfg : CacheSettings Database Data) (s : CacheSystem Process Database Data)
    (write : Database -> Database) : Prop :=
  (forall key, key ∈ s.shared.redis.keys -> cfg.Unchanged write s.shared.db key) ∧
    (forall p key, key ∈ (s.shared.hotCache p).keys ->
      s.shared.Covered p key ∨ cfg.Unchanged write s.shared.db key) ∧
    forall call, call ∈ s.calls -> call.Ended ∨ call.progress = none ∨
      forall key, key ∈ call.op.reads cfg.ns -> cfg.Unchanged write s.shared.db key

def UpToDate (cfg : CacheSettings Database Data) (s : CacheSystem Process Database Data)
    (p : Process) : Prop :=
  forall key, key ∈ (s.shared.hotCache p).keys ->
    (cfg.stored key s.shared.db).map cfg.deserialize = (s.shared.hotCache p).lookup key

/--
Commits find the cache clear of what they change, and a listener is disconnected only when
it misses nothing.
-/
def Undisturbed (cfg : CacheSettings Database Data) (s : CacheSystem Process Database Data) :
    CacheEvent Process Database -> Prop
  | .call (.advance i) =>
      match s.calls[i]?.bind Call.command with
      | some (CacheCommand.commit write) => s.CommitClear cfg write
      | _ => True
  | .disconnect p => s.UpToDate cfg p
  | _ => True

section

variable [Fintype Process] [DecidableEq Data]

instance (cfg : CacheSettings Database Data) (s : CacheSystem Process Database Data)
    (write : Database -> Database) : Decidable (s.CommitClear cfg write) := by
  unfold CommitClear CacheSettings.Unchanged CacheState.Covered
  infer_instance

omit [DecidableEq Data] [DecidableEq Process] in
instance (s : CacheSystem Process Database Data) : Decidable s.Quiescent := by
  unfold Quiescent
  infer_instance

instance (cfg : CacheSettings Database Data) (s : CacheSystem Process Database Data)
    (e : CacheEvent Process Database) : Decidable (s.Undisturbed cfg e) := by
  unfold Undisturbed UpToDate
  split
  · split <;> infer_instance
  · infer_instance
  · infer_instance

end

structure Coherent (cfg : CacheSettings Database Data) (s : CacheSystem Process Database Data) :
    Prop where
  shared : s.shared.Coherent cfg
  hands : forall call, call ∈ s.calls -> ¬ call.Ended -> forall key b,
    call.op.reads cfg.ns = some key -> call.progress = some b ->
      cfg.stored key s.shared.db = some b
  followed : (cacheCalls cfg).Followed (Allowed cfg) (fun _ _ => True) (fun _ _ _ => True) s

theorem initial_coherent (cfg : CacheSettings Database Data) (db : Database) :
    (initial db : CacheSystem Process Database Data).Coherent cfg := by
  constructor
  · constructor
    · intro key b hlookup
      cases hlookup
    · intro p key value hlookup
      cases hlookup
  · intro call hcall
    cases hcall
  · intro call hcall
    cases hcall

theorem Coherent.environment (h : s.Coherent cfg) {shared : CacheState Process Database Data}
    (hshared : shared.Coherent cfg) (hdb : shared.db = s.shared.db) :
    Coherent cfg { s with shared := shared } := by
  constructor
  · exact hshared
  · intro call hcall hrunning key b hkey hb
    show cfg.stored key shared.db = some b
    rw [hdb]
    exact h.hands call hcall hrunning key b hkey hb
  · exact h.followed

theorem Coherent.call (h : s.Coherent cfg) {a : CallAction (CacheCall Process Database)}
    (hcond : s.Undisturbed cfg (.call a)) (hstep : (cacheCalls cfg).step s a = some s') :
    s'.Coherent cfg := by
  have hfollowed := CallSystem.followed_step (body_follows cfg) (fun _ => trivial) h.followed hstep
  cases CallSystem.step_cases hstep with
  | inl hstart =>
      rcases hstart with ⟨op, -, hshared, hcalls⟩
      constructor
      · rw [hshared]
        exact h.shared
      · intro call hcall hrunning key b hkey hb
        rw [hshared]
        cases Calls.mem_start hcalls hcall with
        | inl hold => exact h.hands call hold hrunning key b hkey hb
        | inr hnew =>
            rw [hnew] at hb
            cases hb
      · exact hfollowed
  | inr hadvance =>
      rcases hadvance with ⟨i, op, c, k, g, rfl, hi, hshared, hcalls⟩
      have hmem := List.mem_of_getElem? hi
      have hallowed : Allowed cfg op g c := (h.followed _ hmem).1
      have hg : forall key b, op.reads cfg.ns = some key -> g = some b ->
          cfg.stored key s.shared.db = some b :=
        fun key b => h.hands _ hmem id key b
      have hnew : forall key b, op.reads cfg.ns = some key ->
          inHand cfg g c (CacheState.exec cfg c s.shared).2 = some b ->
            cfg.stored key s.shared.db = some b :=
        fun key b => h.shared.inHand hallowed hg
      by_cases hcommit : exists write, c = CacheCommand.commit write
      · rcases hcommit with ⟨write, rfl⟩
        have hclear : s.CommitClear cfg write := by
          unfold Undisturbed at hcond
          dsimp only at hcond
          rw [hi] at hcond
          exact hcond
        have hkept : forall call, call ∈ s.calls -> ¬ call.Ended -> forall key b,
            call.op.reads cfg.ns = some key -> call.progress = some b ->
              cfg.stored key (write s.shared.db) = some b := by
          intro call hcall hrunning key b hkey hb
          rcases hclear.2.2 call hcall with hended | hnone | hunchanged
          · exact absurd hended hrunning
          · rw [hnone] at hb
            cases hb
          · exact (hunchanged key hkey).trans (h.hands call hcall hrunning key b hkey hb)
        constructor
        · rw [hshared]
          exact h.shared.exec ⟨hclear.1, hclear.2.1⟩
        · intro call hcall hrunning key b hkey hb
          rw [hshared]
          cases Calls.mem_advance hcalls hcall with
          | inl hold => exact hkept call hold hrunning key b hkey hb
          | inr heq =>
              -- the commit leaves the call that issues it with what it had in hand
              rw [heq] at hkey hb
              exact hkept _ hmem id key b hkey hb
        · exact hfollowed
      · have hother : forall write, c ≠ CacheCommand.commit write :=
          fun write heq => hcommit ⟨write, heq⟩
        constructor
        · rw [hshared]
          exact h.shared.exec (CacheState.sound_of_allowed hallowed hg hother)
        · intro call hcall hrunning key b hkey hb
          rw [hshared]
          show cfg.stored key (CacheState.exec cfg c s.shared).1.db = some b
          rw [CacheState.exec_db hother]
          cases Calls.mem_advance hcalls hcall with
          | inl hold => exact h.hands call hold hrunning key b hkey hb
          | inr heq =>
              rw [heq] at hkey hb
              exact hnew key b hkey hb
        · exact hfollowed

theorem Coherent.deliver (h : s.shared.Coherent cfg) {p : Process} {message : Invalidation}
    {rest : List Invalidation} (hlistener : s.shared.listeners p = some (message :: rest)) :
    ((s.shared.updateHotCache p (·.handle message)).setListener p (some rest)).Coherent cfg := by
  refine h.shrink rfl (fun _ _ hlookup => hlookup) fun q key value hlookup => ?_
  by_cases hq : q = p
  · subst hq
    have hhandled : ((s.shared.hotCache q).handle message).lookup key = some value := by
      simpa [CacheState.setListener, CacheState.updateHotCache] using hlookup
    rcases HotCache.lookup_of_handle hhandled with ⟨hnot, hbefore⟩
    constructor
    · exact hbefore
    · intro hcovered
      rcases hcovered with ⟨m, hm, hcovers⟩
      refine ⟨m, ?_, hcovers⟩
      unfold CacheState.inFlight at hm
      rw [hlistener] at hm
      cases List.mem_cons.mp hm with
      | inl heq =>
          rw [heq, hnot] at hcovers
          cases hcovers
      | inr hrest => simpa [CacheState.inFlight, CacheState.setListener] using hrest
  · constructor
    · simpa [CacheState.setListener, CacheState.updateHotCache, hq] using hlookup
    · intro hcovered
      rcases hcovered with ⟨m, hm, hcovers⟩
      refine ⟨m, ?_, hcovers⟩
      simpa [CacheState.inFlight, CacheState.setListener, CacheState.updateHotCache, hq] using hm

theorem Coherent.setListener (h : s.shared.Coherent cfg) {p : Process}
    {messages : Option (List Invalidation)}
    (hp : forall key value, (s.shared.hotCache p).lookup key = some value ->
      (cfg.stored key s.shared.db).map cfg.deserialize = some value) :
    (s.shared.setListener p messages).Coherent cfg := by
  constructor
  · exact h.redis
  · intro q key value hlookup
    by_cases hq : q = p
    · subst hq
      exact .inl (hp key value hlookup)
    · cases h.hot q key value hlookup with
      | inl hfresh => exact .inl hfresh
      | inr hcovered =>
          rcases hcovered with ⟨m, hm, hcovers⟩
          refine .inr ⟨m, ?_, hcovers⟩
          simpa [CacheState.inFlight, CacheState.setListener, hq] using hm

theorem Coherent.step (h : s.Coherent cfg) {e : CacheEvent Process Database}
    (hcond : s.Undisturbed cfg e) (hstep : s.step cfg e = some s') : s'.Coherent cfg := by
  cases e with
  | call a => exact h.call hcond hstep
  | deliver p =>
      unfold CacheSystem.step at hstep
      dsimp only at hstep
      split at hstep
      · rename_i message rest hlistener
        cases hstep
        exact h.environment (Coherent.deliver h.shared hlistener) rfl
      · cases hstep
  | connect p =>
      unfold CacheSystem.step at hstep
      dsimp only at hstep
      split at hstep
      · rename_i hlistener
        cases hstep
        refine h.environment (Coherent.setListener h.shared ?_) rfl
        intro key value hlookup
        refine (h.shared.hot p key value hlookup).resolve_right fun hcovered => ?_
        rcases hcovered with ⟨m, hm, -⟩
        unfold CacheState.inFlight at hm
        rw [hlistener] at hm
        cases hm
      · cases hstep
  | disconnect p =>
      unfold CacheSystem.step at hstep
      dsimp only at hstep
      split at hstep
      · cases hstep
        refine h.environment (Coherent.setListener h.shared ?_) rfl
        intro key value hlookup
        exact (hcond key (CacheState.mem_keys_of_lookup hlookup)).trans hlookup
      · cases hstep
  | expireLocal p key =>
      cases hstep
      refine h.environment ?_ rfl
      exact h.shared.updateHotCache fun hot key' value hlookup => (lookup_of_erase hlookup).2
  | expire key =>
      cases hstep
      refine h.environment ?_ rfl
      exact h.shared.shrink rfl (fun _ _ hlookup => (lookup_of_erase hlookup).2)
        fun _ _ _ hlookup => ⟨hlookup, fun hcovered => hcovered⟩
  | redis up =>
      cases hstep
      refine h.environment ?_ rfl
      exact h.shared.shrink rfl (fun _ _ hlookup => hlookup)
        fun _ _ _ hlookup => ⟨hlookup, fun hcovered => hcovered⟩

end CacheSystem
open CacheSystem

/--
When nothing runs and no message is in flight, every entry of both levels holds what the
wrapped function would now read, after a run in which every commit finds the cache clear of
what it changes and no listener is disconnected while its process has to hear of something.
-/
theorem cache_coherent [DecidableEq Process] (cfg : CacheSettings Database Data)
    (db : Database) (s : CacheSystem Process Database Data)
    (hrun : Reaches (CacheSystem.step cfg) (Undisturbed cfg) (initial db) s)
    (hquiet : s.Quiescent) :
    (forall key b, s.shared.redis.lookup key = some b ->
      cfg.stored key s.shared.db = some b) ∧
    forall p key value, (s.shared.hotCache p).lookup key = some value ->
      (cfg.stored key s.shared.db).map cfg.deserialize = some value := by
  have hinv : s.Coherent cfg :=
    hrun.invariant (CacheSystem.Coherent cfg) (initial_coherent cfg db)
      fun h hcond hstep => h.step hcond hstep
  constructor
  · exact hinv.shared.redis
  · intro p key value hlookup
    refine (hinv.shared.hot p key value hlookup).resolve_right fun hcovered => ?_
    rcases hcovered with ⟨message, hmessage, -⟩
    rw [hquiet.2 p] at hmessage
    cases hmessage

/-!
# Samples

One process reads the key `n:k` while another writes `b` to the database.
-/

def sampleCacheSettings : CacheSettings Text Text where
  ns := ['n']
  localEnabled := true
  serialize := some
  deserialize := some
  func := fun _ db => .ok (some db)

def sampleRead : CacheEvent Bool Text := .call (.start (.cached false (some (.ok ['k']))))

def sampleWrite : CacheEvent Bool Text :=
  .call (.start (.cacheInvalidate true (some (.ok ['k'])) true (.ok ()) fun _ => ['b']))

def sampleAdvance (i n : Nat) : List (CacheEvent Bool Text) :=
  List.replicate n (.call (.advance i))

theorem cache_coherent_sample : exists s : CacheSystem Bool Text Text,
    Reaches (CacheSystem.step sampleCacheSettings) (Undisturbed sampleCacheSettings)
      (initial ['a']) s ∧
      s.Quiescent ∧ (s.shared.redis.lookup ['n', ':', 'k']).isSome = true ∧
      forall b, s.shared.redis.lookup ['n', ':', 'k'] = some b ->
        sampleCacheSettings.stored ['n', ':', 'k'] s.shared.db = some b := by
  obtain ⟨s, hrun, hquiet, hsome⟩ := exists_reaches (CacheSystem.step sampleCacheSettings)
    (Undisturbed sampleCacheSettings) (initial ['a'])
    ([.connect false, sampleRead] ++ sampleAdvance 0 5 ++ [sampleWrite] ++ sampleAdvance 1 4 ++
      [.deliver false, sampleRead] ++ sampleAdvance 2 5)
    (fun s : CacheSystem Bool Text Text => s.Quiescent ∧ (s.shared.redis.lookup ['n', ':', 'k']).isSome = true)
    (by decide +kernel)
  exact ⟨s, hrun, hquiet, hsome, (cache_coherent sampleCacheSettings ['a'] s hrun hquiet).1 _⟩

/-- An entry that comes back between an invalidation and its commit stays. -/
theorem cache_coherent_fails : exists s : CacheSystem Bool Text Text,
    Reaches (CacheSystem.step sampleCacheSettings) (fun _ _ => True) (initial ['a']) s ∧
      s.Quiescent ∧ s.shared.redis.lookup ['n', ':', 'k'] = some ['a'] ∧
      (s.shared.hotCache false).lookup ['n', ':', 'k'] = some (some ['a']) ∧
      sampleCacheSettings.stored ['n', ':', 'k'] s.shared.db = some ['b'] :=
  exists_reaches (CacheSystem.step sampleCacheSettings) (fun _ _ => True) (initial ['a'])
    ([.connect false, sampleWrite] ++ sampleAdvance 0 3 ++ [.deliver false, sampleRead] ++
      sampleAdvance 1 5 ++ sampleAdvance 0 1)
    (fun s : CacheSystem Bool Text Text => s.Quiescent ∧ s.shared.redis.lookup ['n', ':', 'k'] = some ['a'] ∧
      (s.shared.hotCache false).lookup ['n', ':', 'k'] = some (some ['a']) ∧
      sampleCacheSettings.stored ['n', ':', 'k'] s.shared.db = some ['b'])
    (by decide +kernel)

end Cache
end RagService
