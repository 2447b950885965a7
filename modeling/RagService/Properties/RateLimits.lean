import RagService.Foundation.Utf8
import RagService.Foundation.Windows
import RagService.Limiter.Buckets

/-!
# Rate limits

No window has more admitted items than its rate allows, as long as the eviction of buckets
removes no item that counts: an item that has been put after the bucket was counted, or one
that is still new as seen from an item that waits to be put.
-/

namespace RagService
namespace RateLimits

open Interleaving Transitions Windows

abbrev LimiterConfig := Calls limiterInterface LimiterState LimiterCall Bool LimiterProgress

abbrev LimiterRequest := Call limiterInterface LimiterCall Bool LimiterProgress

def pendingStamp (settings : LimiterSettings) (key : Text) (call : LimiterRequest) : Option Nat :=
  match call.op with
  | .request _ identifier =>
      if settings.keyOf identifier = key ∧ call.progress.admitted = none then
        call.progress.stamp
      else
        none
  | .pass _ => none

def admittedStamp (identifier : Text) (call : LimiterRequest) : Option Nat :=
  match call.op with
  | .request _ identifier' =>
      if identifier' = identifier ∧ call.progress.admitted = some true then
        call.progress.stamp
      else
        none
  | .pass _ => none

namespace LimiterConfig

def initial (clock : Nat) (stored : Text -> List Nat) : LimiterConfig :=
  ⟨.initial clock stored, []⟩

def pending (settings : LimiterSettings) (cfg : LimiterConfig) (key : Text) : List Nat :=
  cfg.collect (pendingStamp settings key)

def admitted (cfg : LimiterConfig) (identifier : Text) : List Nat :=
  cfg.collect (admittedStamp identifier)

def cached (settings : LimiterSettings) (cfg : LimiterConfig) (process : Nat)
    (identifier : Text) : Option RedisTimeBucket :=
  ((cfg.shared.buckets process).get (settings.keyOf identifier)).map RedisBucketState.bucket

/-!
# Conditions

A lock is acquired when it is free, and an eviction removes no item that counts.
-/

def Runnable (cfg : LimiterConfig) : LimiterCommand -> Prop
  | .acquire process => cfg.shared.locked process = false
  | _ => True

/--
An item that may leak is too old for each item that waits to be put under its key, and a
key is flushed when it has no items.
-/
def Undisturbed (settings : LimiterSettings) (cfg : LimiterConfig) : LimiterCommand -> Prop
  | .leak key now => forall item, item ∈ cfg.shared.stored key ->
      item + largestInterval settings.rates ≤ now ->
        forall timestamp, timestamp ∈ cfg.pending settings key ->
          item + largestInterval settings.rates ≤ timestamp
  | .flush key => cfg.shared.stored key = []
  | _ => True

def Scheduled (cfg : LimiterConfig) : CallAction LimiterCall -> Prop
  | .start _ => True
  | .advance i => forall call, call ∈ cfg.calls[i]? ->
      forall c, c ∈ call.command -> cfg.Runnable c

def Spared (settings : LimiterSettings) (cfg : LimiterConfig) : CallAction LimiterCall -> Prop
  | .start _ => True
  | .advance i => forall call, call ∈ cfg.calls[i]? ->
      forall c, c ∈ call.command -> cfg.Undisturbed settings c

def ScheduledSpared (settings : LimiterSettings) (cfg : LimiterConfig)
    (a : CallAction LimiterCall) : Prop :=
  cfg.Scheduled a ∧ cfg.Spared settings a

instance (cfg : LimiterConfig) : (c : LimiterCommand) -> Decidable (cfg.Runnable c)
  | .acquire process => inferInstanceAs (Decidable (cfg.shared.locked process = false))
  | .pass _ | .time | .release _ | .find _ _ _ | .insert _ _ _ | .items _ => .isTrue trivial
  | .pop _ _ | .trim _ | .put _ _ | .leak _ _ | .count _ | .flush _ => .isTrue trivial

instance (settings : LimiterSettings) (cfg : LimiterConfig) :
    (c : LimiterCommand) -> Decidable (cfg.Undisturbed settings c)
  | .leak key now => inferInstanceAs (Decidable (forall item, item ∈ cfg.shared.stored key ->
      item + largestInterval settings.rates ≤ now ->
        forall timestamp, timestamp ∈ cfg.pending settings key ->
          item + largestInterval settings.rates ≤ timestamp))
  | .flush key => inferInstanceAs (Decidable (cfg.shared.stored key = []))
  | .pass _ | .time | .acquire _ | .release _ | .find _ _ _ | .insert _ _ _ => .isTrue trivial
  | .items _ | .pop _ _ | .trim _ | .put _ _ | .count _ => .isTrue trivial

instance (cfg : LimiterConfig) : (a : CallAction LimiterCall) -> Decidable (cfg.Scheduled a)
  | .start _ => .isTrue trivial
  | .advance i => inferInstanceAs (Decidable (forall call, call ∈ cfg.calls[i]? ->
      forall c, c ∈ call.command -> cfg.Runnable c))

instance (settings : LimiterSettings) (cfg : LimiterConfig) :
    (a : CallAction LimiterCall) -> Decidable (cfg.Spared settings a)
  | .start _ => .isTrue trivial
  | .advance i => inferInstanceAs (Decidable (forall call, call ∈ cfg.calls[i]? ->
      forall c, c ∈ call.command -> cfg.Undisturbed settings c))

instance (settings : LimiterSettings) (cfg : LimiterConfig) (a : CallAction LimiterCall) :
    Decidable (cfg.ScheduledSpared settings a) :=
  inferInstanceAs (Decidable (_ ∧ _))

end LimiterConfig

open LimiterConfig

/-!
# Keys

Identifiers with the same key are the same.
-/

variable {settings : LimiterSettings} {redis : RedisBucket settings.rates}

theorem le_largestInterval {rates : List Rate} {rate : Rate} (h : rate ∈ rates) :
    rate.interval ≤ largestInterval rates := by
  induction rates with
  | nil => cases h
  | cons first rest ih =>
      show rate.interval ≤ max first.interval (largestInterval rest)
      cases List.mem_cons.mp h with
      | inl heq =>
          rw [heq]
          exact Nat.le_max_left ..
      | inr hrest => exact Nat.le_trans (ih hrest) (Nat.le_max_right ..)

theorem keyOf_injective (hsha : Function.Injective settings.sha256) :
    Function.Injective settings.keyOf := by
  intro a b h
  exact Text.encode_injective (hsha (List.append_cancel_left h))

/-!
# The protocol of a request

A request waits with its item and has a bucket with the key of its identifier.
-/

def Allowed (settings : LimiterSettings) : LimiterCall -> LimiterProgress -> LimiterCommand -> Prop
  | .request _ _, g, .time => g.stamp = none -> g.admitted = none
  | .request _ identifier, g, .put key timestamp =>
      key = settings.keyOf identifier ∧ g.stamp = some timestamp ∧ g.admitted = none
  | .request _ _, g, .leak _ now => g.now = some now
  | .request _ _, _, .insert _ key state => state.bucket.bucketKey = key
  | .request _ _, _, .pass _ => False
  | .request _ _, _, _ => True
  | .pass _, _, .pass _ => True
  | .pass _, _, _ => False

def Possible : (c : LimiterCommand) -> Except Empty c.Result -> Prop
  | .find _ key _, .ok (some bucket) => bucket.bucketKey = key
  | _, _ => True

def limiterProtocol (settings : LimiterSettings) (redis : RedisBucket settings.rates)
    (op : LimiterCall) : Protocol limiterInterface LimiterProgress :=
  (limiterCalls settings redis).protocol (Allowed settings) Possible op

def Same {α : Type} (g : LimiterProgress) (g' : LimiterProgress) (_ : Except Empty α) : Prop :=
  g' = g

def Found (key : Text) (g : LimiterProgress) (g' : LimiterProgress) :
    Except Empty RedisTimeBucket -> Prop
  | .ok bucket => g'.stamp = g.stamp ∧ g'.admitted = g.admitted ∧ bucket.bucketKey = key
  | .error e => nomatch e

section

variable {process : Nat} {identifier : Text} {g : LimiterProgress} {now : Nat}

theorem dispose_follows (hnow : g.now = some now) (key : Text) (state : RedisBucketState) :
    (limiterProtocol settings redis (.request process identifier)).Follows (Same g) g
      (RedisBucketFactory.dispose process key state now) := by
  apply Protocol.follows_issue_bind
  · trivial
  · intro _ _
    apply Protocol.follows_issue_bind
    · exact hnow
    · intro _ _
      apply Protocol.follows_issue_bind
      · trivial
      · intro count _
        show Protocol.Follows _ _ g (if count = 0 then _ else _)
        split
        · refine ⟨trivial, fun r _ => ?_⟩
          cases r with
          | ok _ => rfl
          | error e => nomatch e
        · rfl
      · nofun
    · nofun
  · nofun

theorem evict_follows (hnow : g.now = some now) :
    (limiterProtocol settings redis (.request process identifier)).Follows (Same g) g
      (RedisBucketFactory.evict settings process now) := by
  apply Protocol.follows_issue_bind
  · trivial
  · intro buckets _
    apply Protocol.follows_bind (Q := Same g)
    · apply Protocol.follows_forEach
      intro p _
      show Protocol.Follows _ _ g (if _ then _ else _)
      split
      · rfl
      · exact dispose_follows hnow p.1 p.2
    · intro g' _ hsame
      rw [show g' = g from hsame]
      refine ⟨trivial, fun r _ => ?_⟩
      cases r with
      | ok _ => rfl
      | error e => nomatch e
    · nofun
  · nofun

theorem create_follows {key : Text} (hnow : g.now = some now) :
    (limiterProtocol settings redis (.request process identifier)).Follows (Found key g) g
      (RedisBucketFactory.create settings process key now) := by
  apply Protocol.follows_issue_bind
  · rfl
  · intro _ _
    apply Protocol.follows_bind (evict_follows hnow)
    · intro g' _ hsame
      rw [show g' = g from hsame]
      apply Protocol.follows_issue_bind
      · trivial
      · intro _ _
        exact ⟨rfl, rfl, rfl⟩
      · nofun
    · nofun
  · nofun

theorem get_follows {timestamp : Nat} (hstamp : g.stamp = some timestamp) :
    (limiterProtocol settings redis (.request process identifier)).Follows
      (Found (settings.keyOf identifier) g) g
      (RedisBucketFactory.get settings process identifier) := by
  apply Protocol.follows_issue_bind
  · intro hnone
    rw [hstamp] at hnone
    cases hnone
  · intro now _
    have hnext : g.next .time (.ok now) = { g with now := some now } :=
      if_neg (by rw [hstamp]; nofun)
    show Protocol.Follows _ _ (g.next .time (.ok now)) _
    rw [hnext]
    apply Protocol.follows_issue_bind
    · trivial
    · intro _ _
      apply Protocol.follows_issue_bind
      · trivial
      · intro state hstate
        cases state with
        | none =>
            apply Protocol.follows_mono (create_follows rfl)
            intro g' o hfound
            cases o with
            | ok bucket => exact hfound
            | error e => nomatch e
        | some bucket =>
            apply Protocol.follows_issue_bind
            · trivial
            · intro _ _
              exact ⟨rfl, rfl, hstate⟩
            · nofun
      · nofun
    · nofun
  · nofun

theorem getBucket_follows {timestamp : Nat} (hstamp : g.stamp = some timestamp) :
    (limiterProtocol settings redis (.request process identifier)).Follows (fun _ _ => True) g
      (RedisBucketFactory.getBucket settings process identifier) := by
  apply Protocol.follows_issue_bind
  · intro hnone
    rw [hstamp] at hnone
    cases hnone
  · intro now _
    have hnext : g.next .time (.ok now) = { g with now := some now } :=
      if_neg (by rw [hstamp]; nofun)
    show Protocol.Follows _ _ (g.next .time (.ok now)) _
    rw [hnext]
    apply Protocol.follows_mono (get_follows (g := { g with now := some now }) hstamp)
    intro _ _ _
    trivial
  · nofun

theorem rateLimiter_follows :
    (limiterProtocol settings redis (.request process identifier)).Follows (fun _ _ => True)
      ⟨none, none, none⟩ (rateLimiter settings process identifier) := by
  apply Protocol.follows_issue_bind
  · intro _
    rfl
  · intro timestamp _
    apply Protocol.follows_bind (get_follows (g := ⟨some timestamp, none, none⟩) rfl)
    · intro g' bucket hfound
      rcases hfound with ⟨hstamp, hadmitted, hkey⟩
      apply Protocol.follows_issue_bind
      · exact ⟨hkey, hstamp, hadmitted⟩
      · intro acquired _
        cases acquired with
        | true => trivial
        | false =>
            show Protocol.Follows _ _ { g' with admitted := some false }
              ((RedisBucketFactory.getBucket settings process identifier).bind _)
            apply Protocol.follows_bind
              (getBucket_follows (g := { g' with admitted := some false }) hstamp)
            · intro _ _ _
              trivial
            · nofun
      · nofun
    · nofun
  · nofun

theorem limiterBody_follows (settings : LimiterSettings) (redis : RedisBucket settings.rates)
    (op : LimiterCall) : (limiterProtocol settings redis op).Follows (fun _ _ => True)
      ⟨none, none, none⟩ (op.body settings) := by
  cases op with
  | request process identifier => exact rateLimiter_follows
  | pass ms =>
      apply Protocol.follows_issue_bind
      · trivial
      · intro _ _
        trivial
      · nofun

end

/-!
# Caches

The cached buckets have the keys under which they are cached.
-/

def Cached (s : LimiterState) : Prop :=
  forall process p, p ∈ s.buckets process -> p.2.bucket.bucketKey = p.1

theorem cached_exec {s : LimiterState} {c : LimiterCommand} (h : Cached s)
    (hinsert : forall process key state, c = .insert process key state ->
      state.bucket.bucketKey = key) : Cached (s.exec settings redis c).1 := by
  have hset : forall process buckets, (forall p, p ∈ buckets -> p.2.bucket.bucketKey = p.1) ->
      Cached (s.setBuckets process buckets) := by
    intro process buckets hbuckets process' p hp
    have hp : p ∈ Function.update s.buckets process buckets process' := hp
    by_cases hprocess : process' = process
    · rw [hprocess, Function.update_self] at hp
      exact hbuckets p hp
    · rw [Function.update_of_ne hprocess] at hp
      exact h process' p hp
  cases c with
  | find process key now =>
      simp only [LimiterState.exec]
      split
      · exact h
      · rename_i state hstate
        apply hset
        intro p hp
        cases List.mem_append.mp hp with
        | inl hold => exact h process p (List.mem_of_mem_filter hold)
        | inr hlast =>
            rw [List.mem_singleton.mp hlast]
            exact h process (key, state) (Dict.mem_of_get hstate)
  | insert process key state =>
      apply hset
      intro p hp
      cases Dict.mem_set hp with
      | inl hnew =>
          rw [hnew]
          exact hinsert process key state rfl
      | inr hold => exact h process p hold
  | pop process key =>
      apply hset
      intro p hp
      exact h process p (List.mem_of_mem_filter hp)
  | trim process =>
      apply hset
      intro p hp
      exact h process p (List.mem_of_mem_drop hp)
  | put key timestamp =>
      simp only [LimiterState.exec]
      split
      · exact h
      · exact h
  | pass _ | time | acquire _ | release _ | items _ | leak _ _ | count _ | flush _ => exact h

theorem possible_exec {s : LimiterState} (h : Cached s) (c : LimiterCommand) :
    Possible c (s.exec settings redis c).2 := by
  cases c with
  | find process key now =>
      simp only [LimiterState.exec]
      split
      · trivial
      · rename_i state hstate
        exact h process _ (Dict.mem_of_get hstate)
  | pass _ | time | acquire _ | release _ | insert _ _ _ | items _ | pop _ _ | trim _ => trivial
  | put _ _ | leak _ _ | count _ | flush _ => trivial

/-!
# Steps

The clock never goes back.  A call that keeps its timestamp and its answer changes neither
list, an item that has been answered does not wait any more, and what leaves the store is too
old to count.
-/

variable {cfg cfg' : LimiterConfig}

def Limited (settings : LimiterSettings) (cfg : LimiterConfig) (identifier : Text) : Prop :=
  Logged (largestInterval settings.rates) cfg.shared.clock
    (cfg.pending settings (settings.keyOf identifier))
    (cfg.shared.stored (settings.keyOf identifier)) (cfg.admitted identifier) ∧
  forall rate, rate ∈ settings.rates -> Within rate.limit rate.interval (cfg.admitted identifier)

structure BucketsKept (settings : LimiterSettings) (redis : RedisBucket settings.rates)
    (cfg : LimiterConfig) : Prop where
  followed : (limiterCalls settings redis).Followed (Allowed settings) Possible
    (fun _ _ _ => True) cfg
  cached : Cached cfg.shared

structure LimitsKept (settings : LimiterSettings) (redis : RedisBucket settings.rates)
    (cfg : LimiterConfig) : Prop extends BucketsKept settings redis cfg where
  /-- no call has read a time that is still to come -/
  now : forall call, call ∈ cfg.calls -> forall now, call.progress.now = some now ->
    now ≤ cfg.shared.clock
  limited : forall identifier, Limited settings cfg identifier

section

variable {i : Nat} {call call' : LimiterRequest} {identifier : Text}

theorem stamps_advance (settings : LimiterSettings) (hi : cfg.calls[i]? = some call)
    (hcalls : cfg'.calls = cfg.calls.set i call') (hop : call'.op = call.op)
    (hstamp : call'.progress.stamp = call.progress.stamp)
    (hadmitted : call'.progress.admitted = call.progress.admitted) :
    (forall key, cfg'.pending settings key = cfg.pending settings key) ∧
      forall identifier, cfg'.admitted identifier = cfg.admitted identifier := by
  constructor
  · intro key
    apply Calls.collect_advance hi hcalls
    unfold pendingStamp
    rw [hop, hstamp, hadmitted]
  · intro identifier
    apply Calls.collect_advance hi hcalls
    unfold admittedStamp
    rw [hop, hstamp, hadmitted]

theorem limited_same (h : Limited settings cfg identifier) (hi : cfg.calls[i]? = some call)
    (hcalls : cfg'.calls = cfg.calls.set i call') (hop : call'.op = call.op)
    (hstamp : call'.progress.stamp = call.progress.stamp)
    (hadmitted : call'.progress.admitted = call.progress.admitted)
    (hclock : cfg.shared.clock ≤ cfg'.shared.clock)
    (hstored : cfg'.shared.stored = cfg.shared.stored) : Limited settings cfg' identifier := by
  rcases stamps_advance settings hi hcalls hop hstamp hadmitted with ⟨hpending, hlist⟩
  unfold Limited
  rw [hpending, hlist, hstored]
  exact ⟨h.1.mono hclock fun t ht => .inl ht, h.2⟩

/-- Items leave the store of a key. -/
theorem limited_remove {key : Text} {kept old : List Nat}
    (h : Limited settings cfg identifier) (hi : cfg.calls[i]? = some call)
    (hcalls : cfg'.calls = cfg.calls.set i call') (hop : call'.op = call.op)
    (hprogress : call'.progress = call.progress)
    (hshared : cfg'.shared = cfg.shared.setStored key kept)
    (hperm : (cfg.shared.stored key).Perm (kept ++ old))
    (hsafe : forall item, item ∈ old -> item + largestInterval settings.rates ≤ cfg.shared.clock ∧
      forall timestamp, timestamp ∈ cfg.pending settings key ->
        item + largestInterval settings.rates ≤ timestamp) :
    Limited settings cfg' identifier := by
  rcases stamps_advance settings hi hcalls hop (by rw [hprogress]) (by rw [hprogress]) with
    ⟨hpending, hlist⟩
  unfold Limited
  rw [hpending, hlist, hshared]
  refine ⟨?_, h.2⟩
  show Logged _ cfg.shared.clock _ (Function.update cfg.shared.stored key kept _) _
  by_cases hkey : settings.keyOf identifier = key
  · rw [hkey, Function.update_self]
    rw [← hkey] at hperm hsafe ⊢
    exact h.1.remove hperm hsafe
  · rw [Function.update_of_ne hkey]
    exact h.1

theorem limited_stamp (h : Limited settings cfg identifier) (hi : cfg.calls[i]? = some call)
    (hcalls : cfg'.calls = cfg.calls.set i call') (hshared : cfg'.shared = cfg.shared)
    (hstamp : call'.progress.stamp = some cfg.shared.clock)
    (hadmitted : call'.progress.admitted = none) (hold : call.progress.admitted = none) :
    Limited settings cfg' identifier := by
  have hlist : cfg'.admitted identifier = cfg.admitted identifier := by
    apply Calls.collect_advance hi hcalls
    unfold admittedStamp
    rw [hadmitted, hold]
    cases call'.op with
    | request _ _ =>
        cases call.op with
        | request _ _ => simp
        | pass _ => simp
    | pass _ =>
        cases call.op with
        | request _ _ => simp
        | pass _ => rfl
  unfold Limited
  rw [hlist, hshared]
  refine ⟨h.1.mono (Nat.le_refl _) ?_, h.2⟩
  intro t ht
  cases Calls.mem_collect_advance hcalls ht with
  | inl hbefore => exact .inl hbefore
  | inr hnew =>
      unfold pendingStamp at hnew
      split at hnew
      · split at hnew
        · rw [hstamp] at hnew
          cases hnew
          exact .inr (Nat.le_refl _)
        · cases hnew
      · cases hnew

theorem pending_answered (hcalls : cfg'.calls = cfg.calls.set i call')
    (hanswered : call'.progress.admitted ≠ none) {key : Text} {t : Nat}
    (ht : t ∈ cfg'.pending settings key) : t ∈ cfg.pending settings key := by
  cases Calls.mem_collect_advance hcalls ht with
  | inl hbefore => exact hbefore
  | inr hnew =>
      unfold pendingStamp at hnew
      split at hnew
      · split at hnew
        · rename_i hcond
          exact absurd hcond.2 hanswered
        · cases hnew
      · cases hnew

theorem limited_put (hsha : Function.Injective settings.sha256)
    (h : Limited settings cfg identifier) (hi : cfg.calls[i]? = some call)
    (hcalls : cfg'.calls = cfg.calls.set i call') (hop : call'.op = call.op)
    {process timestamp : Nat} {name : Text} (hname : call.op = .request process name)
    (hstamp : call.progress.stamp = some timestamp) (hwaits : call.progress.admitted = none)
    (hstamp' : call'.progress.stamp = some timestamp)
    (hanswer : call'.progress.admitted =
      some (redis.admits (cfg.shared.stored (settings.keyOf name)) timestamp))
    (hshared : cfg'.shared =
      if redis.admits (cfg.shared.stored (settings.keyOf name)) timestamp then
        cfg.shared.setStored (settings.keyOf name)
          (timestamp :: cfg.shared.stored (settings.keyOf name))
      else cfg.shared) : Limited settings cfg' identifier := by
  have hpending : forall t, t ∈ cfg'.pending settings (settings.keyOf identifier) ->
      t ∈ cfg.pending settings (settings.keyOf identifier) :=
    fun t => pending_answered hcalls (by rw [hanswer]; nofun)
  have hbefore : forall id, admittedStamp id call = none := by
    intro id
    unfold admittedStamp
    rw [hname, hwaits]
    simp
  cases hadmits : redis.admits (cfg.shared.stored (settings.keyOf name)) timestamp with
  | false =>
      rw [hadmits] at hanswer hshared
      have hlist : cfg'.admitted identifier = cfg.admitted identifier := by
        apply Calls.collect_advance hi hcalls
        rw [hbefore]
        unfold admittedStamp
        rw [hop, hname, hanswer]
        simp
      unfold Limited
      rw [hlist, show cfg'.shared = cfg.shared from hshared]
      exact ⟨h.1.mono (Nat.le_refl _) fun t ht => .inl (hpending t ht), h.2⟩
  | true =>
      rw [hadmits] at hanswer hshared
      have hshared : cfg'.shared = cfg.shared.setStored (settings.keyOf name)
          (timestamp :: cfg.shared.stored (settings.keyOf name)) := hshared
      by_cases hid : identifier = name
      · subst hid
        have hperm : (cfg'.admitted identifier).Perm (timestamp :: cfg.admitted identifier) := by
          apply Calls.collect_advance_new hi hcalls (hbefore identifier)
          unfold admittedStamp
          rw [hop, hname, hanswer, hstamp']
          simp
        have hwaiting : timestamp ∈ cfg.pending settings (settings.keyOf identifier) := by
          refine List.mem_filterMap.mpr ⟨call, List.mem_of_getElem? hi, ?_⟩
          unfold pendingStamp
          rw [hname, hwaits, hstamp]
          simp
        unfold Limited
        rw [hshared]
        constructor
        · show Logged _ cfg.shared.clock _
            (Function.update cfg.shared.stored (settings.keyOf identifier) _ _) _
          rw [Function.update_self]
          apply Logged.perm _ hperm
          exact (h.1.mono (Nat.le_refl _) fun t ht => .inl (hpending t ht)).put timestamp
        · intro rate hrate
          apply Within.perm _ hperm
          exact h.1.within_put (h.2 rate hrate) hwaiting (le_largestInterval hrate)
            ((redis.admits_iff _ _).mp hadmits rate hrate)
      · have hlist : cfg'.admitted identifier = cfg.admitted identifier := by
          apply Calls.collect_advance hi hcalls
          rw [hbefore]
          unfold admittedStamp
          rw [hop, hname]
          simp [Ne.symm hid]
        unfold Limited
        rw [hlist, hshared]
        refine ⟨?_, h.2⟩
        show Logged _ cfg.shared.clock _
          (Function.update cfg.shared.stored (settings.keyOf name) _ _) _
        rw [Function.update_of_ne fun heq => hid (keyOf_injective hsha heq)]
        exact h.1.mono (Nat.le_refl _) fun t ht => .inl (hpending t ht)

theorem limited_advance (hsha : Function.Injective settings.sha256)
    (h : LimitsKept settings redis cfg) {op : LimiterCall} {c : LimiterCommand}
    {k : Except Empty c.Result -> LimiterAction Bool} {g : LimiterProgress}
    (hi : cfg.calls[i]? = some ⟨op, .call c k, g⟩)
    (hshared : cfg'.shared = (cfg.shared.exec settings redis c).1)
    (hcalls : cfg'.calls = cfg.calls.set i ⟨op, k (cfg.shared.exec settings redis c).2,
      g.next c (cfg.shared.exec settings redis c).2⟩)
    (hspared : cfg.Undisturbed settings c) : Limited settings cfg' identifier := by
  have hlimited := h.limited identifier
  have hcall := List.mem_of_getElem? hi
  have hallowed : Allowed settings op g c := (h.followed _ hcall).1
  cases c with
  | pass ms =>
      apply limited_same hlimited hi hcalls rfl rfl rfl
      · rw [hshared]
        exact Nat.le_add_right ..
      · rw [hshared]
        rfl
  | time =>
      have hshared : cfg'.shared = cfg.shared := hshared
      cases op with
      | pass _ => exact hallowed.elim
      | request process name =>
          by_cases hnone : g.stamp = none
          · have hnext : g.next .time (.ok cfg.shared.clock) =
                { g with stamp := some cfg.shared.clock } := if_pos hnone
            have hcalls : cfg'.calls = cfg.calls.set i ⟨.request process name, _,
              g.next .time (.ok cfg.shared.clock)⟩ := hcalls
            rw [hnext] at hcalls
            exact limited_stamp hlimited hi hcalls hshared rfl (hallowed hnone) (hallowed hnone)
          · have hnext : g.next .time (.ok cfg.shared.clock) =
                { g with now := some cfg.shared.clock } := if_neg hnone
            have hcalls : cfg'.calls = cfg.calls.set i ⟨.request process name, _,
              g.next .time (.ok cfg.shared.clock)⟩ := hcalls
            rw [hnext] at hcalls
            exact limited_same hlimited hi hcalls rfl rfl rfl (by rw [hshared]) (by rw [hshared])
  | put key timestamp =>
      cases op with
      | pass _ => exact hallowed.elim
      | request process name =>
          rcases hallowed with ⟨rfl, hstamp, hwaits⟩
          cases hadmits : redis.admits (cfg.shared.stored (settings.keyOf name)) timestamp with
          | false =>
              have hexec : cfg.shared.exec settings redis (.put (settings.keyOf name) timestamp) =
                  (cfg.shared, .ok false) := by
                simp only [LimiterState.exec, hadmits]
                rfl
              rw [hexec] at hshared hcalls
              have hanswer : some false =
                  some (redis.admits (cfg.shared.stored (settings.keyOf name)) timestamp) := by
                rw [hadmits]
              apply limited_put hsha hlimited hi hcalls rfl rfl hstamp hwaits hstamp hanswer
              rw [hadmits]
              exact hshared
          | true =>
              have hexec : cfg.shared.exec settings redis (.put (settings.keyOf name) timestamp) =
                  (cfg.shared.setStored (settings.keyOf name)
                    (timestamp :: cfg.shared.stored (settings.keyOf name)), .ok true) := by
                simp only [LimiterState.exec, hadmits]
                rfl
              rw [hexec] at hshared hcalls
              have hanswer : some true =
                  some (redis.admits (cfg.shared.stored (settings.keyOf name)) timestamp) := by
                rw [hadmits]
              apply limited_put hsha hlimited hi hcalls rfl rfl hstamp hwaits hstamp hanswer
              rw [hadmits]
              exact hshared
  | leak key now =>
      cases op with
      | pass _ => exact hallowed.elim
      | request process name =>
          rcases redis.leak_old (cfg.shared.stored key) now with ⟨old, hperm, hold⟩
          have hclock := h.now _ hcall now hallowed
          apply limited_remove hlimited hi hcalls rfl rfl hshared hperm
          intro item hitem
          have hstored : item ∈ cfg.shared.stored key :=
            hperm.mem_iff.mpr (List.mem_append_right _ hitem)
          exact ⟨Nat.le_trans (hold item hitem) hclock, hspared item hstored (hold item hitem)⟩
  | flush key =>
      have hempty : cfg.shared.stored key = [] := hspared
      have hperm : (cfg.shared.stored key).Perm ([] ++ []) := by
        rw [hempty]
        exact .refl _
      apply limited_remove hlimited hi hcalls rfl rfl hshared hperm
      nofun
  | find process key now =>
      have hsame : cfg'.shared.clock = cfg.shared.clock ∧
          cfg'.shared.stored = cfg.shared.stored := by
        rw [hshared]
        simp only [LimiterState.exec]
        split
        · exact ⟨rfl, rfl⟩
        · exact ⟨rfl, rfl⟩
      exact limited_same hlimited hi hcalls rfl rfl rfl (Nat.le_of_eq hsame.1.symm) hsame.2
  | acquire _ | release _ | insert _ _ _ | items _ | pop _ _ | trim _ | count _ =>
      apply limited_same hlimited hi hcalls rfl rfl rfl
      · rw [hshared]
        exact Nat.le_refl _
      · rw [hshared]
        rfl

theorem BucketsKept.initial (clock : Nat) (stored : Text -> List Nat) :
    BucketsKept settings redis (.initial clock stored) := by
  constructor
  · nofun
  · nofun

theorem LimitsKept.initial (clock : Nat) (stored : Text -> List Nat) :
    LimitsKept settings redis (.initial clock stored) := by
  constructor
  · exact .initial clock stored
  · nofun
  · intro identifier
    exact ⟨Logged.nil .., fun rate _ => Within.nil rate.limit rate.interval⟩

theorem BucketsKept.step (h : BucketsKept settings redis cfg) {a : CallAction LimiterCall}
    (hstep : (limiterCalls settings redis).step cfg a = some cfg') :
    BucketsKept settings redis cfg' := by
  constructor
  · exact CallSystem.followed_step (limiterBody_follows settings redis)
      (possible_exec h.cached) h.followed hstep
  · cases CallSystem.step_cases hstep with
    | inl hstart =>
        rcases hstart with ⟨op, -, hshared, -⟩
        rw [hshared]
        exact h.cached
    | inr hadvance =>
        rcases hadvance with ⟨i, op, c, k, g, -, hi, hshared, -⟩
        have hcall := List.mem_of_getElem? hi
        have hshared : cfg'.shared = (cfg.shared.exec settings redis c).1 := hshared
        rw [hshared]
        apply cached_exec h.cached
        intro process key state heq
        subst heq
        cases op with
        | request _ _ => exact (h.followed _ hcall).1
        | pass _ => exact (h.followed _ hcall).1.elim

theorem clock_exec (redis : RedisBucket settings.rates) (s : LimiterState) (c : LimiterCommand) :
    s.clock ≤ (s.exec settings redis c).1.clock := by
  cases c with
  | pass ms => exact Nat.le_add_right ..
  | find process key now =>
      simp only [LimiterState.exec]
      split
      · exact Nat.le_refl _
      · exact Nat.le_refl _
  | put key timestamp =>
      simp only [LimiterState.exec]
      split
      · exact Nat.le_refl _
      · exact Nat.le_refl _
  | time | acquire _ | release _ | insert _ _ _ | items _ | pop _ _ | trim _ | leak _ _
  | count _ | flush _ => exact Nat.le_refl _

theorem now_next {s : LimiterState} {c : LimiterCommand} {g : LimiterProgress} {now : Nat}
    (h : (g.next c (s.exec settings redis c).2).now = some now) :
    g.now = some now ∨ now = s.clock := by
  cases c with
  | time =>
      have h : (if g.stamp = none then { g with stamp := some s.clock }
        else { g with now := some s.clock }).now = some now := h
      split at h
      · exact .inl h
      · exact .inr (Option.some.inj h).symm
  | put key timestamp =>
      simp only [LimiterState.exec] at h
      split at h
      · exact .inl h
      · exact .inl h
  | pass _ | find _ _ _ | acquire _ | release _ | insert _ _ _ | items _ | pop _ _ | trim _
  | leak _ _ | count _ | flush _ => exact .inl h

theorem LimitsKept.step (hsha : Function.Injective settings.sha256)
    (h : LimitsKept settings redis cfg) {a : CallAction LimiterCall}
    (hspared : cfg.Spared settings a)
    (hstep : (limiterCalls settings redis).step cfg a = some cfg') :
    LimitsKept settings redis cfg' := by
  have hbuckets := h.toBucketsKept.step hstep
  cases CallSystem.step_cases hstep with
  | inl hstart =>
      rcases hstart with ⟨op, rfl, hshared, hcalls⟩
      constructor
      · exact hbuckets
      · intro call hcall now hnow
        rw [hshared]
        cases Calls.mem_start hcalls hcall with
        | inl hold => exact h.now call hold now hnow
        | inr hnew =>
            rw [hnew] at hnow
            cases hnow
      · intro identifier
        have hpending : cfg'.pending settings (settings.keyOf identifier) =
            cfg.pending settings (settings.keyOf identifier) := by
          apply Calls.collect_start hcalls
          cases op with
          | request _ _ => simp [pendingStamp, limiterCalls]
          | pass _ => rfl
        have hlist : cfg'.admitted identifier = cfg.admitted identifier := by
          apply Calls.collect_start hcalls
          cases op with
          | request _ _ => simp [admittedStamp, limiterCalls]
          | pass _ => rfl
        unfold Limited
        rw [hpending, hlist, hshared]
        exact h.limited identifier
  | inr hadvance =>
      rcases hadvance with ⟨i, op, c, k, g, rfl, hi, hshared, hcalls⟩
      have hcall := List.mem_of_getElem? hi
      have hshared : cfg'.shared = (cfg.shared.exec settings redis c).1 := hshared
      constructor
      · exact hbuckets
      · intro call hmem now hnow
        rw [hshared]
        have hclock := clock_exec redis cfg.shared c
        cases Calls.mem_advance hcalls hmem with
        | inl hold => exact Nat.le_trans (h.now call hold now hnow) hclock
        | inr hnew =>
            rw [hnew] at hnow
            cases now_next hnow with
            | inl hbefore => exact Nat.le_trans (h.now _ hcall now hbefore) hclock
            | inr hread =>
                rw [hread]
                exact hclock
      · intro identifier
        exact limited_advance hsha h hi hshared hcalls (hspared _ hi c rfl)

end

/-!
# Runs
-/

theorem cached_ne {last : LimiterConfig} (hsha : Function.Injective settings.sha256)
    (h : BucketsKept settings redis last) {process : Nat} {identifier other : Text}
    {bucket : RedisTimeBucket} (hne : identifier ≠ other)
    (hcached : last.cached settings process identifier = some bucket) :
    last.cached settings process other ≠ some bucket := by
  intro hshared
  have hkey : forall name, last.cached settings process name = some bucket ->
      bucket.bucketKey = settings.keyOf name := by
    intro name hname
    rcases Option.map_eq_some_iff.mp hname with ⟨state, hstate, hbucket⟩
    rw [← hbucket]
    exact h.cached process _ (Dict.mem_of_get hstate)
  apply hne
  apply keyOf_injective hsha
  rw [← hkey identifier hcached, ← hkey other hshared]

/--
In every run in which no eviction removes an item that counts, no window has more admitted
items of an identifier than a rate allows; in every run, identifiers do not share buckets.
-/
theorem rate_limits_hold (settings : LimiterSettings) (redis : RedisBucket settings.rates)
    (hsha : Function.Injective settings.sha256) (clock : Nat) (stored : Text -> List Nat)
    (last : LimiterConfig) :
    (Reaches (limiterCalls settings redis).step (ScheduledSpared settings)
        (LimiterConfig.initial clock stored) last ->
      forall identifier rate, rate ∈ settings.rates ->
        Within rate.limit rate.interval (last.admitted identifier)) ∧
    (Reaches (limiterCalls settings redis).step Scheduled
        (LimiterConfig.initial clock stored) last ->
      forall process identifier other bucket, identifier ≠ other ->
        last.cached settings process identifier = some bucket ->
          last.cached settings process other ≠ some bucket) := by
  constructor
  · intro hrun identifier
    have h : LimitsKept settings redis last := by
      apply hrun.invariant (LimitsKept settings redis) (.initial clock stored)
      intro s a s' hs hcond hstep
      exact hs.step hsha hcond.2 hstep
    exact (h.limited identifier).2
  · intro hrun process identifier other bucket hne hcached
    have h : BucketsKept settings redis last := by
      apply hrun.invariant (BucketsKept settings redis) (.initial clock stored)
      intro s a s' hs _ hstep
      exact hs.step hstep
    exact cached_ne hsha h hne hcached

/-!
# Samples

One request in a second, with a bucket that removes every old item and a digest that is the
text itself.
-/

def exactBucket (rates : List Rate) : RedisBucket rates where
  admits items timestamp := rates.all fun rate =>
    items.countP (fun item => timestamp < item + rate.interval) + 1 ≤ rate.limit
  leak items now := items.filter fun item => now < item + largestInterval rates
  admits_iff items timestamp := by
    simp only [List.all_eq_true, decide_eq_true_eq]
  leak_old items now := by
    refine ⟨items.filter fun item => !decide (now < item + largestInterval rates), ?_, ?_⟩
    · exact (List.filter_append_perm _ items).symm
    · intro item hitem
      have hold := (List.mem_filter.mp hitem).2
      simpa using hold

def bytesText (data : Bytes) : Text :=
  data.map fun b => Char.ofNat b.toNat

theorem bytesText_injective : Function.Injective bytesText := by
  apply List.map_injective_iff.mpr
  have hvalid : forall c : UInt8, (Char.ofNat c.toNat).toNat = c.toNat := by
    intro c
    have hc : c.toNat.isValidChar := .inl (Nat.lt_trans c.toNat_lt (by decide))
    unfold Char.ofNat
    rw [dif_pos hc]
    rfl
  intro a b h
  have h : Char.ofNat a.toNat = Char.ofNat b.toNat := h
  apply UInt8.toNat_inj.mp
  rw [← hvalid a, h, hvalid]

def sampleSettings : LimiterSettings where
  sha256 := bytesText
  bucketKey := "limiter".toList
  rates := [⟨1, 1000⟩]
  maxCacheSize _ := 4096

def steps (i n : Nat) : List (CallAction LimiterCall) :=
  List.replicate n (.advance i)

/-- A bucket is evicted and its key flushed, and a later request is let through. -/
theorem rate_limits_hold_sample : exists last : LimiterConfig,
    Reaches (limiterCalls sampleSettings (exactBucket [⟨1, 1000⟩])).step
      (ScheduledSpared sampleSettings) (LimiterConfig.initial 0 fun _ => []) last ∧
    last.admitted "x".toList = [0, 12000] ∧ Within 1 1000 (last.admitted "x".toList) := by
  obtain ⟨last, hrun, hadmitted⟩ := exists_reaches
    (limiterCalls sampleSettings (exactBucket [⟨1, 1000⟩])).step (ScheduledSpared sampleSettings)
    (LimiterConfig.initial 0 fun _ => [])
    ([.start (.request 0 "x".toList)] ++ steps 0 9 ++ [.start (.pass 12000), .advance 1,
      .start (.request 0 "y".toList)] ++ steps 2 13 ++ [.start (.request 1 "x".toList)] ++
      steps 3 9)
    (fun last : LimiterConfig => last.admitted "x".toList = [0, 12000]) (by decide +kernel)
  exact ⟨last, hrun, hadmitted, (rate_limits_hold sampleSettings (exactBucket [⟨1, 1000⟩])
    bytesText_injective 0 (fun _ => []) last).1 hrun "x".toList ⟨1, 1000⟩ (.head _)⟩

/--
A process evicts a bucket and counts no items, another process admits an item, and the
first one flushes the key; the next item is admitted at once.
-/
theorem rate_limits_hold_fails : ¬ forall (settings : LimiterSettings)
    (redis : RedisBucket settings.rates), Function.Injective settings.sha256 ->
      forall (clock : Nat) (stored : Text -> List Nat) (last : LimiterConfig),
        Reaches (limiterCalls settings redis).step Scheduled
          (LimiterConfig.initial clock stored) last ->
        forall identifier rate, rate ∈ settings.rates ->
          Within rate.limit rate.interval (last.admitted identifier) := by
  intro h
  obtain ⟨last, hrun, hcount⟩ := exists_reaches
    (limiterCalls sampleSettings (exactBucket [⟨1, 1000⟩])).step Scheduled
    (LimiterConfig.initial 0 fun _ => [])
    ([.start (.request 0 "x".toList)] ++ steps 0 9 ++ [.start (.pass 12000), .advance 1,
      .start (.request 0 "y".toList)] ++ steps 2 9 ++ [.start (.request 1 "x".toList)] ++
      steps 3 9 ++ [.advance 2, .start (.request 1 "x".toList)] ++ steps 4 6)
    (fun last : LimiterConfig =>
      1 < (last.admitted "x".toList).countP (inWindow 1000 12000)) (by decide +kernel)
  have hwithin := h sampleSettings (exactBucket [⟨1, 1000⟩]) bytesText_injective 0 (fun _ => [])
    last hrun "x".toList ⟨1, 1000⟩ (.head _) 12000
  exact absurd hwithin (Nat.not_le.mpr hcount)

end RateLimits
end RagService
