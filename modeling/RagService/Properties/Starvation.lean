import RagService.Properties.Outbox
import RagService.Service.Rounds

/-!
# No event starves

Dispatch rounds follow one another while requests keep adding events.  Failing events stay
at the head of the queue until they are given up, and the healthy ones behind them still get
their turn in a bounded number of rounds.
-/

namespace RagService

open Interleaving OutboxService

/-!
# Rounds and arrivals

Between two rounds new events have larger numbers, and no attempt is made.
-/

structure State.Arrives (s s' : State) : Prop where
  idle : s'.Idle
  nextId : s.nextId ≤ s'.nextId
  old : forall i, i < s.nextId -> s'.db.events i = s.db.events i
  new : forall i e, s'.db.events i = some e -> s.nextId ≤ i ->
    e.id = i ∧ i < s'.nextId ∧ e.status = .pending ∧ e.dispatchAttempts = 0

/-- Rounds one after the other, with the log of the events as each attempt left them. -/
inductive DispatchRounds (cfg : Settings) (limit : Nat) (first : State) :
    Nat -> List OutboxEvent -> State -> Prop where
  | nil : DispatchRounds cfg limit first 0 [] first
  | round {k t now : Nat} {log events : List OutboxEvent} {mid before : State} {after : Alone}
      {answers : List (Option Exception)} :
      DispatchRounds cfg limit first k log mid ->
      mid.Arrives before ->
      dispatchRound cfg limit t now answers before = (after, .ok events) ->
      DispatchRounds cfg limit first (k + 1) (log ++ events) after.state

/-- No dispatcher is at work, and what waits may be tried again. -/
structure State.Queued (maxAttempts : Nat) (s : State) : Prop where
  idle : s.Idle
  keyed : s.EventsKeyed
  few : forall i e, s.db.events i = some e -> e.Waiting -> e.dispatchAttempts < maxAttempts

def State.undelivered (s : State) : List OutboxEvent :=
  (scan s.db.events s.nextId).filter fun e => e.Waiting

/-- An event and all attempts of it, of which some were made before. -/
structure OutboxEvent.Tried (maxAttempts before : Nat) (attempts : List OutboxEvent)
    (e : OutboxEvent) : Prop where
  count : e.dispatchAttempts = before + attempts.length
  bound : e.dispatchAttempts ≤ maxAttempts
  refused : e.status ≠ .dispatched -> forall attempt, attempt ∈ attempts ->
    attempt.status ≠ .dispatched
  dead : e.status = .dead -> e.dispatchAttempts = maxAttempts

def attemptsOf (log : List OutboxEvent) (i : Nat) : List OutboxEvent :=
  log.filter fun attempt => attempt.id = i

def State.Undecided (first : State) (i : Nat) : Prop :=
  forall e, first.db.events i = some e -> e.Waiting

/-!
# One round

One more attempt of an event that may be tried again.
-/

section

variable {cfg : Settings} {maxAttempts limit : Nat} {s s' mid before first : State}
variable {events log : List OutboxEvent} {i : Nat} {e e' : OutboxEvent}

theorem OutboxEvent.final_of_not_waiting (h : ¬ e.Waiting) : e.Final := by
  unfold OutboxEvent.Waiting at h
  unfold OutboxEvent.Final
  cases hstatus : e.status <;> simp_all

theorem OutboxEvent.Waiting.not_dispatched (h : e.Waiting) : e.status ≠ .dispatched := by
  intro hstatus
  cases h with
  | inl hpending => simp [hpending] at hstatus
  | inr hfailed => simp [hfailed] at hstatus

theorem OutboxEvent.Attempted.few (h : e.Attempted maxAttempts e')
    (hfew : e.dispatchAttempts < maxAttempts) :
    e'.dispatchAttempts = e.dispatchAttempts + 1 ∧
      (e'.Waiting -> e'.dispatchAttempts < maxAttempts) ∧
      (e'.status = .dead -> e'.dispatchAttempts = maxAttempts) := by
  rcases h with ⟨now, rfl⟩ | ⟨exc, rfl⟩
  · refine ⟨rfl, fun hwaiting => ?_, fun hdead => ?_⟩
    · exact absurd rfl hwaiting.not_dispatched
    · cases hdead
  · by_cases hlast : maxAttempts ≤ e.dispatchAttempts + 1
    · refine ⟨rfl, fun hwaiting => ?_, fun _ => ?_⟩
      · simp [OutboxEvent.Waiting, markFailed, hlast] at hwaiting
      · exact Nat.le_antisymm hfew hlast
    · refine ⟨rfl, fun _ => Nat.lt_of_not_le hlast, fun hdead => ?_⟩
      simp [markFailed, hlast] at hdead

theorem State.Queued.arrives (hmost : 1 ≤ maxAttempts) (h : mid.Queued maxAttempts)
    (harrives : mid.Arrives before) : before.Queued maxAttempts := by
  constructor
  · exact harrives.idle
  · intro i e he
    by_cases hi : i < mid.nextId
    · rw [harrives.old i hi] at he
      rcases h.keyed i e he with ⟨hid, hlt⟩
      exact ⟨hid, hlt.trans_le harrives.nextId⟩
    · rcases harrives.new i e he (Nat.le_of_not_lt hi) with ⟨hid, hlt, -⟩
      exact ⟨hid, hlt⟩
  · intro i e he hwaiting
    by_cases hi : i < mid.nextId
    · rw [harrives.old i hi] at he
      exact h.few i e he hwaiting
    · rcases harrives.new i e he (Nat.le_of_not_lt hi) with ⟨-, -, -, hzero⟩
      omega

theorem State.Queued.served (h : s.Queued maxAttempts)
    (hserved : forall i, State.Served maxAttempts s s' events i) (hidle : s'.Idle)
    (hkeyed : s'.EventsKeyed) : s'.Queued maxAttempts := by
  constructor
  · exact hidle
  · exact hkeyed
  · intro i e' he' hwaiting
    by_cases hi : i ∈ events.map OutboxEvent.id
    · rcases (hserved i).claimed hi with ⟨e, e₁, he, hbefore, he₁, hattempted, -⟩
      rw [he', Option.some.injEq] at he₁
      subst he₁
      exact (hattempted.few (h.few i e he hbefore)).2.1 hwaiting
    · rw [(hserved i).skipped hi] at he'
      exact h.few i e' he' hwaiting

theorem attemptsOf_append (log events : List OutboxEvent) (i : Nat) :
    attemptsOf (log ++ events) i = attemptsOf log i ++ attemptsOf events i :=
  List.filter_append ..

theorem attemptsOf_of_not_mem (h : i ∉ events.map OutboxEvent.id) : attemptsOf events i = [] := by
  apply List.filter_eq_nil_iff.mpr
  intro e he hid
  apply h
  rw [← of_decide_eq_true hid]
  exact List.mem_map_of_mem he

theorem OutboxEvent.Tried.attempted {n : Nat} {attempts : List OutboxEvent}
    (h : e.Tried maxAttempts n attempts) (hwaiting : e.Waiting)
    (hfew : e.dispatchAttempts < maxAttempts) (hattempted : e.Attempted maxAttempts e') :
    e'.Tried maxAttempts n (attempts ++ [e']) := by
  rcases hattempted.few hfew with ⟨hcount, -, hdead⟩
  constructor
  · rw [hcount, h.count, List.length_append, List.length_singleton, Nat.add_assoc]
  · omega
  · intro hstatus attempt hattempt
    rw [List.mem_append, List.mem_singleton] at hattempt
    cases hattempt with
    | inl hold => exact h.refused hwaiting.not_dispatched attempt hold
    | inr hnew =>
        rw [hnew]
        exact hstatus
  · exact hdead

/-!
# Round after round

With arrivals before it, a round serves the queue that the last one left; as many events wait
as the queue has tickets.
-/

structure State.RoundsKeep (maxAttempts : Nat) (first : State) (log : List OutboxEvent)
    (s : State) : Prop where
  queued : s.Queued maxAttempts
  nextId : first.nextId ≤ s.nextId
  logged : forall attempt, attempt ∈ log -> attempt.id < s.nextId
  stays : forall i e, first.db.events i = some e -> exists e', s.db.events i = some e'
  settled : forall i e, first.db.events i = some e -> ¬ e.Waiting -> s.db.events i = some e
  tried : forall i e, s.db.events i = some e -> first.Undecided i ->
    e.Tried maxAttempts (first.queue.tries i) (attemptsOf log i)

theorem State.RoundsKeep.refl (h : first.Queued maxAttempts) :
    State.RoundsKeep maxAttempts first [] first := by
  constructor
  · exact h
  · exact Nat.le_refl _
  · intro attempt hattempt
    cases hattempt
  · intro i e he
    exact ⟨e, he⟩
  · intro i e he _
    exact he
  · intro i e he hundecided
    have hwaiting := hundecided e he
    constructor
    · simp [State.queue, he, attemptsOf]
    · exact Nat.le_of_lt (h.few i e he hwaiting)
    · intro _ attempt hattempt
      cases hattempt
    · intro hdead
      cases hwaiting with
      | inl hpending => simp [hpending] at hdead
      | inr hfailed => simp [hfailed] at hdead

theorem State.RoundsKeep.arrives (hmost : 1 ≤ maxAttempts)
    (h : State.RoundsKeep maxAttempts first log mid) (hfirst : first.EventsKeyed)
    (harrives : mid.Arrives before) : State.RoundsKeep maxAttempts first log before := by
  have hold : forall i e, first.db.events i = some e ->
      before.db.events i = mid.db.events i := by
    intro i e he
    exact harrives.old i ((hfirst i e he).2.trans_le h.nextId)
  constructor
  · exact h.queued.arrives hmost harrives
  · exact h.nextId.trans harrives.nextId
  · intro attempt hattempt
    exact (h.logged attempt hattempt).trans_le harrives.nextId
  · intro i e he
    rw [hold i e he]
    exact h.stays i e he
  · intro i e he hsettled
    rw [hold i e he]
    exact h.settled i e he hsettled
  · intro i e he hundecided
    by_cases hi : i < mid.nextId
    · rw [harrives.old i hi] at he
      exact h.tried i e he hundecided
    · rcases harrives.new i e he (Nat.le_of_not_lt hi) with ⟨-, -, hpending, hzero⟩
      -- a new event, which no attempt so far was about
      have hnone : first.db.events i = none := by
        cases hsome : first.db.events i with
        | none => rfl
        | some e₀ => exact absurd ((hfirst i e₀ hsome).2.trans_le h.nextId) hi
      have hattempts : attemptsOf log i = [] := by
        apply attemptsOf_of_not_mem
        intro hmem
        rcases List.mem_map.mp hmem with ⟨attempt, hattempt, rfl⟩
        exact hi (h.logged attempt hattempt)
      constructor
      · simp [hzero, State.queue, hnone, hattempts]
      · omega
      · intro _ attempt hattempt
        rw [hattempts] at hattempt
        cases hattempt
      · intro hdead
        simp [hpending] at hdead

theorem State.RoundsKeep.served (h : State.RoundsKeep maxAttempts first log s)
    (hserved : forall i, State.Served maxAttempts s s' events i) (hidle : s'.Idle)
    (hkeyed : s'.EventsKeyed) (hnext : s'.nextId = s.nextId) :
    State.RoundsKeep maxAttempts first (log ++ events) s' := by
  constructor
  · exact h.queued.served hserved hidle hkeyed
  · rw [hnext]
    exact h.nextId
  · intro attempt hattempt
    cases List.mem_append.mp hattempt with
    | inl hold =>
        rw [hnext]
        exact h.logged attempt hold
    | inr hnew =>
        rcases (hserved attempt.id).claimed (List.mem_map_of_mem hnew) with ⟨e, e', -, -, he', -⟩
        exact (hkeyed attempt.id e' he').2
  · intro i e₀ he₀
    rcases h.stays i e₀ he₀ with ⟨e, he⟩
    by_cases hi : i ∈ events.map OutboxEvent.id
    · rcases (hserved i).claimed hi with ⟨-, e', -, -, he', -⟩
      exact ⟨e', he'⟩
    · exact ⟨e, ((hserved i).skipped hi).trans he⟩
  · intro i e he hsettled
    have hbefore := h.settled i e he hsettled
    by_cases hi : i ∈ events.map OutboxEvent.id
    · rcases (hserved i).claimed hi with ⟨e₁, -, he₁, hwaiting, -⟩
      rw [hbefore, Option.some.injEq] at he₁
      rw [he₁] at hsettled
      exact absurd hwaiting hsettled
    · exact ((hserved i).skipped hi).trans hbefore
  · intro i e' he' hundecided
    rw [attemptsOf_append]
    by_cases hi : i ∈ events.map OutboxEvent.id
    · rcases (hserved i).claimed hi with ⟨e, e₁, he, hwaiting, he₁, hattempted, hone⟩
      rw [he', Option.some.injEq] at he₁
      subst he₁
      rw [show attemptsOf events i = [e'] from hone]
      exact (h.tried i e he hundecided).attempted hwaiting (h.queued.few i e he hwaiting)
        hattempted
    · rw [attemptsOf_of_not_mem hi, List.append_nil]
      rw [(hserved i).skipped hi] at he'
      exact h.tried i e' he' hundecided

/-- With arrivals before it, a round serves the queue that the last one left. -/
theorem queue_served (hbefore : before.Queued maxAttempts)
    (harrives : mid.Arrives before) (hafter : s'.Queued maxAttempts)
    (hserved : forall i, State.Served maxAttempts before s' events i)
    (hids : events.map OutboxEvent.id =
      ((List.range before.nextId).filter before.queue.waiting).take limit)
    {bound : Nat} (hbound : bound ≤ mid.nextId) :
    Batches.Served bound limit maxAttempts mid.queue s'.queue := by
  have hsame : forall i, i < mid.nextId -> before.queue.waiting i = mid.queue.waiting i ∧
      before.queue.tries i = mid.queue.tries i := by
    intro i hi
    simp [State.queue, harrives.old i hi]
  intro i hi hwaiting
  rcases hsame i (hi.trans_le hbound) with ⟨hwaits, htries⟩
  have hrank : before.queue.rank i = mid.queue.rank i := by
    apply Nat.le_antisymm
    · apply Nat.count_mono_left
      intro j hj hwaits'
      rw [← (hsame j (by omega)).1]
      exact hwaits'
    · apply Nat.count_mono_left
      intro j hj hwaits'
      rw [(hsame j (by omega)).1]
      exact hwaits'
  rcases State.event_of_waiting hwaiting with ⟨e', he', hwaiting'⟩
  have hfew := hafter.few i e' he' hwaiting'
  rw [← hwaits, ← htries, ← hrank, State.queue_tries he']
  by_cases hi' : i ∈ events.map OutboxEvent.id
  · rcases (hserved i).claimed hi' with ⟨e, e₁, he, hbefore', he₁, hattempted, -⟩
    rw [he', Option.some.injEq] at he₁
    subst he₁
    have hmore := (hattempted.few (hbefore.few i e he hbefore')).1
    rw [State.queue_waiting he, State.queue_tries he]
    exact ⟨decide_eq_true hbefore', hfew, by omega, fun _ => by omega⟩
  · have he := he'
    rw [(hserved i).skipped hi'] at he
    rw [State.queue_waiting he, State.queue_tries he]
    refine ⟨decide_eq_true hwaiting', hfew, Nat.le_refl _, fun hfirst => ?_⟩
    -- the first waiting events are claimed
    rw [hids, Batches.mem_take_filter_range] at hi'
    have hlt := (hbefore.keyed i e' he).2
    exact absurd ⟨hlt, (State.queue_waiting he).trans (decide_eq_true hwaiting'), hfirst⟩ hi'

theorem DispatchRounds.keep {k : Nat} {last : State}
    (hmost : 1 ≤ cfg.outboxMaxDispatchAttempts)
    (hfirst : first.Queued cfg.outboxMaxDispatchAttempts)
    (h : DispatchRounds cfg limit first k log last) :
    State.RoundsKeep cfg.outboxMaxDispatchAttempts first log last ∧
      Batches.Rounds first.nextId limit cfg.outboxMaxDispatchAttempts k first.queue
        last.queue := by
  induction h with
  | nil => exact ⟨.refl hfirst, .nil _⟩
  | @round k t now log events mid before after answers _ harrives hround ih =>
      rcases ih with ⟨hkeep, hrounds⟩
      have hbefore := hkeep.arrives hmost hfirst.keyed harrives
      obtain ⟨after', events', hround', hidle, hnext, hkeyed, hids, hserved⟩ :=
        dispatchRound_serves cfg hbefore.queued.idle hbefore.queued.keyed limit t now answers
      rw [hround'] at hround
      cases hround
      have hafter := hbefore.served hserved hidle hkeyed hnext
      exact ⟨hafter, hrounds.round (queue_served hbefore.queued harrives
        hafter.queued hserved hids hkeep.nextId)⟩

theorem State.queue_rank (hkeyed : s.EventsKeyed) :
    s.queue.rank s.nextId = s.undelivered.length := by
  rw [State.undelivered, ← List.length_map OutboxEvent.id, scan, hkeyed.filter_ids]
  simp [Batches.Queue.rank, Nat.count, List.countP_eq_length_filter]

/--
No event starves: after `M * ⌈n / limit⌉` rounds all `n` events that waited at first are
dispatched or given up, whatever else arrived in between.  No event is tried more than `M`
times, and one that is given up was tried `M` times and always refused.  A round never gets
stuck.
-/
theorem outbox_not_starved (cfg : Settings) (limit : Nat) (hlimit : 1 ≤ limit)
    (hmost : 1 ≤ cfg.outboxMaxDispatchAttempts) {first last : State}
    (hfirst : first.Queued cfg.outboxMaxDispatchAttempts) {k : Nat} {log : List OutboxEvent}
    (hrounds : DispatchRounds cfg limit first k log last) :
    (cfg.outboxMaxDispatchAttempts * ((first.undelivered.length + limit - 1) / limit) ≤ k ->
      forall i e, first.db.events i = some e -> e.Waiting ->
        exists e', last.db.events i = some e' ∧ e'.Final) ∧
    (forall i e, last.db.events i = some e -> first.Undecided i ->
      e.Tried cfg.outboxMaxDispatchAttempts (first.queue.tries i) (attemptsOf log i)) ∧
    (forall i e, first.db.events i = some e -> ¬ e.Waiting -> last.db.events i = some e) ∧
    forall before t now answers, last.Arrives before ->
      exists after events, dispatchRound cfg limit t now answers before = (after, .ok events) := by
  rcases hrounds.keep hmost hfirst with ⟨hkeep, hqueue⟩
  constructor
  · intro hk i e he hwaiting
    rcases hkeep.stays i e he with ⟨e', he'⟩
    have hserved := hqueue.all_served hmost hlimit (State.queue_rank hfirst.keyed).le hk
      (hfirst.keyed i e he).2
    rw [State.queue_waiting he', decide_eq_false_iff_not] at hserved
    exact ⟨e', he', OutboxEvent.final_of_not_waiting hserved⟩
  constructor
  · exact hkeep.tried
  constructor
  · exact hkeep.settled
  · intro before t now answers harrives
    obtain ⟨after, events, hround, -⟩ := dispatchRound_serves cfg harrives.idle
      (hkeep.queued.arrives hmost harrives).keyed limit t now answers
    exact ⟨after, events, hround⟩

end

/-!
# A run

An event with a broken payload before a healthy one, and one attempt for each event.
-/

def starvationSample : State :=
  { State.empty with
    nextId := 3
    db := { State.empty.db with
      events := fun i =>
        if i = 1 then
          some { newEvent deleteDocumentEvent 7 .null [] with id := 1, status := .failed }
        else if i = 2 then
          some { newEvent deleteDocumentEvent 8 (deletePayload 8) [] with id := 2 }
        else
          none } }

def oneAttempt : Settings :=
  { Sample.settings with outboxMaxDispatchAttempts := 1 }

theorem starvationSample_queued :
    starvationSample.Queued oneAttempt.outboxMaxDispatchAttempts := by
  have hevents : forall i e, starvationSample.db.events i = some e ->
      e.id = i ∧ i < 3 ∧ e.dispatchAttempts = 0 := by
    intro i e he
    simp only [starvationSample] at he
    split at he
    · rename_i hi
      cases he
      exact ⟨hi.symm, by omega, rfl⟩
    · split at he
      · rename_i hi
        cases he
        exact ⟨hi.symm, by omega, rfl⟩
      · cases he
  constructor
  · exact ⟨fun _ => rfl, fun _ => rfl⟩
  · intro i e he
    exact ⟨(hevents i e he).1, (hevents i e he).2.1⟩
  · intro i e he _
    rw [(hevents i e he).2.2]
    exact Nat.zero_lt_one

theorem State.Idle.arrives {s : State} (h : s.Idle) (hkeyed : s.EventsKeyed) : s.Arrives s := by
  constructor
  · exact h
  · exact Nat.le_refl _
  · intro i _
    rfl
  · intro i e he hi
    exact absurd (hkeyed i e he).2 (Nat.not_lt.mpr hi)

/-- Two rounds of one event each, with at most one attempt an event, serve both events. -/
theorem outbox_not_starved_sample : exists log last,
    DispatchRounds oneAttempt 1 starvationSample 2 log last ∧
      exists e', last.db.events 2 = some e' ∧ e'.Final := by
  have hqueued := starvationSample_queued
  rcases dispatchRound_serves oneAttempt hqueued.idle hqueued.keyed 1 0 5 [] with
    ⟨first, events, hfirst, hidle, -, hkeyed, -⟩
  rcases dispatchRound_serves oneAttempt hidle hkeyed 1 0 6 [] with ⟨second, events', hsecond, -⟩
  have hrounds := (DispatchRounds.nil.round (hqueued.idle.arrives hqueued.keyed) hfirst).round
    (hidle.arrives hkeyed) hsecond
  exact ⟨_, _, hrounds, (outbox_not_starved oneAttempt 1 (by decide) (by decide) hqueued
    hrounds).1 (by decide) 2 _ rfl (by decide)⟩

end RagService
