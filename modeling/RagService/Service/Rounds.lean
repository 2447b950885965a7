import RagService.Foundation.Batches
import RagService.Foundation.Calls
import RagService.Service.Tasks

/-!
# A dispatcher alone

A service program that runs while no other transaction is open.  The broker takes or
refuses each message, and every other command goes through.
-/

namespace RagService

open Interleaving RagService.Action OutboxService

/-!
# Running alone

The shared state and what the broker answers to the messages to come; every other command goes
through.
-/

structure Alone where
  state : State
  /-- the exception with which a message is refused, if it is -/
  answers : List (Option Exception)

namespace Alone

def choose (now : Nat) (x : Alone) : Command -> Choice × List (Option Exception)
  | .send _ =>
      match x.answers with
      | some e :: rest => (.fail e, rest)
      | _ => (.proceed now [], x.answers.tail)
  | _ => (.proceed now [], x.answers)

def exec (t now : Nat) (c : interface.Command) (x : Alone) :
    Alone × Except interface.Error (interface.Result c) :=
  match RagService.exec t c (x.choose now c).1 x.state with
  | some (s, r) => (⟨s, (x.choose now c).2⟩, r)
  -- a command that would wait for ever
  | none => (x, .error (.other "blocked".toList))

end Alone

/-- One run of `dispatch_outbox`: the events that it attempted, as the attempts left them. -/
def dispatchRound (cfg : Settings) (limit t now : Nat) (answers : List (Option Exception))
    (s : State) : Alone × Except Exception (List OutboxEvent) :=
  (transaction (fun events => Note.eventsDispatched (events.map OutboxEvent.id))
    (Tasks.dispatchOutbox cfg limit)).run (Alone.exec t now) ⟨s, answers⟩

structure State.Idle (s : State) : Prop where
  sessions : forall t, s.sessions t = none
  locks : forall r, s.locks r = none

/-- The event as an attempt to dispatch it leaves it. -/
def OutboxEvent.Attempted (maxAttempts : Nat) (e e' : OutboxEvent) : Prop :=
  (exists now, e' = markDispatched e now) ∨ exists exc, e' = markFailed e exc maxAttempts

/-!
# Inside the transaction

The transaction of a dispatcher has written events and sent messages only, and its session maps
nothing that a flush would write.
-/

structure State.Holds (t : Nat) (s : State) (w : Nat -> Option OutboxEvent) (x : State) :
    Prop where
  db : x.db = s.db
  nextId : x.nextId = s.nextId
  sessions : x.sessions = Function.update s.sessions t (some { writes := { events := w } })
  locks : forall r, x.locks r = none ∨ x.locks r = some t

section

variable (now : Nat) (answers : List (Option Exception)) (cfg : Settings)
variable {t : Nat} {s x : State} {w : Nat -> Option OutboxEvent}

theorem State.Holds.session (h : State.Holds t s w x) :
    x.sessions t = some { writes := { events := w } } := by
  rw [h.sessions, Function.update_self]

theorem State.Holds.lockable (h : State.Holds t s w x) (r : Resource) :
    x.lockable t r = true := by
  unfold State.lockable
  cases h.locks r with
  | inl hfree => simp [hfree]
  | inr hown => simp [hown]

theorem State.Holds.acquire (h : State.Holds t s w x) (rs : List Resource) :
    State.Holds t s w (x.acquire t rs) := by
  constructor
  · exact h.db
  · exact h.nextId
  · exact h.sessions
  · intro r
    unfold State.acquire
    dsimp only
    split
    · exact .inr rfl
    · exact h.locks r

theorem State.Idle.lockable (h : s.Idle) (r : Resource) : s.lockable t r = true := by
  simp [State.lockable, h.locks r]

theorem Alone.run_issue {c : Command} {x' : State} {a : c.Result}
    (hsend : forall m, c ≠ .send m)
    (h : RagService.exec t c (.proceed now []) x = some (x', .ok a)) :
    (Program.issue (I := interface) c).run (Alone.exec t now) ⟨x, answers⟩ =
      (⟨x', answers⟩, .ok a) := by
  have hchoose : (⟨x, answers⟩ : Alone).choose now c = (.proceed now [], answers) := by
    cases c with
    | send m => exact absurd rfl (hsend m)
    | _ => rfl
  apply Program.run_issue_ok
  unfold Alone.exec
  rw [hchoose, h]
  rfl

theorem begin_run (h : s.Idle) : exists x,
    begin.run (Alone.exec t now) ⟨s, answers⟩ = (⟨x, answers⟩, .ok ()) ∧
      State.Holds t s (fun _ => none) x := by
  exists s.setSession t {}
  constructor
  · apply Alone.run_issue _ _ (by simp)
    simp [RagService.exec, Command.outside, h.sessions t]
  · constructor
    · rfl
    · rfl
    · rfl
    · exact fun r => .inl (h.locks r)

theorem lockEvents_run (hidle : s.Idle) (h : State.Holds t s w x) (limit : Nat) : exists x',
    (lockEvents limit).run (Alone.exec t now) ⟨x, answers⟩ =
        (⟨x', answers⟩, .ok (s.pendingEvents t limit)) ∧
      State.Holds t s w x' := by
  have hrows : x.pendingEvents t limit = s.pendingEvents t limit := by
    simp only [State.pendingEvents, h.db, h.nextId, h.lockable, hidle.lockable]
  exists x.acquire t ((s.pendingEvents t limit).map fun e => .event e.id)
  constructor
  · apply Alone.run_issue _ _ (by simp)
    simp [RagService.exec, Command.outside, h.session, State.perform, hrows]
  · exact h.acquire _

theorem updateEvent_run (h : State.Holds t s w x) (row : OutboxEvent) : exists x',
    (updateEvent row).run (Alone.exec t now) ⟨x, answers⟩ = (⟨x', answers⟩, .ok ()) ∧
      State.Holds t s (Function.update w row.id (some row)) x' := by
  have hacquire := h.acquire [.event row.id]
  exists (x.acquire t [.event row.id]).setSession t
    { writes := { events := Function.update w row.id (some row) } }
  constructor
  · apply Alone.run_issue _ _ (by simp)
    simp [RagService.exec, Command.outside, h.session, State.perform, h.lockable]
  · constructor
    · exact hacquire.db
    · exact hacquire.nextId
    · simp only [State.setSession, hacquire.sessions, Function.update_idem]
    · exact hacquire.locks

theorem flush_run (h : State.Holds t s w x) :
    flush.run (Alone.exec t now) ⟨x, answers⟩ = (⟨x, answers⟩, .ok ()) := by
  have hdirty : dirty.run (Alone.exec t now) ⟨x, answers⟩ = (⟨x, answers⟩, .ok []) := by
    apply Alone.run_issue _ _ (by simp)
    simp [RagService.exec, Command.outside, h.session, State.perform, dirtyIds]
  have hbases : dirtyKnowledgeBases.run (Alone.exec t now) ⟨x, answers⟩ =
      (⟨x, answers⟩, .ok []) := by
    apply Alone.run_issue _ _ (by simp)
    simp [RagService.exec, Command.outside, h.session, State.perform, dirtyIds]
  unfold flush
  simp only [Program.bind_def]
  rw [Program.run_bind_ok hdirty]
  show (dirtyKnowledgeBases.bind _).run _ _ = _
  rw [Program.run_bind_ok hbases]
  rfl

theorem commit_run (hidle : s.Idle) (h : State.Holds t s w x) (note : Note) : exists x',
    (commit note).run (Alone.exec t now) ⟨x, answers⟩ = (⟨x', answers⟩, .ok ()) ∧
      x'.Idle ∧ x'.nextId = s.nextId ∧ x'.db = s.db.install { events := w } := by
  exists x.commit t note { writes := { events := w } }
  constructor
  · apply Alone.run_issue _ _ (by simp)
    simp [RagService.exec, Command.outside, h.session, State.perform]
  · constructor
    · constructor
      · intro u
        show Function.update x.sessions t none u = none
        rw [h.sessions, Function.update_idem]
        by_cases hu : u = t
        · rw [hu, Function.update_self]
        · rw [Function.update_of_ne hu, hidle.sessions u]
      · intro r
        show (if x.locks r = some t then none else x.locks r) = none
        split
        · rfl
        · rename_i hother
          exact (h.locks r).resolve_right hother
    · constructor
      · exact h.nextId
      · show x.db.install _ = _
        rw [h.db]

/-!
# One attempt

An attempt always ends, with the event dispatched or failed.
-/

theorem send_run (h : State.Holds t s w x) (m : Message) : exists x' answers' r,
    (send m).run (Alone.exec t now) ⟨x, answers⟩ = (⟨x', answers'⟩, r) ∧
      State.Holds t s w x' := by
  cases answers with
  | nil => exact ⟨_, _, _, rfl, h.db, h.nextId, h.sessions, h.locks⟩
  | cons answer rest =>
      cases answer with
      | none => exact ⟨_, _, _, rfl, h.db, h.nextId, h.sessions, h.locks⟩
      | some e => exact ⟨_, _, _, rfl, h⟩

theorem dispatchEvent_run (h : State.Holds t s w x) (e : OutboxEvent) : exists x' answers' e',
    (Tasks.dispatchEvent cfg e).run (Alone.exec t now) ⟨x, answers⟩ =
        (⟨x', answers'⟩, .ok e') ∧
      e.Attempted cfg.outboxMaxDispatchAttempts e' ∧ State.Holds t s w x' := by
  unfold Tasks.dispatchEvent
  cases hmessage : Tasks.eventMessage e with
  | error exc => exact ⟨x, answers, _, rfl, .inr ⟨exc, rfl⟩, h⟩
  | ok m =>
      rcases send_run now answers h m with ⟨x', answers', r, hrun, hx'⟩
      cases r with
      | error exc =>
          exists x', answers', markFailed e exc cfg.outboxMaxDispatchAttempts
          constructor
          · exact Program.run_handle_error (Program.run_bind_error hrun _) _
          · exact ⟨.inr ⟨exc, rfl⟩, hx'⟩
      | ok sent =>
          exists x', answers', markDispatched e now
          constructor
          · exact Program.run_handle_ok ((Program.run_bind_ok hrun _).trans rfl) _
          · exact ⟨.inl ⟨now, rfl⟩, hx'⟩

/-!
# A round

A round ends, and commits what its attempts made of the events it claimed.
-/

def placeEvents (w : Nat -> Option OutboxEvent) (rows : List OutboxEvent) :
    Nat -> Option OutboxEvent :=
  rows.foldl (fun w row => Function.update w row.id (some row)) w

theorem updateEvents_run (h : State.Holds t s w x) (rows : List OutboxEvent) : exists x',
    (Program.forEach rows updateEvent).run (Alone.exec t now) ⟨x, answers⟩ =
        (⟨x', answers⟩, .ok ()) ∧
      State.Holds t s (placeEvents w rows) x' := by
  -- what is left to place completes what has been placed
  have hloop : exists y : Alone,
      (Program.forEach rows updateEvent).run (Alone.exec t now) ⟨x, answers⟩ = (y, .ok ()) ∧
        y.answers = answers ∧ exists w', placeEvents w' [] = placeEvents w rows ∧
          State.Holds t s w' y.state := by
    apply Program.run_forEach fun rest (y : Alone) => y.answers = answers ∧ exists w',
      placeEvents w' rest = placeEvents w rows ∧ State.Holds t s w' y.state
    · intro row rest y hy
      rcases hy with ⟨hanswers, w', hw', hholds⟩
      rcases updateEvent_run now y.answers hholds row with ⟨x', hrun, hx'⟩
      exact ⟨⟨x', y.answers⟩, hrun, hanswers, _, hw', hx'⟩
    · exact ⟨rfl, w, rfl, h⟩
  rcases hloop with ⟨y, hrun, hy, w', hw', hholds⟩
  exists y.state
  constructor
  · rw [hrun, ← hy]
  · rw [← hw']
    exact hholds

theorem dispatchOutbox_run (hidle : s.Idle) (h : State.Holds t s w x) (limit : Nat) :
    exists x' answers' events,
      (Tasks.dispatchOutbox cfg limit).run (Alone.exec t now) ⟨x, answers⟩ =
          (⟨x', answers'⟩, .ok events) ∧
        List.Forall₂ (OutboxEvent.Attempted cfg.outboxMaxDispatchAttempts)
          (s.pendingEvents t limit) events ∧
        State.Holds t s (placeEvents w events) x' := by
  rcases lockEvents_run now answers hidle h limit with ⟨x₁, hclaim, hx₁⟩
  have hloop : exists (y : Alone) (events : List OutboxEvent),
      (Program.mapEach (s.pendingEvents t limit) (Tasks.dispatchEvent cfg)).run
          (Alone.exec t now) ⟨x₁, answers⟩ = (y, .ok events) ∧
        List.Forall₂ (OutboxEvent.Attempted cfg.outboxMaxDispatchAttempts)
          (s.pendingEvents t limit) events ∧
        State.Holds t s w y.state := by
    refine Program.run_mapEach (J := fun y : Alone => State.Holds t s w y.state) ?_ _ hx₁
    intro e y hy
    rcases dispatchEvent_run now y.answers cfg hy e with ⟨x', answers', e', hrun, he', hx'⟩
    exact ⟨⟨x', answers'⟩, e', hrun, he', hx'⟩
  rcases hloop with ⟨y, events, hmap, hevents, hy⟩
  rcases updateEvents_run now y.answers hy events with ⟨x₂, hupdate, hx₂⟩
  exists x₂, y.answers, events
  constructor
  · unfold Tasks.dispatchOutbox claimPendingEvents
    simp only [Program.bind_def]
    rw [Program.run_bind_ok hclaim, Program.run_bind_ok hmap, Program.run_bind_ok hupdate]
    rfl
  · exact ⟨hevents, hx₂⟩

theorem dispatchRound_run (hidle : s.Idle) (limit : Nat) : exists after events,
    dispatchRound cfg limit t now answers s = (after, .ok events) ∧
      List.Forall₂ (OutboxEvent.Attempted cfg.outboxMaxDispatchAttempts)
        (s.pendingEvents t limit) events ∧
      after.state.Idle ∧ after.state.nextId = s.nextId ∧
      after.state.db = s.db.install { events := placeEvents (fun _ => none) events } := by
  rcases begin_run now answers (t := t) hidle with ⟨x₀, hbegin, hx₀⟩
  rcases dispatchOutbox_run now answers cfg hidle hx₀ limit with
    ⟨x₁, answers', events, hbody, hevents, hx₁⟩
  have hflush := flush_run now answers' hx₁
  rcases commit_run now answers' hidle hx₁ (Note.eventsDispatched (events.map OutboxEvent.id)) with
    ⟨x₂, hcommit, hidle₂, hnext, hdb⟩
  exists ⟨x₂, answers'⟩, events
  constructor
  · unfold dispatchRound transaction
    simp only [Program.bind_def]
    rw [Program.run_bind_ok hbegin]
    have hrun : Program.run (Alone.exec t now)
        ((Tasks.dispatchOutbox cfg limit).bind fun a => flush.bind fun _ =>
          (Action.commit (Note.eventsDispatched (a.map OutboxEvent.id))).bind fun _ => pure a)
        ⟨x₀, answers⟩ = (⟨x₂, answers'⟩, .ok events) := by
      rw [Program.run_bind_ok hbody, Program.run_bind_ok hflush, Program.run_bind_ok hcommit]
      rfl
    rw [Program.run_bind_ok (Program.run_outcome_ok hrun)]
    rfl
  · exact ⟨hevents, hidle₂, hnext, hdb⟩

end

/-!
# What a round does to the queue

Event numbers are tickets and attempts are tries: a lone dispatcher claims the first waiting
events, attempts them, and leaves the others as they are.
-/

def OutboxEvent.Waiting (e : OutboxEvent) : Prop :=
  e.status = .pending ∨ e.status = .failed

instance (e : OutboxEvent) : Decidable e.Waiting :=
  inferInstanceAs (Decidable (_ ∨ _))

def State.queue (s : State) : Batches.Queue where
  waiting := fun i => (s.db.events i).any fun e => e.Waiting
  tries := fun i => ((s.db.events i).map OutboxEvent.dispatchAttempts).getD 0

def State.EventsKeyed (s : State) : Prop :=
  forall i e, s.db.events i = some e -> e.id = i ∧ i < s.nextId

section

variable {s : State} {w : Nat -> Option OutboxEvent} {rows : List OutboxEvent}

theorem State.queue_waiting {i : Nat} {e : OutboxEvent} (he : s.db.events i = some e) :
    s.queue.waiting i = decide e.Waiting := by
  simp [State.queue, he]

theorem State.queue_tries {i : Nat} {e : OutboxEvent} (he : s.db.events i = some e) :
    s.queue.tries i = e.dispatchAttempts := by
  simp [State.queue, he]

theorem State.event_of_waiting {i : Nat} (h : s.queue.waiting i = true) :
    exists e, s.db.events i = some e ∧ e.Waiting := by
  rcases (Option.any_eq_true ..).mp h with ⟨e, he, hwaiting⟩
  exact ⟨e, he, of_decide_eq_true hwaiting⟩

theorem placeEvents_cons (w : Nat -> Option OutboxEvent) (row : OutboxEvent)
    (rows : List OutboxEvent) :
    placeEvents w (row :: rows) = placeEvents (Function.update w row.id (some row)) rows :=
  rfl

theorem placeEvents_of_not_mem {i : Nat} (h : i ∉ rows.map OutboxEvent.id) :
    placeEvents w rows i = w i := by
  induction rows generalizing w with
  | nil => rfl
  | cons row rest ih =>
      rw [List.map_cons, List.mem_cons, not_or] at h
      rw [placeEvents_cons, ih h.2, Function.update_of_ne h.1]

theorem placeEvents_of_mem (hnodup : (rows.map OutboxEvent.id).Nodup) {row : OutboxEvent}
    (h : row ∈ rows) : placeEvents w rows row.id = some row := by
  induction rows generalizing w with
  | nil => cases h
  | cons first rest ih =>
      rw [List.map_cons, List.nodup_cons] at hnodup
      rw [placeEvents_cons]
      cases List.mem_cons.mp h with
      | inl hfirst =>
          rw [hfirst, placeEvents_of_not_mem hnodup.1, Function.update_self]
      | inr hrest => exact ih hnodup.2 hrest

theorem OutboxEvent.Attempted.id {maxAttempts : Nat} {e e' : OutboxEvent}
    (h : e.Attempted maxAttempts e') : e'.id = e.id := by
  rcases h with ⟨_, rfl⟩ | ⟨_, rfl⟩ <;> rfl

theorem ids_of_attempted {maxAttempts : Nat} {events : List OutboxEvent}
    (h : List.Forall₂ (OutboxEvent.Attempted maxAttempts) rows events) :
    events.map OutboxEvent.id = rows.map OutboxEvent.id := by
  induction h with
  | nil => rfl
  | cons hrow _ ih => rw [List.map_cons, List.map_cons, ih, hrow.id]

theorem State.EventsKeyed.filter_ids (hkeyed : s.EventsKeyed) (numbers : List Nat) :
    ((numbers.filterMap s.db.events).filter fun e => e.Waiting).map OutboxEvent.id =
      numbers.filter s.queue.waiting := by
  induction numbers with
  | nil => rfl
  | cons i rest ih =>
      cases he : s.db.events i with
      | none =>
          have hwaiting : s.queue.waiting i = false := by simp [State.queue, he]
          rw [List.filterMap_cons_none he, List.filter_cons, hwaiting]
          exact ih
      | some e =>
          rw [List.filterMap_cons_some he, List.filter_cons, List.filter_cons,
            State.queue_waiting he]
          split
          · rw [List.map_cons, ih, (hkeyed i e he).1]
          · exact ih

theorem State.pendingEvents_ids (hidle : s.Idle) (hkeyed : s.EventsKeyed) (t limit : Nat) :
    (s.pendingEvents t limit).map OutboxEvent.id =
      ((List.range s.nextId).filter s.queue.waiting).take limit := by
  rw [← hkeyed.filter_ids, ← List.map_take]
  simp only [State.pendingEvents, hidle.lockable, and_true]
  rfl

/-- An event as a round finds it and as it leaves it. -/
structure State.Served (maxAttempts : Nat) (s s' : State) (events : List OutboxEvent) (i : Nat) :
    Prop where
  claimed : i ∈ events.map OutboxEvent.id -> exists e e', s.db.events i = some e ∧ e.Waiting ∧
    s'.db.events i = some e' ∧ e.Attempted maxAttempts e' ∧
      events.filter (fun attempt => attempt.id = i) = [e']
  skipped : i ∉ events.map OutboxEvent.id -> s'.db.events i = s.db.events i

theorem State.pendingEvents_waiting {t limit : Nat} {e : OutboxEvent}
    (hkeyed : s.EventsKeyed) (h : e ∈ s.pendingEvents t limit) :
    s.db.events e.id = some e ∧ e.Waiting := by
  have hmem := List.mem_of_mem_take h
  rw [List.mem_filter, scan, List.mem_filterMap] at hmem
  rcases hmem with ⟨⟨i, -, he⟩, hwaiting⟩
  rw [(hkeyed i e he).1]
  exact ⟨he, (of_decide_eq_true hwaiting).1⟩

theorem filter_id_of_mem (hnodup : (rows.map OutboxEvent.id).Nodup) {row : OutboxEvent}
    (h : row ∈ rows) : rows.filter (fun e => e.id = row.id) = [row] := by
  induction rows with
  | nil => cases h
  | cons first rest ih =>
      rw [List.map_cons, List.nodup_cons] at hnodup
      rw [List.filter_cons]
      cases List.mem_cons.mp h with
      | inl hfirst =>
          subst hfirst
          have hrest : rest.filter (fun e => e.id = row.id) = [] := by
            rw [List.filter_eq_nil_iff]
            intro e he hid
            apply hnodup.1
            rw [← of_decide_eq_true hid]
            exact List.mem_map_of_mem he
          rw [if_pos (by simp), hrest]
      | inr hrest =>
          have hne : first.id ≠ row.id := by
            intro hid
            apply hnodup.1
            rw [hid]
            exact List.mem_map_of_mem hrest
          rw [if_neg (by simpa using hne)]
          exact ih hnodup.2 hrest

/-- A round attempts the first waiting events and leaves the others as they are. -/
theorem dispatchRound_serves (cfg : Settings) (hidle : s.Idle) (hkeyed : s.EventsKeyed) (limit t now : Nat)
    (answers : List (Option Exception)) : exists after events,
      dispatchRound cfg limit t now answers s = (after, .ok events) ∧
      after.state.Idle ∧ after.state.nextId = s.nextId ∧ after.state.EventsKeyed ∧
      events.map OutboxEvent.id = ((List.range s.nextId).filter s.queue.waiting).take limit ∧
      forall i, State.Served cfg.outboxMaxDispatchAttempts s after.state events i := by
  rcases dispatchRound_run now answers cfg (t := t) hidle limit with
    ⟨after, events, hround, hevents, hidle', hnext, hdb⟩
  have hids := (ids_of_attempted hevents).trans (State.pendingEvents_ids hidle hkeyed t limit)
  have hnodup : (events.map OutboxEvent.id).Nodup := by
    rw [hids]
    exact (List.nodup_range.filter _).sublist (List.take_sublist _ _)
  have hserved : forall i,
      State.Served cfg.outboxMaxDispatchAttempts s after.state events i := by
    intro i
    constructor
    · intro hi
      rcases List.mem_map.mp hi with ⟨e', he', rfl⟩
      rcases List.getElem_of_mem he' with ⟨n, hn, rfl⟩
      have hlength := hevents.length_eq
      have hattempted := hevents.get (by omega) hn
      have hclaimed := State.pendingEvents_waiting hkeyed
        (List.get_mem (s.pendingEvents t limit) ⟨n, by omega⟩)
      rw [← hattempted.id] at hclaimed
      refine ⟨_, _, hclaimed.1, hclaimed.2, ?_, hattempted, filter_id_of_mem hnodup he'⟩
      rw [hdb]
      show (placeEvents _ events _).or _ = _
      rw [placeEvents_of_mem hnodup he']
      rfl
    · intro hi
      rw [hdb]
      show (placeEvents _ events i).or _ = _
      rw [placeEvents_of_not_mem hi]
      rfl
  refine ⟨after, events, hround, hidle', hnext, ?_, hids, hserved⟩
  intro i e' he'
  rw [hnext]
  by_cases hi : i ∈ events.map OutboxEvent.id
  · rcases (hserved i).claimed hi with ⟨e, e₁, he, -, he₁, hattempted, -⟩
    rw [he', Option.some.injEq] at he₁
    rw [he₁, hattempted.id]
    exact hkeyed i e he
  · rw [(hserved i).skipped hi] at he'
    exact hkeyed i e' he'

end
end RagService
