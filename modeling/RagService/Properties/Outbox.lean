import RagService.Properties.ChunkSets

/-!
# The outbox

Every index request of a committed upload or retry is in the outbox exactly once, the
broker gets only what committed events ask for, and a finished event stays as it is.
-/

namespace RagService

open Interleaving Interleaving.Discipline OutboxService

/-!
# Requests and their events

A well-formed event that asks for an index run carries the request for it, and its message
depends on columns that no statement changes.
-/

/-- The event asks for an index run of this version of the document. -/
def OutboxEvent.AsksIndex (e : OutboxEvent) (d v : Nat) : Prop :=
  e.eventType = indexDocumentEvent ∧ e.aggregateId = d ∧
    Json.loads e.payload = some (indexPayload d v)

/-- The message is the one of the event, or asks for its document without a version. -/
def OutboxEvent.Asks (e : OutboxEvent) (m : Message) : Prop :=
  Tasks.eventMessage e = .ok m ∨
    exists d v, Tasks.eventMessage e = .ok (.indexDocument d v) ∧ m = .indexDocument d .null

def Commit.Writes (c : Commit) (d v : Nat) : Prop :=
  exists event row, (c.note = .documentCreated d event ∨ c.note = .documentRetried d event) ∧
    c.after.documents d = some row ∧ row.indexVersion = v

def Commit.Asks (c : Commit) (m : Message) : Prop :=
  exists i e, c.before.events i = none ∧ c.after.events i = some e ∧ e.Asks m

/-- Nothing will be tried for the event any more. -/
def OutboxEvent.Final (e : OutboxEvent) : Prop :=
  e.status = .dispatched ∨ e.status = .dead

/-- What the outbox guarantees in a state, and of the finished events of an earlier one. -/
structure OutboxLaw (earlier s : State) : Prop where
  /-- a written version of a document has exactly one index event -/
  requested : forall c, c ∈ s.history -> forall d v, c.Writes d v -> exists i e,
    s.db.events i = some e ∧ e.AsksIndex d v ∧
      forall j e', s.db.events j = some e' -> e'.AsksIndex d v -> j = i
  dispatched : forall i e, s.db.events i = some e -> e.status = .dispatched ->
    exists m, m ∈ s.broker ∧ Tasks.eventMessage e = .ok m
  /-- a message is one that a committed transaction asked for -/
  sent : forall m, m ∈ s.broker -> exists c, c ∈ s.history ∧ c.Asks m
  final : forall i e, earlier.db.events i = some e -> e.Final ->
    s.db.events i = some e ∧ forall t limit e', e' ∈ s.pendingEvents t limit -> e'.id ≠ i

theorem indexPayload_injective {d d' v v' : Nat} (h : indexPayload d v = indexPayload d' v') :
    d = d' ∧ v = v' := by
  simpa [indexPayload] using h

theorem OutboxEvent.asksIndex_of_identity {e : OutboxEvent} {d v : Nat}
    (h : e.identity = (indexRequest d v).identity) : e.AsksIndex d v := by
  simp only [OutboxEvent.identity, indexRequest, newEvent, Prod.mk.injEq] at h
  rcases h with ⟨htype, haggregate, hpayload, -⟩
  refine ⟨htype, haggregate, ?_⟩
  rw [hpayload, Json.loads_dumps true _ (plain_indexPayload d v)]

theorem OutboxEvent.WellFormed.identity_of_asksIndex {e : OutboxEvent} {d v : Nat}
    (hwf : e.WellFormed) (h : e.AsksIndex d v) :
    e.identity = (indexRequest d v).identity := by
  rcases h with ⟨htype, rfl, hloads⟩
  rcases hwf with ⟨v', hid⟩ | hid
  · have hpayload : e.payload = (indexPayload e.aggregateId v').dumps true :=
      congrArg (fun x => x.2.2.1) hid
    rw [hpayload, Json.loads_dumps true _ (plain_indexPayload _ _), Option.some.injEq] at hloads
    rw [hid, (indexPayload_injective hloads).2]
  · have hdelete : e.eventType = deleteDocumentEvent := congrArg Prod.fst hid
    rw [htype] at hdelete
    exact absurd hdelete indexDocumentEvent_ne_deleteDocumentEvent

theorem eventMessage_of_identity {e e' : OutboxEvent} (h : e.identity = e'.identity) :
    Tasks.eventMessage e = Tasks.eventMessage e' := by
  simp only [OutboxEvent.identity, Prod.mk.injEq] at h
  simp only [Tasks.eventMessage, h]

section

variable {env : Env} {allowed : Settings -> Prop} {s : State} {t : Nat} {σ : Session}
variable {note : Note}

theorem State.Requested.asks {m : Message} (h : s.Requested m) :
    exists i e, s.db.events i = some e ∧ e.Asks m := by
  unfold State.Requested at h
  split at h
  · rcases h with ⟨d, v, rfl, rfl, i, e, he, hid⟩
    exact ⟨i, e, he, .inl (eventMessage_index hid)⟩
  · rcases h with ⟨d, v, rfl, i, e, he, hid⟩
    exact ⟨i, e, he, .inr ⟨_, _, eventMessage_index hid, rfl⟩⟩
  · rcases h with ⟨d, rfl, i, e, he, hid⟩
    exact ⟨i, e, he, .inl (eventMessage_delete hid)⟩
  · exact h.elim

/-!
# Along runs

Events and messages come from commits.  A finished event is not claimed any more, and no commit
changes it.
-/

structure State.OutboxKept (s : State) : Prop where
  written : forall c, c ∈ s.history -> forall d v, c.Writes d v -> s.db.RequestsIndex d v
  added : forall i e, s.db.events i = some e -> exists c, c ∈ s.history ∧
    c.before.events i = none ∧ exists e', c.after.events i = some e' ∧
      e'.identity = e.identity
  sent : forall m, m ∈ s.broker -> exists c, c ∈ s.history ∧ c.Asks m

theorem State.OutboxKept.asks (h : s.OutboxKept) {m : Message} (hm : s.Requested m) :
    exists c, c ∈ s.history ∧ c.Asks m := by
  rcases hm.asks with ⟨i, e, he, hasks⟩
  rcases h.added i e he with ⟨c, hc, hnone, e', he', hid⟩
  refine ⟨c, hc, i, e', hnone, he', ?_⟩
  unfold OutboxEvent.Asks
  rw [eventMessage_of_identity hid]
  exact hasks

theorem State.OutboxKept.commit (h : s.OutboxKept) (hinv : s.Inv allowed)
    (hσ : s.sessions t = some σ) (hclean : σ.Clean) (heffect : σ.Effect env allowed s t note) :
    (s.commit t note σ).OutboxKept := by
  have hok := hinv.session t σ hσ
  have hgrows : Grows s (s.commit t note σ) := Grows.commit hok.events
  have hlast : (⟨t, note, s.db, s.db.install σ.writes⟩ : Commit) ∈ (s.commit t note σ).history :=
    List.mem_append_right _ (List.mem_singleton_self _)
  constructor
  · intro c hc d v hwrites
    rcases List.mem_append.mp hc with hold | hnew
    · exact hgrows.requestsIndex (h.written c hold d v hwrites)
    · rw [List.mem_singleton] at hnew
      subst hnew
      rcases hwrites with ⟨event, row, -, hrow, rfl⟩
      exact heffect.requestsIndex hinv hok hclean hrow
  · intro i e he
    rcases hok.events.install_cases he with hold | ⟨old, hold, -, hdelivery⟩ | henqueues
    · rcases h.added i e hold with ⟨c, hc, hrest⟩
      exact ⟨c, List.mem_append_left _ hc, hrest⟩
    · rcases h.added i old hold with ⟨c, hc, hnone, e', he', hid⟩
      exact ⟨c, List.mem_append_left _ hc, hnone, e', he', hid.trans hdelivery.identity.symm⟩
    · exact ⟨_, hlast, henqueues.1, e, he, rfl⟩
  · intro m hm
    rcases h.sent m hm with ⟨c, hc, hasks⟩
    exact ⟨c, List.mem_append_left _ hc, hasks⟩

theorem EventsOk.final (hok : EventsOk s t σ allowed) {i : Nat} {e : OutboxEvent}
    (he : s.db.events i = some e) (hfinal : e.Final) :
    (s.db.install σ.writes).events i = some e := by
  cases hx : σ.writes.events i with
  | none => rw [Db.install_events_of_none hx, he]
  | some e' =>
      rcases hok.kind i e' hx with ⟨old, hold, hstatus, -⟩ | henqueues
      · rw [he, Option.some.injEq] at hold
        subst hold
        rcases hfinal with hfinal | hfinal <;> rw [hfinal] at hstatus <;>
          rcases hstatus with h | h <;> cases h
      · have hnone := henqueues.1
        rw [he] at hnone
        cases hnone

end

section

variable {env : Env} {mid last : RagConfig}

theorem reaches_outboxKept
    (hrun : System.Reaches (system env) (system env).anyRun initial last) :
    last.shared.OutboxKept := by
  have hstarts : forall op, (system env).anyRun.starts op -> op.Allowed fun _ => True :=
    fun _ _ _ _ => trivial
  refine steps_preserve hstarts State.OutboxKept ?_ ?_ ?_ initial_sound ?_ hrun
  · intro s s' hdb hhistory hbroker h
    refine ⟨?_, ?_, ?_⟩
    · rw [hdb, hhistory]
      exact h.written
    · rw [hdb, hhistory]
      exact h.added
    · rw [hbroker, hhistory]
      exact h.sent
  · intro s s' m _ hm hdb hhistory hbroker h
    refine ⟨?_, ?_, ?_⟩
    · rw [hdb, hhistory]
      exact h.written
    · rw [hdb, hhistory]
      exact h.added
    · intro m' hm'
      rw [hbroker] at hm'
      rw [hhistory]
      rcases List.mem_append.mp hm' with hold | hnew
      · exact h.sent m' hold
      · rw [List.mem_singleton] at hnew
        rw [hnew]
        exact h.asks hm
  · intro cfg t note now vectors σ hinv hσ hclean heffect _ h
    exact h.commit hinv hσ hclean heffect
  · constructor
    · intro c hc
      cases hc
    · intro i e he
      cases he
    · intro m hm
      cases hm

/-- A finished event keeps its row from then on. -/
theorem reaches_final {i : Nat} {e : OutboxEvent}
    (hfirst : System.Reaches (system env) (system env).anyRun initial mid)
    (he : mid.shared.db.events i = some e) (hfinal : e.Final)
    (hlast : System.Reaches (system env) (system env).anyRun mid last) :
    last.shared.db.events i = some e := by
  have hstarts : forall op, (system env).anyRun.starts op -> op.Allowed fun _ => True :=
    fun _ _ _ _ => trivial
  refine commits_preserve hstarts (fun s => s.db.events i = some e) ?_ ?_
    (reaches_sound hstarts hfirst) he hlast
  · intro s s' hdb _ h
    rw [hdb, h]
  · intro cfg t note now vectors σ hinv hσ hclean heffect _ h
    exact (hinv.session t σ hσ).events.final h hfinal

theorem mem_pendingEvents {s : State} {t limit : Nat} {e : OutboxEvent}
    (h : e ∈ s.pendingEvents t limit) :
    (exists i, s.db.events i = some e) ∧ (e.status = .pending ∨ e.status = .failed) := by
  have hmem := List.mem_of_mem_take h
  rw [List.mem_filter, mem_scan] at hmem
  rcases hmem with ⟨⟨i, -, hi⟩, hcond⟩
  exact ⟨⟨i, hi⟩, (of_decide_eq_true hcond).1⟩

theorem outbox_loses_no_request
    (hfirst : System.Reaches (system env) (system env).anyRun initial mid)
    (hlast : System.Reaches (system env) (system env).anyRun mid last) :
    OutboxLaw mid.shared last.shared := by
  have hrun := hfirst.trans hlast
  have hkept := reaches_outboxKept hrun
  have hstarts : forall op, (system env).anyRun.starts op -> op.Allowed fun _ => True :=
    fun _ _ _ _ => trivial
  have hinv : last.shared.Inv fun _ => True := (reaches_sound hstarts hrun).inv
  refine ⟨?_, hinv.dispatched, hkept.sent, ?_⟩
  · intro c hc d v hwrites
    rcases hkept.written c hc d v hwrites with ⟨i, e, he, hid⟩
    refine ⟨i, e, he, OutboxEvent.asksIndex_of_identity hid, fun j e' he' hasks => ?_⟩
    have hid' := (hinv.coherent.event j e' he').2.2.identity_of_asksIndex hasks
    exact hinv.coherent.eventKeys j i e' e he' he
      (OutboxEvent.key_of_identity (hid'.trans hid.symm))
  · intro i e he hfinal
    have hsame := reaches_final hfirst he hfinal hlast
    refine ⟨hsame, fun t limit e' he' hid => ?_⟩
    rcases mem_pendingEvents he' with ⟨⟨j, hj⟩, hstatus⟩
    rw [(hinv.coherent.event j e' hj).1] at hid
    rw [hid, hsame, Option.some.injEq] at hj
    subst hj
    rcases hfinal with hfinal | hfinal <;> rw [hfinal] at hstatus <;>
      rcases hstatus with h | h <;> cases h

end

/-- The event of an upload is dispatched, and a second round leaves it alone. -/
theorem outbox_loses_no_request_dispatched : exists mid last : RagConfig,
    (mid.shared.db.events 4).map OutboxEvent.status = some .dispatched ∧
      last.shared.broker.length = 1 ∧ OutboxLaw mid.shared last.shared := by
  rcases System.exists_reaches_twice (system Sample.env).anyRun initial
    (Sample.upload ++ Sample.start 2 (.dispatchOutbox Sample.settings 10) 8)
    (Sample.start 3 (.dispatchOutbox Sample.settings 10) 5)
    (fun mid : RagConfig => (mid.shared.db.events 4).map OutboxEvent.status = some .dispatched)
    (fun last : RagConfig => last.shared.broker.length = 1) (by decide +kernel) with
    ⟨mid, last, hfirst, hmid, hlast, hbroker⟩
  exact ⟨mid, last, hmid, hbroker, outbox_loses_no_request hfirst hlast⟩

end RagService
