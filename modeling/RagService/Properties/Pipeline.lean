import RagService.Properties.Recovery
import RagService.Properties.Uploads

/-!
# From the upload to the ready document

An accepted upload stores the document with the request of its first index run.  The next
dispatch round that has room for it sends the message, and the message brings the document to
ready.
-/

namespace RagService

open Interleaving RagService.Action OutboxService IndexProfileService

/-!
# The upload

The transaction of an upload reads a knowledge base, finds or inserts the profile of its
settings, and inserts the document with an event that is not in the outbox yet.
-/

def Upload.document (u : Upload) (env : Env) (kb : KnowledgeBase) (id profileId now : Nat) :
    Document where
  id := id
  knowledgeBaseId := kb.id
  filename := u.filename
  fileType := u.suffix
  mimeType := u.mimeType
  storageKey := u.storageKey env kb
  fileSize := u.content.length
  contentHash := env.sha256 u.content
  parsedContent := none
  status := .pending
  errorMessage := none
  chunkCount := 0
  indexVersion := 1
  indexProfileId := some profileId
  createdTime := now
  updatedTime := none
  deleted := 0

def firstRequest (d : Document) (event : Nat) : OutboxEvent :=
  { newEvent indexDocumentEvent d.id (indexPayload d.id 1) (indexDedupeKey d.id 1) with
    id := event }

/-- A new document, its event and its object are there, and every other one is as before. -/
structure State.Takes (s : State) (d : Document) (event : Nat) (content : Bytes) (y : State) :
    Prop where
  idle : y.Idle
  documents : y.db.documents = Function.update s.db.documents d.id (some d)
  events : y.db.events = Function.update s.db.events event (some (firstRequest d event))
  chunks : y.db.chunks = s.db.chunks
  knowledgeBases : y.db.knowledgeBases = s.db.knowledgeBases
  storage : y.storage = Function.update s.storage d.storageKey (some content)
  broker : y.broker = s.broker
  idNew : s.nextId ≤ d.id
  idBound : d.id < y.nextId
  eventNew : s.nextId ≤ event
  eventBound : event < y.nextId

def Session.within (kb : KnowledgeBase) (w : Writes) : Session :=
  { Session.ofKnowledgeBase kb with writes := w }

section

variable {t : Nat} {s x y : State} {σ : Session} {E : Command -> Choice -> Prop}
variable {env : Env} {cfg : Settings} {kb : KnowledgeBase} {w : Writes} {u : Upload}

theorem Session.within_clean : (Session.within kb w).Clean where
  documents := by
    intro i e he
    cases he
  knowledgeBases := by
    intro i e he
    rw [(Session.ofKnowledgeBase_entry he).2]
    rfl

theorem Session.Clean.flushable (h : σ.Clean) {db : Db}
    (hdocuments : forall i, σ.documents i = none) : σ.Flushable db where
  rows := by
    intro i e he
    rw [hdocuments i] at he
    cases he
  bases := h.knowledgeBases

theorem Session.Clean.flush (h : σ.Clean) (db : Db) (n : Nat) (clock : Nat -> Nat) :
    σ.flush db (dirtyIds σ.documents n) clock = σ := by
  rw [dirtyIds_clean h.documents, Session.flush_nil]

theorem finishes_getKnowledgeBase (hE : Reliable E) (hx : State.Inside t s {} x)
    {pk userId : Nat} {isAdmin write : Bool}
    (hkb : s.db.getAuthorized pk userId isAdmin write = some kb) :
    Finishes machine t E (KnowledgeBaseService.get pk userId isAdmin write)
      (fun out y => out = .ok kb ∧ State.Inside t s (Session.within kb {}) y) x := by
  refine (finishes_loadKnowledgeBase hE hx hkb).bind ?_ ?_
  · intro e y h
    cases h.1
  · intro row y h
    cases h.1
    exact ⟨rfl, h.2⟩

theorem any_of_find?_none {ρ : Type} {rows : List ρ} {p : ρ -> Bool}
    (h : rows.find? p = none) : rows.any p = false := by
  rw [List.any_eq_false]
  exact List.find?_eq_none.mp h

theorem finishes_getOrCreateIndexProfile (hE : Reliable E)
    (hx : State.Inside t s (Session.within kb {}) x) :
    Finishes machine t E (getOrCreateIndexProfile env cfg)
      (fun out y => exists id profiles, out = .ok id ∧
        State.Inside t s (Session.within kb { profiles := profiles }) y) x := by
  refine (finishes_select hE hx (.indexProfile
    (profileHash env (buildIndexProfilePayload cfg)))).bind ?_ ?_
  · intro e y h
    cases h.2
  · intro profile y h
    rcases h with ⟨rfl, hok⟩
    cases profile with
    | some profile => exact ⟨profile.id, fun _ => none, rfl, hx⟩
    | none =>
        have hnone := (Except.ok.inj hok).symm
        refine (finishes_add _ hE hx Session.within_clean ?_).mono fun out z hz => ?_
        · exact any_of_find?_none hnone
        · rcases hz with ⟨now, hout, -, hz⟩
          exact ⟨_, _, hout, hz⟩

theorem finishes_enqueueDocumentIndex (hE : Reliable E)
    (hx : State.Inside t s (Session.within kb w) x) (hevents : w.events = fun _ => none)
    {i : Nat} (haggregate : forall j e, s.db.events j = some e -> e.aggregateId ≠ i) :
    Finishes machine t E (enqueueDocumentIndex i 1)
      (fun out y => out = .ok x.nextId ∧ y.nextId = x.nextId + 1 ∧
        State.Inside t s (Session.within kb
          { w with
            events := Function.update (fun _ => none) x.nextId
              (some { newEvent indexDocumentEvent i (indexPayload i 1) (indexDedupeKey i 1) with
                id := x.nextId }) }) y) x := by
  have hnone : Query.answer (s.db.install w) x.nextId
      (.outboxEvent indexDocumentEvent i (indexDedupeKey i 1)) = (none : Option OutboxEvent) := by
    apply List.find?_eq_none.mpr
    intro e he hkey
    rcases mem_scan.mp he with ⟨j, -, hj⟩
    have hstored : s.db.events j = some e := by
      simpa [Db.install, hevents] using hj
    exact haggregate j e hstored (of_decide_eq_true hkey).2.1
  refine (finishes_select hE hx _).bind ?_ ?_
  · intro e y h
    cases h.2
  · intro found y h
    rcases h with ⟨rfl, hok⟩
    have hfound : found = (none : Option OutboxEvent) := (Except.ok.inj hok).trans hnone
    subst hfound
    refine (finishes_add (.event (newEvent indexDocumentEvent i (indexPayload i 1)
      (indexDedupeKey i 1))) hE hx Session.within_clean ?_).mono fun out z hz => ?_
    · exact any_of_find?_none hnone
    · rcases hz with ⟨now, hout, hnext, hz⟩
      refine ⟨hout, hnext, ?_⟩
      rw [← hevents]
      exact hz

structure Writes.Uploads (w : Writes) (d : Document) (event : Nat) : Prop where
  documents : w.documents = Function.update (fun _ => none) d.id (some (some d))
  events : w.events = Function.update (fun _ => none) event (some (firstRequest d event))
  chunks : w.chunks = fun _ => none
  knowledgeBases : w.knowledgeBases = fun _ => none

theorem Db.install_uploads (db : Db) {d : Document} {event : Nat} (h : w.Uploads d event) :
    (db.install w).documents = Function.update db.documents d.id (some d) ∧
      (db.install w).events = Function.update db.events event (some (firstRequest d event)) ∧
      (db.install w).chunks = db.chunks ∧
      (db.install w).knowledgeBases = db.knowledgeBases := by
  refine ⟨?_, ?_, ?_, ?_⟩
  · funext i
    by_cases hi : i = d.id
    · simp [Db.install, h.documents, hi]
    · simp [Db.install, h.documents, hi]
  · funext i
    by_cases hi : i = event
    · simp [Db.install, h.events, hi]
    · simp [Db.install, h.events, hi]
  · funext i
    simp [Db.install, h.chunks]
  · funext i
    simp [Db.install, h.knowledgeBases]

theorem finishes_register (hE : Reliable E) (hx : State.Inside t s (Session.within kb {}) x)
    (hnew : forall i d, s.db.documents i = some d -> d.storageKey ≠ u.storageKey env kb)
    (haggregate : forall i e, s.db.events i = some e -> e.aggregateId < s.nextId) :
    Finishes machine t E (u.register env kb)
      (fun out y => exists id event profileId now w, out = .ok (id, event) ∧
        w.Uploads (u.document env kb id profileId now) event ∧ s.nextId ≤ id ∧
        id < event ∧ event < y.nextId ∧ State.Inside t s (Session.within kb w) y) x := by
  refine (finishes_getOrCreateIndexProfile hE hx).bind ?_ ?_
  · intro e y h
    rcases h with ⟨id, profiles, hok, -⟩
    cases hok
  intro profileId y h
  rcases h with ⟨_, profiles, hok, hy⟩
  cases hok
  have hfree : (s.db.install (Session.within kb { profiles := profiles }).writes).hasKey y.nextId
      (.storageKey (u.storageKey env kb)) = false := by
    rw [Db.hasKey, List.any_eq_false]
    intro d hd hkey
    rcases mem_scan.mp hd with ⟨i, -, hi⟩
    exact hnew i d hi (of_decide_eq_true hkey)
  refine (finishes_add (.document (u.document env kb 0 profileId 0)) hE hy
    Session.within_clean hfree).bind ?_ ?_
  · intro e z h
    rcases h with ⟨now, hok, -⟩
    cases hok
  intro id z h
  rcases h with ⟨now, hok, hnext, hz⟩
  cases hok
  refine (finishes_enqueueDocumentIndex hE hz rfl ?_).bind ?_ ?_
  · intro j e he heq
    have hbound := haggregate j e he
    rw [heq] at hbound
    exact absurd hy.nextId (Nat.not_le_of_lt hbound)
  · intro e v h
    cases h.1
  · intro event v h
    rcases h with ⟨hok, hnext', hv⟩
    cases hok
    refine ⟨y.nextId, z.nextId, profileId, now, _, rfl, ?_, hy.nextId, ?_, ?_, hv⟩
    · constructor
      · rfl
      · rfl
      · rfl
      · rfl
    · rw [hnext]
      exact Nat.lt_succ_self _
    · rw [hnext']
      exact Nat.lt_succ_self _

/-- An upload that nothing stands against is taken. -/
theorem finishes_upload (hE : Healthy E) (hs : s.Idle)
    (hkb : s.db.getAuthorized u.knowledgeBaseId u.userId u.isAdmin true = some kb)
    (haccepted : u.Accepted)
    (hnew : forall i d, s.db.documents i = some d -> d.storageKey ≠ u.storageKey env kb)
    (haggregate : forall i e, s.db.events i = some e -> e.aggregateId < s.nextId) :
    Finishes machine t E (u.op.body env)
      (fun out y => out = .ok () ∧ exists id event profileId now,
        s.Takes (u.document env kb id profileId now) event u.content y) s := by
  have hrun : Finishes machine t E
      (Action.transaction (fun created => Note.documentCreated created.1 created.2)
        (DocumentService.create env u.cfg u.knowledgeBaseId u.userId u.isAdmin u.filename
          u.content u.mimeType))
      (fun out y => exists id event profileId now, out = .ok (id, event) ∧
        s.Takes (u.document env kb id profileId now) event u.content y) s := by
    apply finishes_transaction hE.toReliable hs
    intro x hx
    rw [Upload.create_accepted haccepted]
    refine (finishes_getKnowledgeBase hE.toReliable hx hkb).bind ?_ ?_
    · intro e y h
      cases h.1
    intro _ y h
    rcases h with ⟨hok, hy⟩
    cases hok
    refine (finishes_putObject hE.toReliable _ _).bind ?_ ?_
    · intro e z h
      rcases h with ⟨hok, -⟩ | ⟨e', he', -⟩
      · cases hok
      · exact absurd he' hE.works
    intro _ z h
    rcases h with ⟨-, rfl⟩ | ⟨e', he', -⟩
    · -- the object is stored, whatever becomes of the transaction
      have hz := hy.store (Function.update y.storage (u.storageKey env kb) (some u.content))
      refine (finishes_register hE.toReliable hz hnew haggregate).mono fun out v hv => ?_
      rcases hv with ⟨id, event, profileId, now, w, rfl, hw, hid, hevent, hbound, hv⟩
      refine ⟨_, _, hv.bound (Nat.le_refl _), Session.within_clean.flushable fun _ => rfl, ?_⟩
      intro n clock last hn hlast
      rw [Session.within_clean.flush] at hlast
      refine ⟨id, event, profileId, now, rfl, ?_⟩
      have hinstall := Db.install_uploads s.db hw
      constructor
      · exact hlast.idle
      · rw [hlast.db]
        exact hinstall.1
      · rw [hlast.db]
        exact hinstall.2.1
      · rw [hlast.db]
        exact hinstall.2.2.1
      · rw [hlast.db]
        exact hinstall.2.2.2
      · rw [hlast.storage]
        show Function.update y.storage _ _ = _
        rw [hy.storage]
        rfl
      · exact hlast.broker
      · exact hid
      · exact Nat.lt_of_lt_of_le (Nat.lt_trans hevent hbound) hlast.nextId
      · exact Nat.le_trans hid (Nat.le_of_lt hevent)
      · exact Nat.lt_of_lt_of_le hbound hlast.nextId
    · exact absurd he' hE.works
  refine hrun.bind ?_ ?_
  · intro e y h
    rcases h with ⟨id, event, profileId, now, hok, -⟩
    cases hok
  · intro result y h
    rcases h with ⟨id, event, profileId, now, -, htakes⟩
    exact ⟨rfl, id, event, profileId, now, htakes⟩

/-!
# The dispatch round

A round attempts to deliver the events that wait, oldest first; here the broker takes every
message.
-/

def State.waitingEvents (s : State) : List OutboxEvent :=
  (scan s.db.events s.nextId).filter fun e => e.Waiting

structure OutboxEvent.Delivered (cfg : Settings) (sent : List Message) (e e' : OutboxEvent) :
    Prop where
  attempted : e.Attempted cfg.outboxMaxDispatchAttempts e'
  sent : forall m, Tasks.eventMessage e = .ok m -> m ∈ sent ∧ exists now, e' = markDispatched e now

theorem OutboxEvent.Delivered.mono {sent sent' : List Message} {e e' : OutboxEvent}
    (h : e.Delivered cfg sent e') (hsent : sent ⊆ sent') : e.Delivered cfg sent' e' where
  attempted := h.attempted
  sent := by
    intro m hm
    rcases h.sent m hm with ⟨hmem, hmarked⟩
    exact ⟨hsent hmem, hmarked⟩

theorem finishes_lockEvents (hE : Reliable E) (hx : State.Inside t s {} x)
    (hbound : forall i e, s.db.events i = some e -> i < s.nextId) (limit : Nat) :
    Finishes machine t E (Action.lockEvents limit)
      (fun out y => out = .ok (s.waitingEvents.take limit) ∧ State.Inside t s {} y) x := by
  apply finishes_perform hE hx rfl
  intro now
  have hrows : x.pendingEvents t limit = s.waitingEvents.take limit := by
    simp only [State.pendingEvents, hx.db, scan_of_bounded hbound hx.nextId, hx.lockable, and_true,
      State.waitingEvents]
    rfl
  refine ⟨_, .ok (s.waitingEvents.take limit), ?_, rfl,
    hx.acquire ((s.waitingEvents.take limit).map fun e => .event e.id)⟩
  simp only [State.perform, hrows]

theorem finishes_dispatchEvent (hE : Healthy E) (hx : State.Inside t s σ x) (e : OutboxEvent) :
    Finishes machine t E (Tasks.dispatchEvent cfg e)
      (fun out y => exists e' sent, out = .ok e' ∧ e.Delivered cfg sent e' ∧
        State.Inside t { s with broker := s.broker ++ sent } σ y) x := by
  unfold Tasks.dispatchEvent
  cases hmessage : Tasks.eventMessage e with
  | error exc =>
      refine ⟨markFailed e exc cfg.outboxMaxDispatchAttempts, [], rfl, ⟨.inr ⟨exc, rfl⟩, ?_⟩, ?_⟩
      · intro m hm
        rw [hmessage] at hm
        cases hm
      · rw [List.append_nil]
        exact hx
  | ok m =>
      have hbody : Finishes machine t E
          ((Action.send m).bind fun _ => Action.now.bind fun dispatchedTime =>
            Program.ret (markDispatched e dispatchedTime))
          (fun out y => exists now, out = .ok (markDispatched e now) ∧
            State.Inside t { s with broker := s.broker ++ [m] } σ y) x := by
        refine (finishes_send hE.toReliable m).bind ?_ ?_
        · intro exc y h
          rcases h with ⟨hok, -⟩ | ⟨e', he', -⟩
          · cases hok
          · exact absurd he' hE.works
        intro _ y h
        rcases h with ⟨-, rfl⟩ | ⟨e', he', -⟩
        · refine (finishes_now hE.toReliable).bind ?_ ?_
          · intro exc z h
            rcases h.2 with ⟨time, vectors, -, htime⟩
            cases htime
          · intro time z h
            rw [h.1]
            exact ⟨time, rfl, hx.send [m]⟩
        · exact absurd he' hE.works
      refine hbody.handle ?_ ?_
      · intro e' y h
        rcases h with ⟨now, hok, hy⟩
        cases hok
        refine ⟨markDispatched e now, [m], rfl, ⟨.inl ⟨now, rfl⟩, ?_⟩, hy⟩
        intro m' hm'
        rw [hmessage] at hm'
        cases hm'
        exact ⟨List.mem_singleton_self m, now, rfl⟩
      · intro exc y h
        rcases h with ⟨now, hok, -⟩
        cases hok

theorem finishes_dispatchEvents (hE : Healthy E) (hx : State.Inside t s σ x)
    (rows : List OutboxEvent) :
    Finishes machine t E (Program.mapEach rows (Tasks.dispatchEvent cfg))
      (fun out y => exists events sent, out = .ok events ∧
        List.Forall₂ (OutboxEvent.Delivered cfg sent) rows events ∧
        State.Inside t { s with broker := s.broker ++ sent } σ y) x := by
  induction rows generalizing s x with
  | nil =>
      refine ⟨[], [], rfl, .nil, ?_⟩
      rw [List.append_nil]
      exact hx
  | cons e rest ih =>
      refine (finishes_dispatchEvent hE hx e).bind ?_ ?_
      · intro exc y h
        rcases h with ⟨e', sent, hok, -⟩
        cases hok
      intro e' y h
      rcases h with ⟨_, sent, hok, he', hy⟩
      cases hok
      refine (ih hy).bind ?_ ?_
      · intro exc z h
        rcases h with ⟨events, more, hok, -⟩
        cases hok
      intro events z h
      rcases h with ⟨_, more, hok, hevents, hz⟩
      cases hok
      refine ⟨e' :: events, sent ++ more, rfl, .cons (he'.mono ?_) (hevents.imp ?_), ?_⟩
      · exact List.subset_append_left sent more
      · intro a b hab
        exact hab.mono (List.subset_append_right sent more)
      · rw [List.append_assoc] at hz
        exact hz

theorem finishes_updateEvents (hE : Reliable E) {w : Nat -> Option OutboxEvent}
    (hx : State.Inside t s { writes := { events := w } } x) (rows : List OutboxEvent) :
    Finishes machine t E (Program.forEach rows updateEvent)
      (fun out y => out = .ok () ∧
        State.Inside t s { writes := { events := placeEvents w rows } } y) x := by
  have hloop : Finishes machine t E (Program.forEach rows updateEvent)
      (fun out y => out = .ok () ∧ exists w', placeEvents w' [] = placeEvents w rows ∧
        State.Inside t s { writes := { events := w' } } y) x := by
    apply finishes_forEach fun rest y => exists w', placeEvents w' rest = placeEvents w rows ∧
      State.Inside t s { writes := { events := w' } } y
    · intro row rest y hy
      rcases hy with ⟨w', hw', hy⟩
      refine (finishes_updateEvent hE hy row).mono fun out z hz => ?_
      exact ⟨hz.1, Function.update w' row.id (some row), hw', hz.2⟩
    · exact ⟨w, rfl, hx⟩
  refine hloop.mono fun out y h => ?_
  rcases h with ⟨hout, w', hw', hy⟩
  refine ⟨hout, ?_⟩
  rw [← hw']
  exact hy

/-- What a dispatch round makes of the outbox. -/
structure State.Dispatches (cfg : Settings) (s : State) (limit : Nat) (sent : List Message)
    (y : State) : Prop where
  idle : y.Idle
  events : exists events,
    List.Forall₂ (OutboxEvent.Delivered cfg sent) (s.waitingEvents.take limit) events ∧
      y.db = s.db.install { events := placeEvents (fun _ => none) events }
  storage : y.storage = s.storage
  broker : y.broker = s.broker ++ sent
  nextId : s.nextId ≤ y.nextId

theorem finishes_dispatchOutbox (hE : Healthy E) (hs : s.Idle)
    (hbound : forall i e, s.db.events i = some e -> i < s.nextId) (limit : Nat) :
    Finishes machine t E ((Op.dispatchOutbox cfg limit).body env)
      (fun out y => out = .ok () ∧ exists sent, s.Dispatches cfg limit sent y) s := by
  have hrun : Finishes machine t E
      (Action.transaction (fun events => Note.eventsDispatched (events.map OutboxEvent.id))
        (Tasks.dispatchOutbox cfg limit))
      (fun out y => (exists events, out = .ok events) ∧
        exists sent, s.Dispatches cfg limit sent y) s := by
    apply finishes_transaction hE.toReliable hs
    intro x hx
    refine (finishes_lockEvents hE.toReliable hx hbound limit).bind ?_ ?_
    · intro e y h
      cases h.1
    intro rows y h
    rcases h with ⟨hok, hy⟩
    cases hok
    refine (finishes_dispatchEvents hE hy _).bind ?_ ?_
    · intro e z h
      rcases h with ⟨events, sent, hok, -⟩
      cases hok
    intro events z h
    rcases h with ⟨_, sent, hok, hevents, hz⟩
    cases hok
    refine (finishes_updateEvents hE.toReliable hz events).bind ?_ ?_
    · intro e v h
      cases h.1
    intro _ v h
    have hclean : ({ writes := { events := placeEvents (fun _ => none) events } } :
        Session).Clean := by
      constructor
      · intro i e he
        cases he
      · intro i e he
        cases he
    refine ⟨_, _, h.2, hclean.flushable fun _ => rfl, ?_⟩
    intro n clock last hn hlast
    rw [hclean.flush] at hlast
    exact ⟨⟨events, rfl⟩, sent, hlast.idle, ⟨events, hevents, hlast.db⟩, hlast.storage,
      hlast.broker, hlast.nextId⟩
  refine hrun.bind ?_ ?_
  · intro e y h
    rcases h with ⟨⟨events, hok⟩, -⟩
    cases hok
  · intro events y h
    exact ⟨rfl, h.2⟩

/-!
# The new event

The row with a key beyond all others comes last, so a round with room for one more reaches it.
-/

theorem scan_update_last {ρ : Type} {table : Nat -> Option ρ} {n k m : Nat} {row : ρ}
    (hbound : forall i row, table i = some row -> i < n) (hk : n ≤ k) (hm : k < m) :
    scan (Function.update table k (some row)) m = scan table n ++ [row] := by
  have hupdated : forall i row', Function.update table k (some row) i = some row' -> i < k + 1 := by
    intro i row' hi
    by_cases hik : i = k
    · rw [hik]
      exact Nat.lt_succ_self k
    · rw [Function.update_of_ne hik] at hi
      exact Nat.lt_succ_of_lt (Nat.lt_of_lt_of_le (hbound i row' hi) hk)
  have hsame : (List.range k).filterMap (Function.update table k (some row)) = scan table k := by
    apply List.filterMap_congr
    intro i hi
    exact Function.update_of_ne (Nat.ne_of_lt (List.mem_range.mp hi)) _ _
  rw [scan_of_bounded hupdated hm, ← scan_of_bounded hbound hk, scan, List.range_succ,
    List.filterMap_append, hsame, List.filterMap_cons_some (Function.update_self ..),
    List.filterMap_nil]

theorem State.Takes.waitingEvents {d : Document} {event : Nat} {content : Bytes}
    (h : s.Takes d event content y)
    (hbound : forall i e, s.db.events i = some e -> i < s.nextId) :
    y.waitingEvents = s.waitingEvents ++ [firstRequest d event] := by
  have hwaiting : (firstRequest d event).Waiting := .inl rfl
  rw [State.waitingEvents, h.events, scan_update_last hbound h.eventNew h.eventBound,
    List.filter_append, List.filter_cons, if_pos (decide_eq_true hwaiting)]
  rfl

theorem State.Takes.eventsKeyed {d : Document} {event : Nat} {content : Bytes}
    (h : s.Takes d event content y) (hkeyed : s.EventsKeyed) : y.EventsKeyed := by
  intro i e he
  rw [h.events] at he
  by_cases hi : i = event
  · subst i
    rw [Function.update_self, Option.some.injEq] at he
    rw [← he]
    exact ⟨rfl, h.eventBound⟩
  · rw [Function.update_of_ne hi] at he
    rcases hkeyed i e he with ⟨hid, hlt⟩
    exact ⟨hid, Nat.lt_of_lt_of_le hlt (Nat.le_trans h.eventNew (Nat.le_of_lt h.eventBound))⟩

theorem State.EventsKeyed.waitingEvents_nodup (h : s.EventsKeyed) (limit : Nat) :
    ((s.waitingEvents.take limit).map OutboxEvent.id).Nodup := by
  rw [List.map_take, State.waitingEvents, scan, h.filter_ids]
  exact (List.nodup_range.filter _).sublist (List.take_sublist _ _)

/-- An event that a dispatch round reaches is dispatched, and its message is sent. -/
theorem State.Dispatches.delivers {limit : Nat} {sent : List Message} {e : OutboxEvent}
    {m : Message} (h : s.Dispatches cfg limit sent y) (hkeyed : s.EventsKeyed)
    (he : e ∈ s.waitingEvents.take limit) (hm : Tasks.eventMessage e = .ok m) :
    m ∈ sent ∧ exists now, y.db.events e.id = some (markDispatched e now) := by
  rcases h.events with ⟨events, hevents, hdb⟩
  have hids : events.map OutboxEvent.id = (s.waitingEvents.take limit).map OutboxEvent.id :=
    ids_of_attempted (hevents.imp fun _ _ hab => hab.attempted)
  have hnodup : (events.map OutboxEvent.id).Nodup := by
    rw [hids]
    exact hkeyed.waitingEvents_nodup limit
  rcases List.getElem_of_mem he with ⟨n, hn, rfl⟩
  have hlength := hevents.length_eq
  rcases (hevents.get hn (by omega)).sent m hm with ⟨hsent, now, hmarked⟩
  refine ⟨hsent, now, ?_⟩
  have hmem : markDispatched (s.waitingEvents.take limit)[n] now ∈ events := by
    have hget := List.get_mem events ⟨n, by omega⟩
    rw [hmarked] at hget
    exact hget
  have hplaced : placeEvents (fun _ => none) events (s.waitingEvents.take limit)[n].id =
      some (markDispatched (s.waitingEvents.take limit)[n] now) := placeEvents_of_mem hnodup hmem
  rw [hdb]
  simp only [Db.install, hplaced]
  rfl

end

/-!
# The whole way
-/

/--
An accepted upload that nothing stands against is stored with the request of its first index
run, the next dispatch round sends its message if it has room for one event more than are
waiting, and the index task that the message starts brings the document to ready.
-/
theorem upload_becomes_ready {env : Env} {cfg : Settings} {E : Command -> Choice -> Prop}
    (hE : Healthy E) (hcfg : PositiveChunkSize cfg) (hbatch : 1 ≤ cfg.embeddingBatchSize)
    {last : RagConfig} (hrun : System.Reaches (system env) (system env).anyRun initial last)
    (hquiet : last.shared.Quiet) {u : Upload} (haccepted : u.Accepted) {kb : KnowledgeBase}
    (hkb : last.shared.db.getAuthorized u.knowledgeBaseId u.userId u.isAdmin true = some kb)
    (hnew : forall i d, last.shared.db.documents i = some d ->
      d.storageKey ≠ u.storageKey env kb) {limit : Nat}
    (hroom : last.shared.waitingEvents.length < limit) {text : Text}
    (hparse : Parsing.parseDocument env cfg u.filename u.content = .ok text)
    (htext : Chunking.splitParentChildText text cfg.chunkSize cfg.chunkOverlap ≠ [])
    (dispatcher : Settings) (t₁ t₂ t₃ : Nat) :
    Finishes machine t₁ E (u.op.body env)
      (fun out x => out = .ok () ∧ x.Idle ∧ exists (d : Document) (event : Nat),
        (exists id profileId now, d = u.document env kb id profileId now) ∧
        last.shared.Takes d event u.content x ∧
        Finishes machine t₂ E ((Op.dispatchOutbox dispatcher limit).body env)
          (fun out y => out = .ok () ∧ exists sent now,
            x.Dispatches dispatcher limit sent y ∧
            .indexDocument (.int d.id) (.int 1) ∈ sent ∧
            y.db.events event = some (markDispatched (firstRequest d event) now) ∧
            Finishes machine t₃ E (Tasks.indexDocument env cfg d.id (some 1) 0)
              (fun out z => out = .ok () ∧ z.Idle ∧ z.Indexed env cfg d u.content) y) x)
      last.shared := by
  have hsound : Discipline.Sound (S := system env) (discipline env fun _ => True) last :=
    reaches_sound (fun _ _ _ _ => trivial) hrun
  have hinv := hsound.inv
  have hkeyed : last.shared.EventsKeyed := by
    intro i e he
    rcases hinv.coherent.event i e he with ⟨hid, hbound, -⟩
    exact ⟨hid, hbound⟩
  have haggregate : forall i e, last.shared.db.events i = some e ->
      e.aggregateId < last.shared.nextId :=
    fun i e he => hinv.bounded _ (hinv.aggregate i e he)
  refine (finishes_upload hE (idle_of_quiet hrun hquiet) hkb haccepted hnew haggregate).mono
    fun out x h => ?_
  rcases h with ⟨rfl, id, event, profileId, now, htakes⟩
  refine ⟨rfl, htakes.idle, _, event, ⟨id, profileId, now, rfl⟩, htakes, ?_⟩
  have hkeyed' := htakes.eventsKeyed hkeyed
  refine (finishes_dispatchOutbox hE htakes.idle (fun i e he => (hkeyed' i e he).2) limit).mono
    fun out y h => ?_
  rcases h with ⟨rfl, sent, hdispatches⟩
  -- the new event is the last one that waits, and the round comes to it
  have hwaiting := htakes.waitingEvents fun i e he => (hkeyed i e he).2
  have hreached : firstRequest (u.document env kb id profileId now) event ∈
      x.waitingEvents.take limit := by
    rw [hwaiting, List.take_of_length_le (by rw [List.length_append]; exact hroom)]
    exact List.mem_append_right _ (List.mem_singleton_self _)
  have hmessage : Tasks.eventMessage (firstRequest (u.document env kb id profileId now) event) =
      .ok (.indexDocument (.int id) (.int 1)) := eventMessage_index rfl
  rcases hdispatches.delivers hkeyed' hreached hmessage with ⟨hsent, time, hdispatched⟩
  refine ⟨rfl, sent, time, hdispatches, hsent, hdispatched, ?_⟩
  rcases hdispatches.events with ⟨events, -, hdb⟩
  have hrow : y.db.documents id = some (u.document env kb id profileId now) := by
    rw [hdb]
    show x.db.documents id = _
    rw [htakes.documents]
    exact Function.update_self ..
  have hstored : y.storage (u.storageKey env kb) = some u.content := by
    rw [hdispatches.storage, htakes.storage]
    exact Function.update_self ..
  exact finishes_indexReady (d := u.document env kb id profileId now) hE hcfg hbatch
    hdispatches.idle hrow (Nat.lt_of_lt_of_le htakes.idBound hdispatches.nextId) rfl rfl
    (fun v hv => (Option.mem_some.mp hv).symm) hstored hparse htext

/-!
# A sample run

User 1 has created knowledge base 1.
-/

namespace Sample

def newBase : List (Label Op Choice) :=
  start 0 (.createKnowledgeBase 1 "kb".toList none false) 7

end Sample

/-- The first upload into a new knowledge base. -/
theorem upload_becomes_ready_first : exists last : RagConfig,
    Finishes machine 1 Sample.atWork (Sample.firstUpload.op.body Sample.env)
      (fun out x => out = .ok () ∧ x.Idle ∧ exists (d : Document) (event : Nat),
        (exists kb id profileId now,
          d = Sample.firstUpload.document Sample.env kb id profileId now) ∧
        last.shared.Takes d event Sample.content x ∧
        Finishes machine 2 Sample.atWork ((Op.dispatchOutbox Sample.settings 5).body Sample.env)
          (fun out y => out = .ok () ∧ exists sent now,
            x.Dispatches Sample.settings 5 sent y ∧
            .indexDocument (.int d.id) (.int 1) ∈ sent ∧
            y.db.events event = some (markDispatched (firstRequest d event) now) ∧
            Finishes machine 3 Sample.atWork
              (Tasks.indexDocument Sample.env Sample.settings d.id (some 1) 0)
              (fun out z => out = .ok () ∧ z.Idle ∧
                z.Indexed Sample.env Sample.settings d Sample.content) y) x)
      last.shared := by
  rcases exists_quiet Sample.env Sample.newBase 1
    (fun last : RagConfig => (last.shared.db.getAuthorized 1 1 false true).isSome = true ∧
      scan last.shared.db.documents last.shared.nextId = [] ∧
      last.shared.waitingEvents.length < 5) (by decide) (by decide +kernel) with
    ⟨last, hrun, hquiet, hsome, hempty, hroom⟩
  rcases Option.isSome_iff_exists.mp hsome with ⟨kb, hkb⟩
  have hnew : forall i d, last.shared.db.documents i = some d ->
      d.storageKey ≠ Sample.firstUpload.storageKey Sample.env kb := by
    intro i d hd
    have hmem : d ∈ scan last.shared.db.documents last.shared.nextId :=
      mem_scan.mpr ⟨i, (keyed_of_reaches hrun).bound i d hd, hd⟩
    rw [hempty] at hmem
    cases hmem
  have hparse : Parsing.parseDocument Sample.env Sample.settings Sample.firstUpload.filename
      Sample.firstUpload.content = .ok "a".toList := rfl
  exists last
  refine (upload_becomes_ready Sample.atWork_healthy (by decide) (by decide) hrun hquiet
    (u := Sample.firstUpload) (by decide) hkb hnew hroom hparse (by decide +kernel)
    Sample.settings 1 2 3).mono fun out x h => ?_
  rcases h with ⟨hout, hidle, d, event, ⟨id, profileId, now, hd⟩, hrest⟩
  exact ⟨hout, hidle, d, event, ⟨kb, id, profileId, now, hd⟩, hrest⟩

end RagService
