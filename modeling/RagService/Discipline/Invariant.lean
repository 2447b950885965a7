import RagService.Service.Tasks

/-!
# The invariant of the shared state

What holds of the committed database, of the history and the broker, and of every open
transaction, whatever the threads do; and what a thread may rely on while the
others run.
-/

namespace RagService

open Interleaving OutboxService

/-!
# Columns that never change

No statement changes the identity columns of a document or of an event.  A column is written
over the committed row when it was assigned another value than the one it was loaded with.
-/

def Document.identity (d : Document) : Nat × Nat × Text × Nat :=
  (d.id, d.knowledgeBaseId, d.storageKey, d.deleted)

def OutboxEvent.identity (e : OutboxEvent) : Text × Nat × Text × Text :=
  (e.eventType, e.aggregateId, e.payload, e.dedupeKey)

def OutboxEvent.key (e : OutboxEvent) : Resource :=
  .eventKey e.eventType e.aggregateId e.dedupeKey

theorem Document.id_of_identity {d e : Document} (h : d.identity = e.identity) :
    d.id = e.id := by
  simpa [Document.identity] using congrArg Prod.fst h

theorem Document.knowledgeBaseId_of_identity {d e : Document} (h : d.identity = e.identity) :
    d.knowledgeBaseId = e.knowledgeBaseId := by
  simpa [Document.identity] using congrArg (fun x => x.2.1) h

theorem Document.storageKey_of_identity {d e : Document} (h : d.identity = e.identity) :
    d.storageKey = e.storageKey := by
  simpa [Document.identity] using congrArg (fun x => x.2.2.1) h

theorem Document.deleted_of_identity {d e : Document} (h : d.identity = e.identity) :
    d.deleted = e.deleted := by
  simpa [Document.identity] using congrArg (fun x => x.2.2.2) h

theorem OutboxEvent.key_of_identity {d e : OutboxEvent} (h : d.identity = e.identity) :
    d.key = e.key := by
  simp only [OutboxEvent.identity, Prod.mk.injEq] at h
  simp only [OutboxEvent.key, h]

theorem OutboxEvent.aggregateId_of_identity {d e : OutboxEvent} (h : d.identity = e.identity) :
    d.aggregateId = e.aggregateId := by
  simpa [OutboxEvent.identity] using congrArg (fun x => x.2.1) h

@[simp]
theorem writeColumn_self {α : Type} [DecidableEq α] (loaded base : α) :
    writeColumn loaded loaded base = base := by
  simp [writeColumn]

theorem writeColumn_of_ne {α : Type} [DecidableEq α] {loaded current : α} (base : α)
    (h : current ≠ loaded) : writeColumn loaded current base = current := by
  simp [writeColumn, h]

theorem writeColumn_loaded {α : Type} [DecidableEq α] (loaded current : α) :
    writeColumn loaded current loaded = current := by
  unfold writeColumn
  split
  · rename_i h
    exact h.symm
  · rfl

theorem writeColumn_cases {α : Type} [DecidableEq α] (loaded current base : α) :
    (current = loaded ∧ writeColumn loaded current base = base) ∨
      (current ≠ loaded ∧ writeColumn loaded current base = current) := by
  by_cases h : current = loaded
  · exact .inl ⟨h, by simp [writeColumn, h]⟩
  · exact .inr ⟨h, writeColumn_of_ne base h⟩

theorem Document.write_identity {loaded current base : Document} (now : Nat)
    (h : current.identity = loaded.identity) :
    (Document.write loaded current base now).identity = base.identity := by
  simp only [Document.identity, Prod.mk.injEq] at h
  simp only [Document.identity, Document.write, h, writeColumn_self]

/-!
# Requests in the outbox

Every event of the outbox is one of two requests about its aggregate, an index run of one
version or a removal, and its unique index entry determines its other columns.
-/

def indexRequest (documentId indexVersion : Nat) : OutboxEvent :=
  newEvent indexDocumentEvent documentId (indexPayload documentId indexVersion)
    (indexDedupeKey documentId indexVersion)

def deleteRequest (documentId : Nat) : OutboxEvent :=
  newEvent deleteDocumentEvent documentId (deletePayload documentId) (Text.decimal documentId)

def OutboxEvent.WellFormed (e : OutboxEvent) : Prop :=
  (exists v, e.identity = (indexRequest e.aggregateId v).identity) ∨
    e.identity = (deleteRequest e.aggregateId).identity

def Db.RequestsIndex (db : Db) (documentId indexVersion : Nat) : Prop :=
  exists i e, db.events i = some e ∧
    e.identity = (indexRequest documentId indexVersion).identity

def Db.RequestsDelete (db : Db) (documentId : Nat) : Prop :=
  exists i e, db.events i = some e ∧ e.identity = (deleteRequest documentId).identity

theorem indexDocumentEvent_ne_deleteDocumentEvent :
    indexDocumentEvent ≠ deleteDocumentEvent := by
  decide

theorem indexDedupeKey_injective {d v w : Nat}
    (h : indexDedupeKey d v = indexDedupeKey d w) : v = w := by
  unfold indexDedupeKey at h
  exact Text.decimal_injective (List.append_cancel_left h)

theorem OutboxEvent.identity_of_key {d e : OutboxEvent}
    (hd : d.WellFormed) (he : e.WellFormed) (h : d.key = e.key) :
    d.identity = e.identity := by
  simp only [OutboxEvent.key, Resource.eventKey.injEq] at h
  rcases h with ⟨htype, haggregate, hkey⟩
  rcases hd with ⟨v, hd⟩ | hd <;> rcases he with ⟨w, he⟩ | he <;>
    simp only [OutboxEvent.identity, indexRequest, deleteRequest, newEvent, Prod.mk.injEq]
      at hd he ⊢ <;>
    rcases hd with ⟨hdtype, -, hdpayload, hdkey⟩ <;>
    rcases he with ⟨hetype, -, hepayload, hekey⟩
  · refine ⟨htype, haggregate, ?_, hkey⟩
    rw [hdkey, hekey, haggregate] at hkey
    rw [hdpayload, hepayload, haggregate, indexDedupeKey_injective hkey]
  · rw [hdtype, hetype] at htype
    exact absurd htype indexDocumentEvent_ne_deleteDocumentEvent
  · rw [hdtype, hetype] at htype
    exact absurd htype.symm indexDocumentEvent_ne_deleteDocumentEvent
  · exact ⟨htype, haggregate, by rw [hdpayload, hepayload, haggregate], hkey⟩

theorem indexRequest_wellFormed (d v : Nat) : (indexRequest d v).WellFormed :=
  .inl ⟨v, rfl⟩

theorem deleteRequest_wellFormed (d : Nat) : (deleteRequest d).WellFormed :=
  .inr rfl

theorem OutboxEvent.WellFormed.of_identity {d e : OutboxEvent} (hd : d.WellFormed)
    (h : e.identity = d.identity) : e.WellFormed := by
  have haggregate := OutboxEvent.aggregateId_of_identity h
  rcases hd with ⟨v, hd⟩ | hd
  · exact .inl ⟨v, by rw [h, hd, haggregate]⟩
  · exact .inr (by rw [h, hd, haggregate])

/-!
# The committed state

What the committed tables and the history say of each other: keys, unique indexes, and a
request behind every message.
-/

def State.Known (s : State) (documentId : Nat) : Prop :=
  exists c, c ∈ s.history ∧ c.after.documents documentId ≠ none

def State.Requested (s : State) : Message -> Prop
  | .indexDocument (.int d) (.int v) =>
      exists i w, d = (i : Nat) ∧ v = (w : Nat) ∧ s.db.RequestsIndex i w
  | .indexDocument (.int d) .null => exists i w, d = (i : Nat) ∧ s.db.RequestsIndex i w
  | .deleteDocument (.int d) => exists i, d = (i : Nat) ∧ s.db.RequestsDelete i
  | _ => False

def State.notes (s : State) (t : Nat) : List Note :=
  (s.history.filter fun c => c.thread = t).map Commit.note

/-- Keys, unique indexes and requests of a committed database. -/
structure Db.Coherent (db : Db) (n : Nat) : Prop where
  document : forall i d, db.documents i = some d -> d.id = i ∧ d.deleted = 0
  knowledgeBase : forall i kb, db.knowledgeBases i = some kb -> kb.id = i ∧ 0 < i ∧ i < n
  event : forall i e, db.events i = some e -> e.id = i ∧ i < n ∧ e.WellFormed
  indexRequested : forall i d, db.documents i = some d -> db.RequestsIndex i d.indexVersion
  deleteRequested : forall i d, db.documents i = some d -> d.status = .deleting ->
    db.RequestsDelete i
  storageKeys : forall i j d d', db.documents i = some d -> db.documents j = some d' ->
    d.storageKey = d'.storageKey -> i = j
  eventKeys : forall i j e e', db.events i = some e -> db.events j = some e' ->
    e.key = e'.key -> i = j

/-!
# Open transactions

What an open transaction has read and written so far, table by table.
-/

section Transactions

variable (s : State) (t : Nat) (σ : Session)

def Session.Inserts (i : Nat) (d : Document) : Prop :=
  σ.documents i = none ∧ σ.writes.documents i = some (some d)

structure DocumentsOk : Prop where
  entry : forall i e, σ.documents i = some e ->
    s.Known i ∧ e.loaded.id = i ∧ e.loaded.deleted = 0 ∧
      e.flushed.identity = e.loaded.identity ∧ e.current.identity = e.loaded.identity
  committed : forall i e d, σ.documents i = some e -> s.db.documents i = some d ->
    d.identity = e.loaded.identity
  locked : forall i x, σ.writes.documents i = some x -> s.locks (.document i) = some t
  updated : forall i e x, σ.documents i = some e -> σ.writes.documents i = some x ->
    exists base now, s.db.documents i = some base ∧
      x = some (Document.write e.loaded e.flushed base now)
  written : forall i e, σ.documents i = some e -> e.flushed ≠ e.loaded ->
    σ.writes.documents i ≠ none
  inserted : forall i d, σ.Inserts i d ->
    ¬ s.Known i ∧ i < s.nextId ∧ d.id = i ∧ d.deleted = 0 ∧ d.status = .pending ∧
      d.indexVersion = 1 ∧ s.locks (.storageKey d.storageKey) = some t ∧
      forall j d', s.db.documents j = some d' -> d'.storageKey ≠ d.storageKey
  single : forall i j d d', σ.Inserts i d -> σ.Inserts j d' -> i = j
  removed : forall i, σ.writes.documents i = some none ->
    exists base, s.db.documents i = some base ∧ base.status = .deleting

/-- How a dispatcher leaves an event it has locked. -/
def State.Delivery (allowed : Settings -> Prop) (old new : OutboxEvent) : Prop :=
  (exists now m, new = markDispatched old now ∧ Tasks.eventMessage old = .ok m ∧ m ∈ s.broker) ∨
    exists exc cfg, allowed cfg ∧ new = markFailed old exc cfg.outboxMaxDispatchAttempts

/-- The pending row of an event is an attempt to deliver a committed one. -/
def Session.Delivers (allowed : Settings -> Prop) (i : Nat) (e : OutboxEvent) : Prop :=
  exists old, s.db.events i = some old ∧ (old.status = .pending ∨ old.status = .failed) ∧
    s.Delivery allowed old e

def Session.Enqueues (i : Nat) (e : OutboxEvent) : Prop :=
  s.db.events i = none ∧ e.status = .pending ∧ e.dispatchAttempts = 0 ∧ e.WellFormed ∧
    (s.Known e.aggregateId ∨ exists d, σ.Inserts e.aggregateId d) ∧
    s.locks e.key = some t ∧
    forall j e', s.db.events j = some e' -> e'.key ≠ e.key

structure EventsOk (allowed : Settings -> Prop) : Prop where
  row : forall i e, σ.writes.events i = some e -> e.id = i ∧ i < s.nextId
  locked : forall i e, σ.writes.events i = some e -> s.locks (.event i) = some t
  kind : forall i e, σ.writes.events i = some e ->
    Session.Delivers s allowed i e ∨ Session.Enqueues s t σ i e
  keys : forall i j e e', σ.writes.events i = some e -> σ.writes.events j = some e' ->
    e.key = e'.key -> i = j

structure KnowledgeBasesOk : Prop where
  entry : forall i e, σ.knowledgeBases i = some e ->
    e.loaded.id = i ∧ e.flushed.id = i ∧ e.current.id = i ∧ 0 < i ∧ i < s.nextId
  locked : forall i kb, σ.writes.knowledgeBases i = some kb ->
    s.locks (.knowledgeBase i) = some t
  row : forall i kb, σ.writes.knowledgeBases i = some kb -> kb.id = i ∧ 0 < i ∧ i < s.nextId
  updated : forall i e kb, σ.knowledgeBases i = some e -> σ.writes.knowledgeBases i = some kb ->
    exists base, s.db.knowledgeBases i = some base ∧
      kb = KnowledgeBase.write e.loaded e.flushed base
  written : forall i e, σ.knowledgeBases i = some e -> e.flushed ≠ e.loaded ->
    σ.writes.knowledgeBases i ≠ none
  inserted : forall i kb, σ.knowledgeBases i = none -> σ.writes.knowledgeBases i = some kb ->
    kb.deleted = 0

def ChunksOk : Prop :=
  forall i cs, σ.writes.chunks i = some cs -> s.locks (.document i) = some t

structure SessionOk (allowed : Settings -> Prop) : Prop where
  documents : DocumentsOk s t σ
  events : EventsOk s t σ allowed
  knowledgeBases : KnowledgeBasesOk s t σ
  chunks : ChunksOk s t σ

end Transactions

structure State.Inv (allowed : Settings -> Prop) (s : State) : Prop where
  positive : 0 < s.nextId
  coherent : s.db.Coherent s.nextId
  bounded : forall i, s.Known i -> i < s.nextId
  known : forall i d, s.db.documents i = some d -> s.Known i
  aggregate : forall i e, s.db.events i = some e -> s.Known e.aggregateId
  dispatched : forall i e, s.db.events i = some e -> e.status = .dispatched ->
    exists m, m ∈ s.broker ∧ Tasks.eventMessage e = .ok m
  session : forall t σ, s.sessions t = some σ -> SessionOk s t σ allowed

/-!
# What the others may do

What never goes back, whoever runs, and what a transaction may rely on until its own end: its
locks protect the rows under them.
-/

structure Grows (s s' : State) : Prop where
  nextId : s.nextId ≤ s'.nextId
  history : s.history <+: s'.history
  broker : s.broker <+: s'.broker
  events : forall i e, s.db.events i = some e ->
    exists e', s'.db.events i = some e' ∧ e'.identity = e.identity

structure Advance (t : Nat) (s s' : State) : Prop extends Grows s s' where
  locks : forall r, s.locks r = some t -> s'.locks r = some t
  document : forall i, s.locks (.document i) = some t ->
    s'.db.documents i = s.db.documents i
  chunks : forall i, s.locks (.document i) = some t -> s'.db.chunks i = s.db.chunks i
  event : forall i, s.locks (.event i) = some t -> s'.db.events i = s.db.events i
  knowledgeBase : forall i, s.locks (.knowledgeBase i) = some t ->
    s'.db.knowledgeBases i = s.db.knowledgeBases i
  known : forall i, s.locks (.document i) = some t -> s'.Known i -> s.Known i
  identity : forall i d', s.Known i -> s'.db.documents i = some d' ->
    exists d, s.db.documents i = some d ∧ d.identity = d'.identity
  storageKey : forall i d', s'.db.documents i = some d' ->
    s.locks (.storageKey d'.storageKey) = some t ->
    exists d, s.db.documents i = some d ∧ d.identity = d'.identity
  eventKey : forall i e', s'.db.events i = some e' -> s.locks e'.key = some t ->
    exists e, s.db.events i = some e ∧ e.identity = e'.identity

theorem Grows.refl (s : State) : Grows s s :=
  ⟨Nat.le_refl _, List.prefix_refl _, List.prefix_refl _, fun _ e h => ⟨e, h, rfl⟩⟩

theorem Grows.trans {s₁ s₂ s₃ : State} (h : Grows s₁ s₂) (h' : Grows s₂ s₃) : Grows s₁ s₃ where
  nextId := Nat.le_trans h.nextId h'.nextId
  history := h.history.trans h'.history
  broker := h.broker.trans h'.broker
  events := by
    intro i e he
    rcases h.events i e he with ⟨e', he', hid⟩
    rcases h'.events i e' he' with ⟨e'', he'', hid'⟩
    exact ⟨e'', he'', hid'.trans hid⟩

theorem Grows.known {s s' : State} (h : Grows s s') {i : Nat} (hi : s.Known i) : s'.Known i := by
  rcases hi with ⟨c, hc, hne⟩
  exact ⟨c, h.history.subset hc, hne⟩

theorem Grows.requestsIndex {s s' : State} (h : Grows s s') {d v : Nat}
    (hreq : s.db.RequestsIndex d v) : s'.db.RequestsIndex d v := by
  rcases hreq with ⟨i, e, he, hid⟩
  rcases h.events i e he with ⟨e', he', hid'⟩
  exact ⟨i, e', he', hid'.trans hid⟩

theorem Grows.requestsDelete {s s' : State} (h : Grows s s') {d : Nat}
    (hreq : s.db.RequestsDelete d) : s'.db.RequestsDelete d := by
  rcases hreq with ⟨i, e, he, hid⟩
  rcases h.events i e he with ⟨e', he', hid'⟩
  exact ⟨i, e', he', hid'.trans hid⟩

theorem Grows.requested {s s' : State} (h : Grows s s') {m : Message} (hm : s.Requested m) :
    s'.Requested m := by
  unfold State.Requested at hm ⊢
  split at hm
  · rcases hm with ⟨i, w, hd, hv, hreq⟩
    exact ⟨i, w, hd, hv, h.requestsIndex hreq⟩
  · rcases hm with ⟨i, w, hd, hreq⟩
    exact ⟨i, w, hd, h.requestsIndex hreq⟩
  · rcases hm with ⟨i, hd, hreq⟩
    exact ⟨i, hd, h.requestsDelete hreq⟩
  · exact hm.elim

theorem Advance.refl (t : Nat) (s : State) : Advance t s s where
  toGrows := Grows.refl s
  locks := fun _ h => h
  document := fun _ _ => rfl
  chunks := fun _ _ => rfl
  event := fun _ _ => rfl
  knowledgeBase := fun _ _ => rfl
  known := fun _ _ h => h
  identity := fun _ d' _ h => ⟨d', h, rfl⟩
  storageKey := fun _ d' h _ => ⟨d', h, rfl⟩
  eventKey := fun _ e' h _ => ⟨e', h, rfl⟩

theorem Advance.trans {t : Nat} {s₁ s₂ s₃ : State} (h : Advance t s₁ s₂)
    (h' : Advance t s₂ s₃) : Advance t s₁ s₃ where
  toGrows := h.toGrows.trans h'.toGrows
  locks := fun r hr => h'.locks r (h.locks r hr)
  document := fun i hi => (h'.document i (h.locks _ hi)).trans (h.document i hi)
  chunks := fun i hi => (h'.chunks i (h.locks _ hi)).trans (h.chunks i hi)
  event := fun i hi => (h'.event i (h.locks _ hi)).trans (h.event i hi)
  knowledgeBase := fun i hi =>
    (h'.knowledgeBase i (h.locks _ hi)).trans (h.knowledgeBase i hi)
  known := fun i hi hknown => h.known i hi (h'.known i (h.locks _ hi) hknown)
  identity := by
    intro i d' hknown hd'
    rcases h'.identity i d' (h.toGrows.known hknown) hd' with ⟨d₂, hd₂, hid₂⟩
    rcases h.identity i d₂ hknown hd₂ with ⟨d₁, hd₁, hid₁⟩
    exact ⟨d₁, hd₁, hid₁.trans hid₂⟩
  storageKey := by
    intro i d' hd' hlock
    rcases h'.storageKey i d' hd' (h.locks _ hlock) with ⟨d₂, hd₂, hid₂⟩
    rw [← Document.storageKey_of_identity hid₂] at hlock
    rcases h.storageKey i d₂ hd₂ hlock with ⟨d₁, hd₁, hid₁⟩
    exact ⟨d₁, hd₁, hid₁.trans hid₂⟩
  eventKey := by
    intro i e' he' hlock
    rcases h'.eventKey i e' he' (h.locks _ hlock) with ⟨e₂, he₂, hid₂⟩
    rw [← OutboxEvent.key_of_identity hid₂] at hlock
    rcases h.eventKey i e₂ he₂ hlock with ⟨e₁, he₁, hid₁⟩
    exact ⟨e₁, he₁, hid₁.trans hid₂⟩

/-!
# Open transactions keep their invariant while others run
-/

section Stability

variable {s s' : State} {t : Nat} {σ : Session} {allowed : Settings -> Prop}

theorem DocumentsOk.advance (h : DocumentsOk s t σ) (ha : Advance t s s') :
    DocumentsOk s' t σ where
  entry := by
    intro i e he
    rcases h.entry i e he with ⟨hknown, hrest⟩
    exact ⟨ha.toGrows.known hknown, hrest⟩
  committed := by
    intro i e d' he hd'
    rcases ha.identity i d' (h.entry i e he).1 hd' with ⟨d, hd, hid⟩
    rw [← hid]
    exact h.committed i e d he hd
  locked := fun i x hx => ha.locks _ (h.locked i x hx)
  updated := by
    intro i e x he hx
    rw [ha.document i (h.locked i x hx)]
    exact h.updated i e x he hx
  written := h.written
  inserted := by
    intro i d hd
    rcases h.inserted i d hd with
      ⟨hknown, hbound, hid, hdeleted, hstatus, hversion, hlock, hkey⟩
    have hlocked := h.locked i _ hd.2
    refine ⟨fun hk => hknown (ha.known i hlocked hk), Nat.lt_of_lt_of_le hbound ha.nextId,
      hid, hdeleted, hstatus, hversion, ha.locks _ hlock, ?_⟩
    intro j d' hd' heq
    rw [← heq] at hlock
    rcases ha.storageKey j d' hd' hlock with ⟨d₀, hd₀, hid₀⟩
    exact hkey j d₀ hd₀ ((Document.storageKey_of_identity hid₀).trans heq)
  single := h.single
  removed := by
    intro i hi
    rw [ha.document i (h.locked i _ hi)]
    exact h.removed i hi

theorem State.Delivery.grows {old new : OutboxEvent} (h : s.Delivery allowed old new)
    (hg : Grows s s') : s'.Delivery allowed old new := by
  rcases h with ⟨now, m, hnew, hmessage, hm⟩ | h
  · exact .inl ⟨now, m, hnew, hmessage, hg.broker.subset hm⟩
  · exact .inr h

theorem EventsOk.advance (h : EventsOk s t σ allowed) (ha : Advance t s s') :
    EventsOk s' t σ allowed where
  row := by
    intro i e he
    rcases h.row i e he with ⟨hid, hbound⟩
    exact ⟨hid, Nat.lt_of_lt_of_le hbound ha.nextId⟩
  locked := fun i e he => ha.locks _ (h.locked i e he)
  kind := by
    intro i e he
    have hevent := ha.event i (h.locked i e he)
    rcases h.kind i e he with ⟨old, hold, hstatus, hdelivery⟩ | hnew
    · exact .inl ⟨old, hevent.trans hold, hstatus, hdelivery.grows ha.toGrows⟩
    · rcases hnew with ⟨hnone, hstatus, hattempts, hwf, haggregate, hlock, hkey⟩
      refine .inr ⟨hevent.trans hnone, hstatus, hattempts, hwf, ?_, ha.locks _ hlock, ?_⟩
      · exact haggregate.imp_left ha.toGrows.known
      · intro j e' he' heq
        rw [← heq] at hlock
        rcases ha.eventKey j e' he' hlock with ⟨e₀, he₀, hid₀⟩
        exact hkey j e₀ he₀ ((OutboxEvent.key_of_identity hid₀).trans heq)
  keys := h.keys

theorem KnowledgeBasesOk.advance (h : KnowledgeBasesOk s t σ) (ha : Advance t s s') :
    KnowledgeBasesOk s' t σ where
  entry := by
    intro i e he
    rcases h.entry i e he with ⟨hloaded, hflushed, hcurrent, hpos, hbound⟩
    exact ⟨hloaded, hflushed, hcurrent, hpos, Nat.lt_of_lt_of_le hbound ha.nextId⟩
  locked := fun i kb hkb => ha.locks _ (h.locked i kb hkb)
  row := by
    intro i kb hkb
    rcases h.row i kb hkb with ⟨hid, hpos, hbound⟩
    exact ⟨hid, hpos, Nat.lt_of_lt_of_le hbound ha.nextId⟩
  updated := by
    intro i e kb he hkb
    rw [ha.knowledgeBase i (h.locked i kb hkb)]
    exact h.updated i e kb he hkb
  written := h.written
  inserted := h.inserted

theorem SessionOk.advance (h : SessionOk s t σ allowed) (ha : Advance t s s') :
    SessionOk s' t σ allowed where
  documents := h.documents.advance ha
  events := h.events.advance ha
  knowledgeBases := h.knowledgeBases.advance ha
  chunks := fun i cs hcs => ha.locks _ (h.chunks i cs hcs)

end Stability

end RagService
