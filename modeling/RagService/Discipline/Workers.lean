import RagService.Discipline.Requests
import RagService.Foundation.JsonRoundTrip

/-!
# The tasks meet their guards

The dispatcher, the index and delete tasks, and the repairer.
-/

namespace RagService

open Interleaving Interleaving.Discipline OutboxService DocumentService

/-!
# Messages of events

The payload of an index request decodes to its document and version, so a committed event asks
for its own message.
-/

theorem plain_indexPayload (d v : Nat) : (indexPayload d v).Plain := by
  simp [indexPayload, Json.Plain, Json.PlainFields]

theorem plain_deletePayload (d : Nat) : (deletePayload d).Plain := by
  simp [deletePayload, Json.Plain, Json.PlainFields]

theorem eventMessage_index {e : OutboxEvent} {d v : Nat}
    (h : e.identity = (indexRequest d v).identity) :
    Tasks.eventMessage e = .ok (.indexDocument (.int d) (.int v)) := by
  simp only [OutboxEvent.identity, indexRequest, newEvent, Prod.mk.injEq] at h
  rcases h with ⟨htype, -, hpayload, -⟩
  simp only [Tasks.eventMessage, hpayload, Json.loads_dumps true _ (plain_indexPayload d v), htype,
    if_true]
  rfl

theorem eventMessage_delete {e : OutboxEvent} {d : Nat}
    (h : e.identity = (deleteRequest d).identity) :
    Tasks.eventMessage e = .ok (.deleteDocument (.int d)) := by
  simp only [OutboxEvent.identity, deleteRequest, newEvent, Prod.mk.injEq] at h
  rcases h with ⟨htype, -, hpayload, -⟩
  simp only [Tasks.eventMessage, hpayload, Json.loads_dumps true _ (plain_deletePayload d), htype,
    if_neg (Ne.symm indexDocumentEvent_ne_deleteDocumentEvent), if_true]
  rfl

section

variable {env : Env} {allowed : Settings -> Prop} {t : Nat} {n : List Note}
variable {s₀ s s' : State} {σ σ' : Session}

theorem State.Inv.requested_event (hinv : s.Inv allowed) {i : Nat} {e : OutboxEvent} {m : Message}
    (he : s.db.events i = some e) (hm : Tasks.eventMessage e = .ok m) : s.Requested m := by
  rcases (hinv.coherent.event i e he).2.2 with ⟨v, hid⟩ | hid
  · rw [eventMessage_index hid, Except.ok.injEq] at hm
    subst hm
    exact ⟨e.aggregateId, v, rfl, rfl, i, e, he, hid⟩
  · rw [eventMessage_delete hid, Except.ok.injEq] at hm
    subst hm
    exact ⟨e.aggregateId, rfl, i, e, he, hid⟩

/-!
# Messages outside a transaction

What never goes back accumulates along every program; a list of messages may be sent when each
of them is requested.
-/

theorem runs_grows {α : Type} {p : Action α} {Q : α -> State -> Prop}
    {X : Exception -> State -> Prop} (h : Runs env allowed t p Q X s) :
    Runs env allowed t p (fun a s' => Q a s' ∧ Grows s s') (fun e s' => X e s' ∧ Grows s s') s :=
  safe_along Grows Grows.refl Grows.trans (fun h => Advance.toGrows (Frame.toAdvance h))
    (fun hinv hguard h => exec_grows hinv hguard h) h

theorem runs_send_requested {m : Message} (hm : s.Requested m) :
    Runs env allowed t (Action.send m) (fun _ _ => True) (fun _ _ => True) s := by
  apply safe_issue
  intro s' hinv hframe ch s'' r hexec
  refine ⟨?_, by cases r <;> trivial⟩
  cases ch with
  | fail e => trivial
  | proceed now vectors => exact ⟨hframe.toGrows.requested hm, fun _ _ => trivial⟩

theorem runs_sendAll {β : Type} {xs : List β} {message : β -> Message}
    (h : forall x, x ∈ xs -> s.Requested (message x)) :
    Runs env allowed t (Program.forEach xs fun x => Action.send (message x))
      (fun _ _ => True) (fun _ _ => True) s := by
  refine safe_mono (safe_forEach (X := fun _ _ => True)
    (fun rest s' => forall x, x ∈ rest -> s'.Requested (message x)) h ?_)
    (fun _ _ _ => trivial) (fun _ _ _ => trivial)
  intro x rest s₁ hrest
  have hsend : Runs env allowed t (Action.send (message x)) (fun _ _ => True) (fun _ _ => True)
      s₁ :=
    runs_send_requested (hrest x List.mem_cons_self)
  refine safe_mono (runs_grows hsend) ?_ (fun _ _ _ => trivial)
  intro _ s₂ h y hy
  rcases h with ⟨-, hgrows⟩
  exact hgrows.requested (hrest y (List.mem_cons_of_mem x hy))

theorem runs_clock (hn : s.notes t = n) :
    Runs env allowed t Action.now (fun _ s' => s'.notes t = n) (fun _ _ => True) s := by
  apply safe_issue
  intro s' hinv hframe ch s'' r hexec
  have hn' : s'.notes t = n := hframe.notes.trans hn
  refine ⟨?_, ?_⟩
  · cases ch with
    | fail e => trivial
    | proceed now vectors => exact ⟨trivial, fun _ _ => trivial⟩
  · cases r with
    | error e => trivial
    | ok a =>
        cases ch with
        | fail e => cases hexec
        | proceed now vectors =>
            cases hexec
            exact hn'

/-!
# The dispatcher

The dispatcher locks the events of one round and attempts to deliver each of them.
-/

theorem Session.Delivers.advance {i : Nat} {e : OutboxEvent}
    (h : Session.Delivers s allowed i e) (hlock : s.locks (.event i) = some t)
    (ha : Advance t s s') : Session.Delivers s' allowed i e := by
  rcases h with ⟨old, hold, hstatus, hdelivery⟩
  exact ⟨old, (ha.event i hlock).trans hold, hstatus, hdelivery.grows ha.toGrows⟩

def State.Attempted (s : State) (allowed : Settings -> Prop) (t : Nat) (e : OutboxEvent) : Prop :=
  s.locks (.event e.id) = some t ∧ Session.Delivers s allowed e.id e

theorem State.Attempted.advance {e : OutboxEvent} (h : s.Attempted allowed t e)
    (ha : Advance t s s') : s'.Attempted allowed t e :=
  ⟨ha.locks _ h.1, h.2.advance h.1 ha⟩

theorem runs_dispatchEvent {cfg : Settings} {event : OutboxEvent} (hcfg : allowed cfg)
    (hs : Within allowed t n s₀ σ s) (hlock : s.locks (.event event.id) = some t)
    (hevent : s.db.events event.id = some event)
    (hstatus : event.status = .pending ∨ event.status = .failed) :
    Runs env allowed t (Tasks.dispatchEvent cfg event)
      (fun row s' => Within allowed t n s₀ σ s' ∧ s'.Attempted allowed t row)
      (fun _ _ => False) s := by
  refine safe_handle (Q := fun row s' =>
      Within allowed t n s₀ σ s' ∧ s'.Attempted allowed t row)
    (safe_mono (Q := fun row s' => Within allowed t n s₀ σ s' ∧ s'.Attempted allowed t row)
      (X := fun _ => Within allowed t n s σ) ?_ (fun _ _ h => h) ?_)
  · refine runs_then (Y := fun _ => Within allowed t n s σ)
      (P := fun m s' => Within allowed t n s σ s' ∧ Tasks.eventMessage event = .ok m)
      (runs_ofExcept (fun m hm => ⟨hs.start, hm⟩) fun _ _ => hs.start) (fun _ _ h => h) ?_
    intro m s₁ h
    rcases h with ⟨hs₁, hm⟩
    have hrequested := hs.inv.requested_event hevent hm
    refine runs_then (runs_send hs₁ hrequested) (fun _ _ h => h) ?_
    intro _ s₂ h
    rcases h with ⟨hs₂, hbroker⟩
    refine runs_then (runs_now hs₂.start) (fun _ _ h => hs₂.trans h) ?_
    intro time s₃ hs₃
    have ha := hs₂.advance.trans hs₃.advance
    refine runs_ret ⟨hs.trans (hs₂.trans hs₃), ha.locks _ hlock, event, ?_, hstatus,
      .inl ⟨time, m, rfl, hm, hs₃.advance.broker.subset hbroker⟩⟩
    exact (ha.event _ hlock).trans hevent
  · intro exc s₁ hs₁
    exact runs_ret ⟨hs.trans hs₁, hs₁.advance.locks _ hlock, event,
      (hs₁.advance.event _ hlock).trans hevent, hstatus, .inr ⟨exc, cfg, hcfg, rfl⟩⟩

theorem dispatchOutbox_safe {cfg : Settings} (limit : Nat) (hcfg : allowed cfg)
    (hn : s.notes t = n) :
    Runs env allowed t
      (Action.transaction (fun events => Note.eventsDispatched (events.map OutboxEvent.id))
        (Tasks.dispatchOutbox cfg limit))
      (fun _ _ => True) (fun _ _ => True) s := by
  refine safe_mono (runs_transaction (R := fun _ _ => True) hn (fun s₁ _ hs₁ => ?_)
    (fun _ _ _ _ h => h)) (fun _ _ _ => trivial) (fun _ _ _ => trivial)
  refine runs_then (runs_lockEvents limit hs₁) (fun _ _ h => h.notes) ?_
  intro events s₂ h
  rcases h with ⟨hs₂, hevents⟩
  -- the events still to send are locked, the others have been attempted
  refine runs_then (Y := fun _ _ => False)
    (safe_mapEach
      (fun rest done s' => Within allowed t n s₁ {} s' ∧
        (forall e, e ∈ rest -> s'.locks (.event e.id) = some t ∧
          s'.db.events e.id = some e ∧ (e.status = .pending ∨ e.status = .failed)) ∧
        (forall e, e ∈ done -> s'.Attempted allowed t e))
      ⟨hs₂, hevents, fun e he => absurd he (by simp)⟩ ?_) (fun _ _ h => h.elim) ?_
  · intro e rest done s₃ h
    rcases h with ⟨hs₃, hrest, hdone⟩
    rcases hrest e List.mem_cons_self with ⟨hlock, hevent, hstatus⟩
    refine safe_mono (runs_dispatchEvent hcfg hs₃.start hlock hevent hstatus) ?_
      (fun _ _ h => h)
    intro row s₄ h
    rcases h with ⟨hs₄, hattempted⟩
    refine ⟨hs₃.trans hs₄, fun e' he' => ?_, fun e' he' => ?_⟩
    · rcases hrest e' (List.mem_cons_of_mem e he') with ⟨hlock', hevent', hstatus'⟩
      exact ⟨hs₄.advance.locks _ hlock', (hs₄.advance.event _ hlock').trans hevent', hstatus'⟩
    · rcases List.mem_append.mp he' with hold | hnew
      · exact (hdone e' hold).advance hs₄.advance
      · rw [List.mem_singleton] at hnew
        subst hnew
        exact hattempted
  intro rows s₃ h
  rcases h with ⟨hs₃, -, hrows⟩
  refine runs_then (Y := fun _ s' => s'.notes t = n)
    (safe_forEach
      (fun rest s' => (forall e, e ∈ rest -> s'.Attempted allowed t e) ∧
        exists σ', Within allowed t n s₁ σ' s' ∧ (forall i, σ'.documents i = none) ∧
          σ'.KeepsDocuments ∧ σ'.KeepsChunks ∧ σ'.KeepsDeleted ∧
          forall i e, σ'.writes.events i = some e -> s'.db.events i ≠ none)
      ⟨by simpa using hrows, {}, hs₃, fun _ => rfl, fun _ => rfl, fun _ => rfl,
        (fun i e he => by cases he), (fun i e he => by cases he)⟩ ?_) (fun _ _ h => h) ?_
  · intro e rest s₄ h
    rcases h with ⟨hrest, σ₄, hs₄, hnone, hdocuments, hchunks, hdeleted, hpending⟩
    rcases hrest e List.mem_cons_self with ⟨hlock, hdelivers⟩
    refine safe_mono (runs_updateEvent hs₄.start hlock
      fun s' hs' => hdelivers.advance hlock hs'.advance) ?_ (fun _ _ h => h.notes)
    intro _ s₅ hs₅
    refine ⟨fun e' he' => (hrest e' (List.mem_cons_of_mem e he')).advance hs₅.advance, _,
      hs₄.trans hs₅, hnone, hdocuments, hchunks, hdeleted, ?_⟩
    intro i e' he'
    by_cases hi : i = e.id
    · subst i
      rcases hdelivers with ⟨old, hold, -⟩
      rw [hs₅.advance.event _ hlock, hold]
      exact Option.some_ne_none old
    · simp only [Function.update_of_ne hi] at he'
      rcases Option.ne_none_iff_exists'.mp (hpending i e' he') with ⟨old, hold⟩
      rcases hs₅.advance.events i old hold with ⟨old', hold', -⟩
      rw [hold']
      exact Option.some_ne_none old'
  · intro _ s₄ h
    rcases h with ⟨-, σ₄, hs₄, hnone, hdocuments, hchunks, hdeleted, hpending⟩
    refine runs_ret ⟨σ₄, hs₄.start, trivial, ?_⟩
    intro σ' s₅ hflushed hs₅
    have hlike := hflushed.toLike
    refine ⟨fun i => (hlike.writes i (hnone i)).trans (hdocuments i),
      hlike.keepsChunks hchunks, hlike.keepsDeleted hdeleted, fun i e he => ?_⟩
    rw [hflushed.events] at he
    rcases Option.ne_none_iff_exists'.mp (hpending i e he) with ⟨old, hold⟩
    rcases hs₅.advance.events i old hold with ⟨old', hold', -⟩
    rw [hold']
    exact Option.some_ne_none old'

/-!
# Locking reads of one document

The answer of `get_live_for_update` is a row that is locked from then on.  A transaction that
has only read changes nothing.
-/

def Session.ofDocument (d : Document) : Session :=
  { documents := Function.update (fun _ => none) d.id (some (Entry.fresh d)) }

def Found (allowed : Settings -> Prop) (t : Nat) (n : List Note) (s₀ : State) (pk : Nat) :
    Option Document -> State -> Prop
  | none, s => Within allowed t n s₀ {} s
  | some d, s =>
      d.id = pk ∧ Within allowed t n s₀ (Session.ofDocument d) s ∧
        s.locks (.document pk) = some t ∧ s.db.documents pk = some d

theorem runs_getLiveForUpdate (pk : Nat) (hs : Within allowed t n s₀ {} s) :
    Runs env allowed t (getLiveForUpdate pk) (Found allowed t n s₀ pk)
      (fun _ s' => s'.notes t = n) s := by
  refine runs_then (runs_lock (.live pk) hs fun _ => rfl) (fun _ _ h => h.notes) ?_
  intro rows s₁ h
  rcases h with ⟨hs₁, hlocked, s₂, hinv, hrows⟩
  simp only [LockQuery.rows] at hrows
  split at hrows
  · cases hrows
    exact runs_ret hs₁
  · rename_i d hd
    split at hrows
    · cases hrows
      rw [Option.filter_eq_some_iff] at hd
      rcases hlocked d (by simp) with ⟨hlock, hcommitted⟩
      have hid : d.id = pk := (hinv.coherent.document pk d hd.1).1
      rw [hid] at hlock hcommitted
      refine runs_ret ⟨hid, ?_, hlock, hcommitted⟩
      simpa only [Session.ofDocument, loadEntries_singleton] using hs₁
    · cases hrows

structure Session.Indexes (σ : Session) (d : Nat) (loaded current : Document)
    (chunks : Option (List Chunk)) : Prop extends Session.Focus σ d loaded current where
  events : σ.KeepsEvents
  deleted : σ.KeepsDeleted
  chunks : σ.writes.chunks d = chunks
  otherChunks : forall i, i ≠ d -> σ.writes.chunks i = none

theorem Session.ofDocument_indexes (d : Document) :
    (Session.ofDocument d).Indexes d.id d d none where
  entry := ⟨d, by simp [Session.ofDocument, Entry.fresh]⟩
  others := fun i hi => by simp [Session.ofDocument, Function.update_of_ne hi]
  writes := fun _ _ => rfl
  events := fun _ => rfl
  deleted := fun i e he => by cases he
  chunks := rfl
  otherChunks := fun _ _ => rfl

namespace Session.Indexes

variable {d : Nat} {loaded current : Document} {chunks : Option (List Chunk)}

theorem flushed (h : σ.Indexes d loaded current chunks) (hflushed : σ.Flushed σ') :
    σ'.Indexes d loaded current chunks where
  toFocus := hflushed.toLike.focus h.toFocus
  events := fun i => (congrFun hflushed.events i).trans (h.events i)
  deleted := hflushed.toLike.keepsDeleted h.deleted
  chunks := (congrFun hflushed.toLike.chunks d).trans h.chunks
  otherChunks := fun i hi => (congrFun hflushed.toLike.chunks i).trans (h.otherChunks i hi)

theorem keepsChunks (h : σ.Indexes d loaded current none) : σ.KeepsChunks := by
  intro i
  by_cases hi : i = d
  · rw [hi]
    exact h.chunks
  · exact h.otherChunks i hi

theorem putChunks (h : σ.Indexes d loaded current chunks) (cs : List Chunk) :
    ({ σ with
      writes := { σ.writes with chunks := Function.update σ.writes.chunks d (some cs) } } :
        Session).Indexes d loaded current (some cs) where
  toFocus := ⟨h.entry, h.others, h.writes⟩
  events := h.events
  deleted := h.deleted
  chunks := Function.update_self _ _ _
  otherChunks := fun i hi => (Function.update_of_ne hi _ _).trans (h.otherChunks i hi)

theorem holds (h : σ.Indexes d loaded current chunks) (hlock : s.locks (.document d) = some t)
    (hcommitted : s.db.documents d = some loaded) (ha : Advance t s s') :
    σ.Holds s' t d loaded current :=
  ⟨h.toFocus, ha.locks _ hlock, (ha.document d hlock).trans hcommitted⟩

end Session.Indexes

theorem runs_assign_indexes {d : Nat} {loaded current : Document} {chunks : Option (List Chunk)}
    {f : Document -> Document} (hs : Within allowed t n s₀ σ s)
    (hindexes : σ.Indexes d loaded current chunks) (hf : forall d, (f d).identity = d.identity) :
    Runs env allowed t (Action.assign d f)
      (fun _ s' => exists σ', σ'.Indexes d loaded (f current) chunks ∧ Within allowed t n s₀ σ' s')
      (fun _ s' => s'.notes t = n) s := by
  rcases hindexes.entry with ⟨flushed, he⟩
  refine safe_mono (runs_assign hs he hf) ?_ (fun _ _ h => h.notes)
  intro _ s' hs'
  exact ⟨_, ⟨hindexes.toFocus.assign f, hindexes.events, hindexes.deleted, hindexes.chunks,
    hindexes.otherChunks⟩, hs'⟩

theorem Session.Flushed.unchanged_empty (h : Session.Flushed {} σ) :
    σ.Effect env allowed s t .unchanged :=
  ⟨fun i => h.toLike.writes i rfl, h.toLike.keepsChunks fun _ => rfl,
    fun i => congrFun h.events i, h.toLike.keepsDeleted fun i e he => by cases he⟩

theorem Session.Flushed.unchanged_ofDocument {d : Document}
    (h : (Session.ofDocument d).Flushed σ) : σ.Effect env allowed s t .unchanged := by
  have hindexes := (Session.ofDocument_indexes d).flushed h
  refine ⟨fun i => ?_, hindexes.keepsChunks, hindexes.events, hindexes.deleted⟩
  by_cases hi : i = d.id
  · subst i
    exact h.unchanged d.id (Entry.fresh d) (by simp [Session.ofDocument]) rfl
  · exact hindexes.writes i hi

/-!
# Claiming

A claim commits before the index run, and is what the rest of the task starts from.
-/

def Claimed (documentId : Nat) (indexVersion : Option Nat) :
    ClaimResult × Option Nat -> State -> Prop
  | (.claimed, some version), s =>
      s.db.RequestsIndex documentId version ∧ forall w, indexVersion = some w -> w = version
  | _, _ => True

theorem Claimed.grows {documentId : Nat} {indexVersion : Option Nat}
    {result : ClaimResult × Option Nat} (hgrows : Grows s s')
    (h : Claimed documentId indexVersion result s) :
    Claimed documentId indexVersion result s' := by
  unfold Claimed at h ⊢
  split
  · exact ⟨hgrows.requestsIndex h.1, h.2⟩
  · trivial

theorem claim_safe (documentId : Nat) (indexVersion : Option Nat) (hn : s.notes t = []) :
    Runs env allowed t
      (Action.transaction (Tasks.claimNote documentId) (claimIndex documentId indexVersion))
      (fun result s' => Claimed documentId indexVersion result s' ∧
        s'.notes t = [Tasks.claimNote documentId result])
      (fun _ _ => True) s := by
  refine safe_mono (runs_transaction (R := Claimed documentId indexVersion) hn
    (fun s₁ _ hs₁ => ?_) (fun _ _ _ hgrows h => h.grows hgrows)) (fun _ _ h => h)
    (fun _ _ _ => trivial)
  refine runs_then (runs_getLiveForUpdate documentId hs₁) (fun _ _ h => h) ?_
  intro found s₂ hfound
  cases found with
  | none => exact runs_ret ⟨{}, hfound.start, trivial, fun σ' s₃ h _ => h.unchanged_empty⟩
  | some document =>
      rcases hfound with ⟨rfl, hs₂, hlock, hcommitted⟩
      -- every answer but one leaves the row alone
      have hunchanged : forall σ' s₃, (Session.ofDocument document).Flushed σ' ->
          Within allowed t [] s₂ σ' s₃ -> σ'.Effect env allowed s₃ t .unchanged :=
        fun σ' s₃ h _ => h.unchanged_ofDocument
      dsimp only
      split
      · exact runs_ret ⟨_, hs₂.start, trivial, hunchanged⟩
      rename_i hversion
      split
      · exact runs_ret ⟨_, hs₂.start, trivial, hunchanged⟩
      · exact runs_ret ⟨_, hs₂.start, trivial, hunchanged⟩
      · exact runs_ret ⟨_, hs₂.start, trivial, hunchanged⟩
      · exact runs_ret ⟨_, hs₂.start, trivial, hunchanged⟩
      rename_i hstatus
      refine runs_then (runs_assign_indexes hs₂.start (Session.ofDocument_indexes document)
        fun _ => rfl) (fun _ _ h => h) ?_
      intro _ s₃ h
      rcases h with ⟨σ₃, hindexes₃, hs₃⟩
      have hlock₃ := hs₃.advance.locks _ hlock
      have hcommitted₃ := (hs₃.advance.document _ hlock).trans hcommitted
      refine runs_ret ⟨σ₃, hs₃.start, ⟨?_, ?_⟩, fun σ' s₄ hflushed hs₄ => ?_⟩
      · exact hs₃.inv.coherent.indexRequested _ _ hcommitted₃
      · intro w heq
        subst heq
        by_contra hne
        exact hversion (by simpa using Ne.symm hne)
      · have hindexes := hindexes₃.flushed hflushed
        exact ⟨⟨document, hindexes.holds hlock₃ hcommitted₃ hs₄.advance, hstatus, rfl⟩,
          hs₄.notes, hindexes.keepsChunks, hindexes.events, hindexes.deleted⟩

/-!
# Indexing

An index task claims, runs, and where the run raises it records the failure and perhaps asks
again.
-/

theorem runs_embedBatch {embed : List Text -> Action (List Embedding)}
    (hembed : forall batch s', Within allowed t n s₀ σ s' ->
      Runs env allowed t (embed batch) (fun _ => Within allowed t n s₀ σ)
        (fun _ => Within allowed t n s₀ σ) s') (m : Nat) (batch : List Text)
    (hs : Within allowed t n s₀ σ s) :
    Runs env allowed t (embedBatch embed m batch) (fun _ => Within allowed t n s₀ σ)
      (fun _ => Within allowed t n s₀ σ) s := by
  induction m generalizing batch s with
  | zero =>
      unfold embedBatch
      refine safe_handle (safe_mono (hembed batch s hs) (fun _ _ h => h) ?_)
      intro exc s₁ hs₁
      dsimp only
      split <;> exact runs_raise hs₁
  | succ m ih =>
      unfold embedBatch
      refine safe_handle (safe_mono (hembed batch s hs) (fun _ _ h => h) ?_)
      intro exc s₁ hs₁
      dsimp only
      split
      · exact runs_raise hs₁
      refine runs_then (ih _ hs₁) (fun _ _ h => h) ?_
      intro left s₂ hs₂
      refine runs_then (ih _ hs₂) (fun _ _ h => h) ?_
      intro right s₃ hs₃
      exact runs_ret hs₃

theorem runs_embedTextsInBatches {embed : List Text -> Action (List Embedding)}
    (hembed : forall batch s', Within allowed t n s₀ σ s' ->
      Runs env allowed t (embed batch) (fun _ => Within allowed t n s₀ σ)
        (fun _ => Within allowed t n s₀ σ) s') (texts : List Text) (batchSize : Nat)
    (hs : Within allowed t n s₀ σ s) :
    Runs env allowed t (embedTextsInBatches embed texts batchSize)
      (fun _ => Within allowed t n s₀ σ) (fun _ => Within allowed t n s₀ σ) s := by
  unfold embedTextsInBatches
  split
  · exact runs_raise_then hs
  refine runs_then (Y := fun _ => Within allowed t n s₀ σ)
    (safe_mapEach (fun _ _ => Within allowed t n s₀ σ) hs
      fun batch _ _ s' hs' => runs_embedBatch hembed batch.length batch hs') (fun _ _ h => h) ?_
  intro vectors s₁ hs₁
  exact runs_ret hs₁

theorem runs_indexContent {cfg : Settings} {document : Document} (content : Bytes)
    (hcfg : allowed cfg) (hs : Within allowed t n s₀ (Session.ofDocument document) s)
    (hlock : s₀.locks (.document document.id) = some t) :
    Runs env allowed t (indexContent env cfg document content)
      (fun _ s' => exists (σ' : Session) (run : IndexRun), Within allowed t n s₀ σ' s' ∧
        run.Valid env allowed document ∧
        σ'.Indexes document.id document (document.indexed run.text run.children.length)
          (some (run.rows env document)))
      (fun _ s' => s'.notes t = n) s := by
  refine runs_then (runs_assign_indexes hs (Session.ofDocument_indexes document) fun _ => rfl)
    (fun _ _ h => h) ?_
  intro _ s₁ h
  rcases h with ⟨σ₁, hindexes₁, hs₁⟩
  refine runs_then (Y := fun _ s' => s'.notes t = n)
    (P := fun text s' => Within allowed t n s₀ σ₁ s' ∧
      Parsing.parseDocument env cfg document.filename content = .ok text)
    (runs_ofExcept (fun text htext => ⟨hs₁, htext⟩) fun _ _ => hs₁.notes) (fun _ _ h => h) ?_
  intro text s₂ h
  rcases h with ⟨hs₂, htext⟩
  dsimp only
  split
  · exact runs_raise_then hs₂.notes
  rename_i hparents
  refine runs_then (runs_embedTextsInBatches
    (fun batch s' hs' => runs_embed cfg.embeddingDimensions batch hs') _ _ hs₂)
    (fun _ _ h => h.notes) ?_
  intro vectors s₃ hs₃
  refine runs_then (runs_deleteChunks hs₃ hlock) (fun _ _ h => h.notes) ?_
  intro _ s₄ hs₄
  refine runs_then (runs_flush hs₄) (fun _ _ h => h) ?_
  intro _ s₅ h
  rcases h with ⟨σ₅, hflushed₅, hs₅⟩
  have hindexes₅ := (hindexes₁.putChunks []).flushed hflushed₅
  refine runs_then (runs_insertChunks hs₅ hlock hindexes₅.chunks) (fun _ _ h => h.notes) ?_
  intro parentIds s₆ h
  rcases h with ⟨firstParent, rfl, hs₆⟩
  split
  · exact runs_raise_then hs₆.notes
  rename_i hlength
  have hindexes₆ := hindexes₅.putChunks
    ([] ++ numberChunks firstParent (parentChunks env document
      (Chunking.splitParentChildText text cfg.chunkSize cfg.chunkOverlap)))
  refine runs_then (runs_insertChunks hs₆ hlock hindexes₆.chunks) (fun _ _ h => h.notes) ?_
  intro childIds s₇ h
  rcases h with ⟨firstChild, -, hs₇⟩
  have hindexes₇ := hindexes₆.putChunks
    (([] ++ numberChunks firstParent (parentChunks env document
      (Chunking.splitParentChildText text cfg.chunkSize cfg.chunkOverlap))) ++
      numberChunks firstChild (childChunks env document
        ((numberChunks firstParent (parentChunks env document
          (Chunking.splitParentChildText text cfg.chunkSize cfg.chunkOverlap))).map Chunk.id)
        (childPieces (Chunking.splitParentChildText text cfg.chunkSize cfg.chunkOverlap))
        vectors))
  refine safe_mono (runs_assign_indexes hs₇ hindexes₇ fun _ => rfl) ?_ (fun _ _ h => h)
  intro _ s₈ h
  rcases h with ⟨σ₈, hindexes₈, hs₈⟩
  let run : IndexRun := ⟨cfg, content, text, vectors, firstParent, firstChild⟩
  refine ⟨σ₈, run, hs₈, ⟨hcfg, htext, ?_, ?_⟩, ?_⟩
  · intro hnil
    exact hparents (List.isEmpty_iff.mpr hnil)
  · by_contra hne
    exact hlength (Ne.symm hne)
  · exact hindexes₈

theorem indexClaimed_safe {cfg : Settings} {documentId version : Nat} (hcfg : allowed cfg)
    (hn : s.notes t = [.indexClaimed documentId version]) :
    Runs env allowed t
      (Action.transaction (Tasks.indexNote documentId)
        (indexClaimedDocument env cfg documentId version))
      (fun _ _ => True) (fun _ s' => s'.notes t = [.indexClaimed documentId version]) s := by
  refine safe_mono (runs_transaction (R := fun _ _ => True) hn (fun s₁ _ hs₁ => ?_)
    (fun _ _ _ _ h => h)) (fun _ _ _ => trivial) (fun _ _ h => h)
  refine runs_then (runs_getLiveForUpdate documentId hs₁) (fun _ _ h => h) ?_
  intro found s₂ hfound
  cases found with
  | none => exact runs_ret ⟨{}, hfound.start, trivial, fun σ' s₃ h _ => h.unchanged_empty⟩
  | some document =>
      rcases hfound with ⟨rfl, hs₂, hlock, hcommitted⟩
      dsimp only
      split
      · exact runs_ret ⟨_, hs₂.start, trivial, fun σ' s₃ h _ => h.unchanged_ofDocument⟩
      rename_i hversion
      split
      · exact runs_raise_then hs₂.notes
      rename_i hstatus
      rw [ne_eq, not_not] at hversion hstatus
      refine runs_then (runs_getObject _ hs₂.start) (fun _ _ h => h.notes) ?_
      intro content s₃ hs₃
      refine runs_then (runs_indexContent content hcfg hs₃ hlock) (fun _ _ h => h) ?_
      intro _ s₄ h
      rcases h with ⟨σ₄, run, hs₄, hvalid, hindexes₄⟩
      refine runs_ret ⟨σ₄, hs₄.start, trivial, fun σ' s₅ hflushed hs₅ => ?_⟩
      have hindexes := hindexes₄.flushed hflushed
      have ha := hs₄.advance.trans hs₅.advance
      refine ⟨⟨document, run, hindexes.holds hlock hcommitted ha, hstatus, ?_, hvalid,
        hindexes.chunks⟩, hindexes.otherChunks, hindexes.events, hindexes.deleted⟩
      rw [hs₅.notes, hversion]

theorem markIndexFailure_safe {documentId version : Nat} (status : DocumentStatus)
    (message : Text) (hn : s.notes t = [.indexClaimed documentId version]) :
    Runs env allowed t
      (Action.transaction (Tasks.failureNote documentId version)
        (markIndexFailure documentId version status message))
      (fun _ _ => True) (fun _ _ => True) s := by
  refine safe_mono (runs_transaction (R := fun _ _ => True) hn (fun s₁ _ hs₁ => ?_)
    (fun _ _ _ _ h => h)) (fun _ _ _ => trivial) (fun _ _ _ => trivial)
  unfold markIndexFailure
  split
  · exact runs_raise_then hs₁.notes
  rename_i hfailure
  refine runs_then (runs_getLiveForUpdate documentId hs₁) (fun _ _ h => h) ?_
  intro found s₂ hfound
  cases found with
  | none => exact runs_ret ⟨{}, hfound.start, trivial, fun σ' s₃ h _ => h.unchanged_empty⟩
  | some document =>
      rcases hfound with ⟨rfl, hs₂, hlock, hcommitted⟩
      dsimp only
      split
      · exact runs_ret ⟨_, hs₂.start, trivial, fun σ' s₃ h _ => h.unchanged_ofDocument⟩
      rename_i hversion
      split
      · exact runs_ret ⟨_, hs₂.start, trivial, fun σ' s₃ h _ => h.unchanged_ofDocument⟩
      rename_i hstatus
      rw [ne_eq, not_not] at hversion
      refine runs_then (runs_assign_indexes hs₂.start (Session.ofDocument_indexes document)
        fun _ => rfl) (fun _ _ h => h) ?_
      intro _ s₃ h
      rcases h with ⟨σ₃, hindexes₃, hs₃⟩
      refine runs_ret ⟨σ₃, hs₃.start, trivial, fun σ' s₄ hflushed hs₄ => ?_⟩
      have hindexes := hindexes₃.flushed hflushed
      have ha := hs₃.advance.trans hs₄.advance
      refine ⟨⟨document, status, _, hindexes.holds hlock hcommitted ha, ?_, hversion,
        fun h => hstatus (.inl h), fun h => hstatus (.inr h)⟩, hs₄.notes, hindexes.keepsChunks,
        hindexes.events, hindexes.deleted⟩
      by_cases hpending : status = .pending
      · exact .inl hpending
      · exact .inr (by_contra fun hfailed => hfailure ⟨hpending, hfailed⟩)

/-- An index task: claim, run, and where the run raises, record and perhaps ask again. -/
theorem indexDocument_safe {cfg : Settings} (documentId : Nat) (indexVersion : Option Nat)
    (retries : Nat) (hcfg : allowed cfg) (hn : s.notes t = []) :
    Runs env allowed t (Tasks.indexDocument env cfg documentId indexVersion retries)
      (fun _ _ => True) (fun _ _ => True) s := by
  refine runs_then (claim_safe documentId indexVersion hn) (fun _ _ h => h) ?_
  intro p s₁ h
  rcases p with ⟨result, effectiveVersion⟩
  rcases h with ⟨hclaimed, hn₁⟩
  dsimp only
  split
  swap
  · exact runs_ret trivial
  rename_i version
  rcases hclaimed with ⟨hrequested, hversion⟩
  refine runs_then (Y := fun _ _ => False)
    (P := Ended (fun _ _ => True) fun _ s' =>
      s'.notes t = [.indexClaimed documentId version] ∧ Grows s₁ s')
    (safe_outcome (safe_mono (runs_grows (indexClaimed_safe hcfg hn₁)) (fun _ _ _ => trivial)
      fun _ _ h => h)) (fun _ _ h => h.elim) ?_
  intro outcome s₂ houtcome
  cases outcome with
  | ok a => exact runs_ret trivial
  | error exc =>
      rcases houtcome with ⟨hn₂, hgrows₂⟩
      dsimp only
      refine runs_then (runs_grows (markIndexFailure_safe _ _ hn₂)) (fun _ _ _ => trivial) ?_
      intro _ s₃ h
      rcases h with ⟨-, hgrows₃⟩
      split
      · refine runs_send_requested ?_
        have hrequested₃ := (hgrows₂.trans hgrows₃).requestsIndex hrequested
        cases hindex : indexVersion with
        | none => exact ⟨documentId, version, rfl, hrequested₃⟩
        | some w =>
            rw [hversion w hindex]
            exact ⟨documentId, version, rfl, rfl, hrequested₃⟩
      · split
        · exact runs_raise trivial
        · exact runs_ret trivial

/-!
# Deletion
-/

theorem deleteDocument_safe (documentId : Nat) (hn : s.notes t = n) :
    Runs env allowed t (Tasks.deleteDocument documentId)
      (fun _ _ => True) (fun _ _ => True) s := by
  refine runs_then (Y := fun _ _ => True) (P := fun _ _ => True) ?_ (fun _ _ h => h)
    fun _ _ _ => runs_ret trivial
  refine safe_mono (runs_transaction (R := fun _ _ => True) hn (fun s₁ _ hs₁ => ?_)
    (fun _ _ _ _ h => h)) (fun _ _ _ => trivial) (fun _ _ _ => trivial)
  refine runs_then (runs_getLiveForUpdate documentId hs₁) (fun _ _ h => h) ?_
  intro found s₂ hfound
  cases found with
  | none => exact runs_ret ⟨{}, hfound.start, trivial, fun σ' s₃ h _ => h.unchanged_empty⟩
  | some document =>
      rcases hfound with ⟨rfl, hs₂, hlock, hcommitted⟩
      dsimp only
      split
      · exact runs_ret ⟨_, hs₂.start, trivial, fun σ' s₃ h _ => h.unchanged_ofDocument⟩
      rename_i hstatus
      rw [ne_eq, not_not] at hstatus
      refine runs_then (runs_deleteObject hs₂.start hlock hcommitted hstatus)
        (fun _ _ h => h.notes) ?_
      intro _ s₃ hs₃
      refine runs_then (runs_deleteChunks hs₃ hlock) (fun _ _ h => h.notes) ?_
      intro _ s₄ hs₄
      refine runs_then (runs_remove hs₄ hlock hcommitted hstatus) (fun _ _ h => h.notes) ?_
      intro _ s₅ hs₅
      refine runs_ret ⟨_, hs₅.start, trivial, fun σ' s₆ hflushed _ => ?_⟩
      have hlike := hflushed.toLike
      have hnone : forall i, Function.update (Session.ofDocument document).documents document.id
          none i = none := by
        intro i
        by_cases hi : i = document.id
        · rw [hi, Function.update_self]
        · rw [Function.update_of_ne hi]
          simp only [Session.ofDocument, Function.update_of_ne hi]
      refine ⟨fun i => (hlike.none_iff i).mpr (hnone i), ?_, fun i hi => ?_, ?_, fun i hi => ?_,
        fun i => congrFun hflushed.events i, hlike.keepsDeleted fun i e he => by cases he⟩
      · exact (hlike.writes _ (hnone _)).trans (Function.update_self _ _ _)
      · exact (hlike.writes i (hnone i)).trans (Function.update_of_ne hi _ _)
      · exact (congrFun hlike.chunks _).trans (Function.update_self _ _ _)
      · exact (congrFun hlike.chunks i).trans (Function.update_of_ne hi _ _)

/-!
# Recovery

The repairer resets stale documents in one transaction and then sends its requests again.
-/

structure Session.Recovering (σ : Session) (rows rest : List Document) (message : Text)
    (time : Nat) : Prop where
  entries : forall i e, σ.documents i = some e -> (e.loaded ∈ rows ∧ e.loaded.id = i) ∧
    ((e.current = e.loaded ∧ exists d, d ∈ rest ∧ d.id = i) ∨
      e.current = e.loaded.recovered message time)
  mapped : forall d, d ∈ rest -> exists e, σ.documents d.id = some e
  writes : σ.writes = {}
  knowledgeBases : forall i, σ.knowledgeBases i = none

theorem Session.Recovering.start (rows : List Document) (message : Text) (time : Nat) :
    ({ documents := loadEntries Document.id (fun _ => none) rows } : Session).Recovering
      rows rows message time where
  entries := by
    intro i e he
    have hload : loadEntries Document.id (fun _ => none) rows i = some e := he
    rcases loadEntries_cases hload with hold | ⟨-, d, hd, hid, rfl⟩
    · cases hold
    · exact ⟨⟨hd, hid⟩, .inl ⟨rfl, d, hd, hid⟩⟩
  mapped := by
    intro d hd
    cases hfind : rows.find? fun row => row.id = d.id with
    | none => simpa using List.find?_eq_none.mp hfind d hd
    | some d' => exact ⟨Entry.fresh d', by simp [loadEntries, hfind]⟩
  writes := rfl
  knowledgeBases := fun _ => rfl

theorem Session.Recovering.step {rows rest : List Document} {d : Document} {message : Text}
    {time : Nat} {e : Entry Document} (h : σ.Recovering rows (d :: rest) message time)
    (he : σ.documents d.id = some e) :
    ({ σ with
      documents :=
        Function.update σ.documents d.id
          (some { e with current := e.current.recovered message time }) } : Session).Recovering
      rows rest message time where
  entries := by
    intro i e' he'
    by_cases hi : i = d.id
    · subst i
      simp only [Function.update_self, Option.some.injEq] at he'
      subst he'
      rcases h.entries d.id e he with ⟨hrow, ⟨hcurrent, -⟩ | hcurrent⟩
      · exact ⟨hrow, .inr (by rw [hcurrent])⟩
      · exact ⟨hrow, .inr (by rw [hcurrent]; rfl)⟩
    · simp only [Function.update_of_ne hi] at he'
      rcases h.entries i e' he' with ⟨hrow, ⟨hcurrent, d', hd', hid⟩ | hcurrent⟩
      · rcases List.mem_cons.mp hd' with rfl | hd'
        · exact absurd hid.symm hi
        · exact ⟨hrow, .inl ⟨hcurrent, d', hd', hid⟩⟩
      · exact ⟨hrow, .inr hcurrent⟩
  mapped := by
    intro d' hd'
    by_cases hi : d'.id = d.id
    · exact ⟨_, by rw [hi]; exact Function.update_self _ _ _⟩
    · rcases h.mapped d' (List.mem_cons_of_mem d hd') with ⟨e', he'⟩
      exact ⟨e', (Function.update_of_ne hi _ _).trans he'⟩
  writes := h.writes
  knowledgeBases := h.knowledgeBases

theorem stale_status {before limit : Nat} {rows : List Document} {d : Document}
    (hrows : (LockQuery.stale before limit).rows s t = some rows) (hd : d ∈ rows) :
    d.status = .pending ∨ d.status = .processing := by
  simp only [LockQuery.rows, Option.some.injEq] at hrows
  rw [← hrows] at hd
  have hmem := (List.mem_insertionSort _).mp (List.mem_of_mem_take hd)
  exact (of_decide_eq_true (List.mem_filter.mp hmem).2).1

def Repaired (result : List (Nat × Nat) × List Nat) (s : State) : Prop :=
  (forall p, p ∈ result.1 -> s.db.RequestsIndex p.1 p.2) ∧
    forall d, d ∈ result.2 -> s.db.RequestsDelete d

theorem Repaired.grows {result : List (Nat × Nat) × List Nat} (hgrows : Grows s s')
    (h : Repaired result s) : Repaired result s' :=
  ⟨fun p hp => hgrows.requestsIndex (h.1 p hp), fun d hd => hgrows.requestsDelete (h.2 d hd)⟩

theorem repair_safe (before limit : Nat) (hn : s.notes t = n) :
    Runs env allowed t
      (Action.transaction (fun result : List (Nat × Nat) × List Nat =>
          Note.staleRecovered (result.1.map Prod.fst)) (do
        let recovered ← recoverStaleIndexes before limit
        let deletingDocumentIds ← getDeletingDocumentIds
        return (recovered, deletingDocumentIds)))
      (fun result => Repaired result) (fun _ _ => True) s := by
  refine safe_mono (runs_transaction (R := Repaired) hn (fun s₁ _ hs₁ => ?_)
    (fun _ _ _ hgrows h => h.grows hgrows)) (fun _ _ h => h.1) (fun _ _ _ => trivial)
  unfold recoverStaleIndexes
  refine runs_then (Y := fun _ s' => s'.notes t = n)
    (P := fun recovered s' => exists σ rows message time,
      Within allowed t n s₁ σ s' ∧ σ.Recovering rows [] message time ∧
      recovered = rows.map (fun d => (d.id, d.indexVersion)) ∧
      forall d, d ∈ rows -> (d.status = .pending ∨ d.status = .processing) ∧
        s'.locks (.document d.id) = some t ∧ s'.db.documents d.id = some d) ?_
    (fun _ _ h => h) ?_
  · refine runs_then (runs_lock (.stale before limit) hs₁ fun _ => rfl)
      (fun _ _ h => h.notes) ?_
    intro rows s₂ h
    rcases h with ⟨hs₂, hlocked, s₃, -, hrows⟩
    refine runs_then (runs_now hs₂.start) (fun _ _ h => h.notes) ?_
    intro time s₄ hs₄
    refine runs_then (Y := fun _ s' => s'.notes t = n)
      (safe_forEach
        (fun rest s' => exists σ', Within allowed t n s₂ σ' s' ∧
          σ'.Recovering rows rest "索引任务超时，已重新排队".toList time)
        ⟨_, hs₄, Session.Recovering.start rows _ time⟩ ?_) (fun _ _ h => h) ?_
    · intro d rest s₅ h
      rcases h with ⟨σ₅, hs₅, hrecovering⟩
      rcases hrecovering.mapped d List.mem_cons_self with ⟨e, he⟩
      refine safe_mono (runs_assign hs₅ he fun _ => rfl) ?_ (fun _ _ h => h.notes)
      intro _ s₆ hs₆
      exact ⟨_, hs₆, hrecovering.step he⟩
    · intro _ s₅ h
      rcases h with ⟨σ₅, hs₅, hrecovering⟩
      refine runs_ret ⟨σ₅, rows, _, time, hs₂.trans hs₅, hrecovering, rfl, fun d hd => ?_⟩
      rcases hlocked d hd with ⟨hlock, hcommitted⟩
      exact ⟨stale_status hrows hd, hs₅.advance.locks _ hlock,
        (hs₅.advance.document _ hlock).trans hcommitted⟩
  intro recovered s₂ h
  rcases h with ⟨σ₂, rows, message, time, hs₂, hrecovering, rfl, hrows⟩
  refine runs_then (runs_select (.documentIdsByStatus .deleting) hs₂.start)
    (fun _ _ h => h.notes) ?_
  intro ids s₃ h
  rcases h with ⟨hs₃, rfl⟩
  have hlocked : forall {s'}, Advance t s₂ s' -> forall d, d ∈ rows ->
      s'.locks (.document d.id) = some t ∧ s'.db.documents d.id = some d := by
    intro s' ha d hd
    rcases hrows d hd with ⟨-, hlock, hcommitted⟩
    exact ⟨ha.locks _ hlock, (ha.document _ hlock).trans hcommitted⟩
  refine runs_ret ⟨σ₂, hs₃.start, ⟨?_, ?_⟩, fun σ' s₄ hflushed hs₄ => ?_⟩
  · intro p hp
    rcases List.mem_map.mp hp with ⟨d, hd, rfl⟩
    exact hs₃.inv.coherent.indexRequested _ d (hlocked hs₃.advance d hd).2
  · intro i hi
    rcases List.mem_map.mp hi with ⟨d, hd, rfl⟩
    rcases List.mem_filter.mp hd with ⟨hmem, hcond⟩
    rcases mem_scan.mp hmem with ⟨j, -, hj⟩
    rw [hrecovering.writes] at hj
    have hid := (hs₃.inv.coherent.document j d hj).1
    rw [hid]
    exact hs₃.inv.coherent.deleteRequested j d hj (of_decide_eq_true hcond).1
  · have hlike := hflushed.toLike
    have hempty : forall i, σ₂.writes.documents i = none := fun i => by rw [hrecovering.writes]
    refine ⟨fun i e' he' => ?_, fun i hi => ?_, ?_, fun i => ?_, ?_⟩
    · rcases hlike.entry_back he' with ⟨flushed, he⟩
      rcases hrecovering.entries i _ he with ⟨⟨hrow, rfl⟩, ⟨-, d, hd, -⟩ | hcurrent⟩
      · cases hd
      · rcases hlocked (hs₃.advance.trans hs₄.advance) _ hrow with ⟨hlock, hcommitted⟩
        refine ⟨?_, hlock, hcommitted, (hrows _ hrow).1, message, time, hcurrent⟩
        simp only [List.map_map]
        exact List.mem_map.mpr ⟨_, hrow, rfl⟩
    · exact (hlike.writes i ((hlike.none_iff i).mp hi)).trans (hempty i)
    · exact hlike.keepsChunks fun i => by rw [hrecovering.writes]
    · exact (congrFun hflushed.events i).trans (by rw [hrecovering.writes])
    · refine hlike.keepsDeleted fun i e he => ?_
      rw [hrecovering.knowledgeBases i] at he
      cases he

theorem repairStuckDocument_safe (cfg : Settings) (hn : s.notes t = n) :
    Runs env allowed t (Tasks.repairStuckDocument cfg) (fun _ _ => True) (fun _ _ => True) s := by
  refine runs_then (runs_clock hn) (fun _ _ h => h) ?_
  intro time s₁ hn₁
  refine runs_then (repair_safe _ _ hn₁) (fun _ _ h => h) ?_
  intro p s₂ hrepaired
  rcases p with ⟨recovered, deletingDocumentIds⟩
  have hindex : Runs env allowed t
      (Program.forEach recovered fun p =>
        Action.send (.indexDocument (.int p.1) (.int p.2)))
      (fun _ _ => True) (fun _ _ => True) s₂ :=
    runs_sendAll fun p hp => ⟨p.1, p.2, rfl, rfl, hrepaired.1 p hp⟩
  refine runs_then (runs_grows hindex) (fun _ _ h => h.1) ?_
  intro _ s₃ h
  rcases h with ⟨-, hgrows⟩
  exact runs_sendAll fun d hd => ⟨d, rfl, hgrows.requestsDelete (hrepaired.2 d hd)⟩

end

end RagService
