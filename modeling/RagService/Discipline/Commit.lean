import RagService.Discipline.Transactions

/-!
# What a commit can do

The state machine of a document as the commits drive it, read off once from the
obligations of a commit.
-/

namespace RagService

open Interleaving OutboxService

/--
The committed row of a document before and after a commit that updates it.  The row
`loaded` is the one the transaction read; the row before the commit may be newer
unless the transaction has held the lock since.
-/
inductive Document.Step : Note -> Nat -> Document -> Document -> Prop where
  | knowledgeBaseDeleted {i : Nat} (loaded base : Document) (now : Nat) :
      Document.Step (.knowledgeBaseDeleted loaded.knowledgeBaseId) i base
        (Document.write loaded loaded.deleteRequested base now)
  | retried {i : Nat} (event profileId : Nat) (loaded base : Document) (now : Nat) :
      Document.Step (.documentRetried i event) i base
        (Document.write loaded (loaded.retried profileId) base now)
  | deleteRequested {i : Nat} (event : Nat) (loaded base : Document) (now : Nat) :
      Document.Step (.documentDeleteRequested i event) i base
        (Document.write loaded loaded.deleteRequested base now)
  | claimed {i : Nat} (base : Document) (now : Nat) (hstatus : base.status = .pending) :
      Document.Step (.indexClaimed i base.indexVersion) i base
        (Document.write base base.claimed base now)
  | indexed {i : Nat} (base : Document) (text : Text) (count now : Nat)
      (hstatus : base.status = .processing) :
      Document.Step (.documentIndexed i) i base
        (Document.write base (base.indexed text count) base now)
  | failed {i : Nat} (base : Document) (status : DocumentStatus) (message : Text) (now : Nat)
      (hstatus : status = .pending ∨ status = .failed)
      (hready : base.status ≠ .ready) (hdeleting : base.status ≠ .deleting) :
      Document.Step (.failureRecorded i base.indexVersion) i base
        (Document.write base (base.failed status message) base now)
  | recovered {i : Nat} {ids : List Nat} (base : Document) (message : Text) (time now : Nat)
      (hid : i ∈ ids) (hstatus : base.status = .pending ∨ base.status = .processing) :
      Document.Step (.staleRecovered ids) i base
        (Document.write base (base.recovered message time) base now)

section Commit

variable {env : Env} {allowed : Settings -> Prop} {s : State} {t : Nat} {σ : Session}
variable {note : Note}

/-!
# Documents

An object whose attributes were assigned has its row among the pending ones of the session, and
a flush writes what was changed over the committed row.  So the obligation of a commit says
where the committed row of a document comes from: it is the old one, a new one, or the outcome
of a step of its state machine.  Only `delete_document` makes a committed document disappear,
and only a retry changes its index version.
-/

theorem DocumentsOk.row_of_changed (h : DocumentsOk s t σ) (hclean : σ.Clean) {i : Nat}
    {e : Entry Document} (he : σ.documents i = some e) (hne : e.current ≠ e.loaded) :
    exists base now, s.db.documents i = some base ∧
      σ.writes.documents i = some (some (Document.write e.loaded e.current base now)) := by
  have hflushed := hclean.documents i e he
  rw [← hflushed] at hne ⊢
  cases hx : σ.writes.documents i with
  | none => exact absurd hx (h.written i e he hne)
  | some x =>
      rcases h.updated i e x he hx with ⟨base, now, hbase, hrow⟩
      exact ⟨base, now, hbase, by rw [hrow]⟩

theorem Session.Focus.row (h : DocumentsOk s t σ) (hclean : σ.Clean) {d : Nat}
    {loaded current : Document} (hfocus : σ.Focus d loaded current) (hne : current ≠ loaded) :
    exists base now, s.db.documents d = some base ∧
      (s.db.install σ.writes).documents d =
        some (Document.write loaded current base now) := by
  rcases hfocus.entry with ⟨flushed, he⟩
  rcases h.row_of_changed hclean he hne with ⟨base, now, hbase, hrow⟩
  exact ⟨base, now, hbase, Db.install_documents_of_some hrow⟩

theorem Session.Focus.eq_of_write {d i : Nat} {loaded current : Document}
    (hfocus : σ.Focus d loaded current) {x : Option Document}
    (hx : σ.writes.documents i = some x) : i = d := by
  by_contra hne
  rw [hfocus.writes i hne] at hx
  cases hx

theorem Session.Effect.write_cases (hdocuments : DocumentsOk s t σ) (hclean : σ.Clean)
    (heffect : σ.Effect env allowed s t note) {i : Nat} {x : Option Document}
    (hx : σ.writes.documents i = some x) :
    (x = none ∧ note = .documentRemoved i) ∨
      (exists row event, x = some row ∧ σ.Inserts i row ∧ note = .documentCreated i event) ∨
      (exists base row, x = some row ∧ s.db.documents i = some base ∧
        Document.Step note i base row) := by
  -- a session about one document has a pending row only there, and it is an update
  have hfocused : forall d loaded current, σ.Focus d loaded current ->
      i = d ∧ exists base now, s.db.documents d = some base ∧
        x = some (Document.write loaded current base now) := by
    intro d loaded current hfocus
    rcases hfocus.eq_of_write hx with rfl
    rcases hfocus.entry with ⟨flushed, he⟩
    rcases hdocuments.updated i _ x he hx with ⟨base, now, hbase, hrow⟩
    rw [hclean.documents i _ he] at hrow
    exact ⟨rfl, base, now, hbase, hrow⟩
  cases note with
  | knowledgeBaseCreated _ | knowledgeBaseUpdated _ | unchanged | eventsDispatched _ =>
      rw [heffect.1 i] at hx
      cases hx
  | knowledgeBaseDeleted kb =>
      rcases heffect with ⟨-, -, -, hentries, hwrites, -⟩
      cases he : σ.documents i with
      | none =>
          rw [hwrites i he] at hx
          cases hx
      | some e =>
          rcases hentries i e he with ⟨rfl, hcurrent, -⟩
          rcases hdocuments.updated i e x he hx with ⟨base, now, hbase, hrow⟩
          rw [hclean.documents i e he, hcurrent] at hrow
          exact .inr (.inr ⟨base, _, hrow, hbase, .knowledgeBaseDeleted _ _ _⟩)
  | documentCreated d event =>
      rcases heffect with ⟨hnone, ⟨row, hrow⟩, hwrites, -⟩
      by_cases hi : i = d
      · subst i
        rw [hrow, Option.some.injEq] at hx
        exact .inr (.inl ⟨row, event, hx.symm, ⟨hnone d, hrow⟩, rfl⟩)
      · rw [hwrites i hi] at hx
        cases hx
  | documentRetried d event =>
      rcases heffect with ⟨⟨loaded, profileId, hfocus, -⟩, -⟩
      rcases hfocused d _ _ hfocus with ⟨rfl, base, now, hbase, hrow⟩
      exact .inr (.inr ⟨base, _, hrow, hbase, .retried _ _ _ _ _⟩)
  | documentDeleteRequested d event =>
      rcases heffect with ⟨⟨loaded, hfocus⟩, -⟩
      rcases hfocused d _ _ hfocus with ⟨rfl, base, now, hbase, hrow⟩
      exact .inr (.inr ⟨base, _, hrow, hbase, .deleteRequested _ _ _ _⟩)
  | indexClaimed d version =>
      rcases heffect with ⟨⟨loaded, hholds, hstatus, rfl⟩, -⟩
      rcases hfocused d _ _ hholds.toFocus with ⟨rfl, base, now, hbase, hrow⟩
      rw [hholds.committed, Option.some.injEq] at hbase
      subst hbase
      exact .inr (.inr ⟨loaded, _, hrow, hholds.committed, .claimed _ _ hstatus⟩)
  | documentIndexed d =>
      rcases heffect with ⟨⟨loaded, run, hholds, hstatus, -⟩, -⟩
      rcases hfocused d _ _ hholds.toFocus with ⟨rfl, base, now, hbase, hrow⟩
      rw [hholds.committed, Option.some.injEq] at hbase
      subst hbase
      exact .inr (.inr ⟨loaded, _, hrow, hholds.committed, .indexed _ _ _ _ hstatus⟩)
  | failureRecorded d version =>
      rcases heffect with
        ⟨⟨loaded, status, message, hholds, hstatus, rfl, hready, hdeleting⟩, -⟩
      rcases hfocused d _ _ hholds.toFocus with ⟨rfl, base, now, hbase, hrow⟩
      rw [hholds.committed, Option.some.injEq] at hbase
      subst hbase
      exact .inr (.inr ⟨loaded, _, hrow, hholds.committed,
        .failed _ _ _ _ hstatus hready hdeleting⟩)
  | staleRecovered ids =>
      rcases heffect with ⟨hentries, hwrites, -⟩
      cases he : σ.documents i with
      | none =>
          rw [hwrites i he] at hx
          cases hx
      | some e =>
          rcases hentries i e he with ⟨hid, -, hcommitted, hstatus, message, time, hcurrent⟩
          rcases hdocuments.updated i e x he hx with ⟨base, now, hbase, hrow⟩
          rw [hclean.documents i e he, hcurrent] at hrow
          rw [hcommitted, Option.some.injEq] at hbase
          subst hbase
          exact .inr (.inr ⟨e.loaded, _, hrow, hcommitted, .recovered _ _ _ _ hid hstatus⟩)
  | documentRemoved d =>
      rcases heffect with ⟨-, hremoved, hwrites, -⟩
      by_cases hi : i = d
      · subst i
        rw [hremoved, Option.some.injEq] at hx
        exact .inl ⟨hx.symm, rfl⟩
      · rw [hwrites i hi] at hx
        cases hx

/-- Where the committed row of a document comes from after a commit. -/
theorem Session.Effect.document_cases (hdocuments : DocumentsOk s t σ) (hclean : σ.Clean)
    (heffect : σ.Effect env allowed s t note) {i : Nat} {d' : Document}
    (hd' : (s.db.install σ.writes).documents i = some d') :
    s.db.documents i = some d' ∨
      (exists event, note = .documentCreated i event ∧ σ.Inserts i d') ∨
      (exists base, s.db.documents i = some base ∧ Document.Step note i base d') := by
  cases hx : σ.writes.documents i with
  | none =>
      rw [Db.install_documents_of_none hx] at hd'
      exact .inl hd'
  | some x =>
      rw [Db.install_documents_of_some hx] at hd'
      subst hd'
      rcases heffect.write_cases hdocuments hclean hx with
        ⟨hnone, -⟩ | ⟨row, event, hrow, hinserts, hnote⟩ | ⟨base, row, hrow, hbase, hstep⟩
      · cases hnone
      · rw [Option.some.injEq] at hrow
        subst hrow
        exact .inr (.inl ⟨event, hnote, hinserts⟩)
      · rw [Option.some.injEq] at hrow
        subst hrow
        exact .inr (.inr ⟨base, hbase, hstep⟩)

/-- Only `delete_document` makes a committed document disappear. -/
theorem Session.Effect.removed (hdocuments : DocumentsOk s t σ) (hclean : σ.Clean)
    (heffect : σ.Effect env allowed s t note) {i : Nat} {base : Document}
    (hbase : s.db.documents i = some base)
    (hnone : (s.db.install σ.writes).documents i = none) :
    note = .documentRemoved i ∧ base.status = .deleting ∧
      (s.db.install σ.writes).chunks i = [] := by
  cases hx : σ.writes.documents i with
  | none =>
      rw [Db.install_documents_of_none hx, hbase] at hnone
      cases hnone
  | some x =>
      rw [Db.install_documents_of_some hx] at hnone
      subst hnone
      rcases heffect.write_cases hdocuments hclean hx with
        ⟨-, hnote⟩ | ⟨row, event, hrow, -⟩ | ⟨base, row, hrow, -⟩
      · subst hnote
        rcases hdocuments.removed i hx with ⟨base', hbase', hstatus⟩
        rw [hbase, Option.some.injEq] at hbase'
        subst hbase'
        exact ⟨rfl, hstatus, Db.install_chunks_of_some heffect.2.2.2.1⟩
      · cases hrow
      · cases hrow

theorem Document.Step.identity {i : Nat} {base row : Document}
    (h : Document.Step note i base row) : row.identity = base.identity := by
  cases h <;> exact Document.write_identity _ rfl

theorem Document.Step.indexVersion {i : Nat} {base row : Document}
    (h : Document.Step note i base row) (hretry : forall event, note ≠ .documentRetried i event) :
    row.indexVersion = base.indexVersion := by
  cases h with
  | retried event profileId loaded base now => exact absurd rfl (hretry event)
  | knowledgeBaseDeleted | deleteRequested | claimed | indexed | failed | recovered =>
      exact writeColumn_self _ _

theorem Document.retried_ne (d : Document) (profileId : Nat) : d.retried profileId ≠ d := by
  intro h
  have hversion := congrArg Document.indexVersion h
  simp [Document.retried] at hversion

/-- The row that a committed retry leaves. -/
theorem Session.Effect.retried (hdocuments : DocumentsOk s t σ) (hclean : σ.Clean)
    {d event : Nat} (heffect : σ.Effect env allowed s t (.documentRetried d event)) :
    exists e profileId base now,
      σ.documents d = some e ∧
      s.db.documents d = some base ∧
      (s.db.install σ.writes).documents d =
        some (Document.write e.loaded (e.loaded.retried profileId) base now) ∧
      (s.db.install σ.writes).Carries event (indexRequest d (e.loaded.indexVersion + 1)) := by
  rcases heffect with ⟨⟨loaded, profileId, hfocus, hevent⟩, -⟩
  rcases hfocus.row hdocuments hclean (Document.retried_ne loaded profileId) with
    ⟨base, now, hbase, hrow⟩
  rcases hfocus.entry with ⟨flushed, he⟩
  exact ⟨_, profileId, base, now, he, hbase, hrow, hevent⟩

theorem Document.write_retried_indexVersion (loaded base : Document) (profileId now : Nat) :
    (Document.write loaded (loaded.retried profileId) base now).indexVersion =
      loaded.indexVersion + 1 :=
  writeColumn_of_ne _ (Nat.succ_ne_self _)

/-!
# Chunks

Chunks change only with an index run or with the removal of their document.
-/

/-- Chunks change only with an index run or with the removal of their document. -/
theorem Session.Effect.chunks_cases (hdocuments : DocumentsOk s t σ) (hclean : σ.Clean)
    (heffect : σ.Effect env allowed s t note) (i : Nat) :
    (note ≠ .documentIndexed i ∧ (s.db.install σ.writes).chunks i = s.db.chunks i) ∨
      (note = .documentRemoved i ∧ (s.db.install σ.writes).chunks i = [] ∧
        (s.db.install σ.writes).documents i = none) ∨
      (note = .documentIndexed i ∧ exists (base : Document) (run : IndexRun) (now : Nat),
        s.db.documents i = some base ∧ run.Valid env allowed base ∧
        (s.db.install σ.writes).chunks i = run.rows env base ∧
        (s.db.install σ.writes).documents i =
          some (Document.write base (base.indexed run.text run.children.length) base now)) := by
  have hkeeps : σ.KeepsChunks -> (s.db.install σ.writes).chunks i = s.db.chunks i :=
    fun h => Db.install_chunks_of_none (h i)
  cases note with
  | knowledgeBaseCreated _ | knowledgeBaseUpdated _ | unchanged | eventsDispatched _ =>
      exact .inl ⟨by simp, hkeeps heffect.2.1⟩
  | knowledgeBaseDeleted kb =>
      rcases heffect with ⟨-, -, -, -, -, hchunks, -⟩
      exact .inl ⟨by simp, hkeeps hchunks⟩
  | documentCreated d event =>
      rcases heffect with ⟨-, -, -, hchunks, -⟩
      exact .inl ⟨by simp, hkeeps hchunks⟩
  | documentRetried d event =>
      rcases heffect with ⟨-, hchunks, -⟩
      exact .inl ⟨by simp, hkeeps hchunks⟩
  | documentDeleteRequested d event =>
      rcases heffect with ⟨-, hchunks, -⟩
      exact .inl ⟨by simp, hkeeps hchunks⟩
  | indexClaimed d version =>
      rcases heffect with ⟨-, -, hchunks, -⟩
      exact .inl ⟨by simp, hkeeps hchunks⟩
  | failureRecorded d version =>
      rcases heffect with ⟨-, -, hchunks, -⟩
      exact .inl ⟨by simp, hkeeps hchunks⟩
  | staleRecovered ids =>
      rcases heffect with ⟨-, -, hchunks, -⟩
      exact .inl ⟨by simp, hkeeps hchunks⟩
  | documentIndexed d =>
      rcases heffect with ⟨⟨loaded, run, hholds, hstatus, -, hvalid, hrows⟩, hchunks, -⟩
      by_cases hi : i = d
      · subst i
        have hne : loaded.indexed run.text run.children.length ≠ loaded := by
          intro heq
          have hready := congrArg Document.status heq
          simp [Document.indexed, hstatus] at hready
        rcases hholds.toFocus.row hdocuments hclean hne with ⟨base, now, hbase, hrow⟩
        rw [hholds.committed, Option.some.injEq] at hbase
        subst hbase
        exact .inr (.inr ⟨rfl, loaded, run, now, hholds.committed, hvalid,
          Db.install_chunks_of_some hrows, hrow⟩)
      · refine .inl ⟨fun hnote => hi ?_, Db.install_chunks_of_none (hchunks i hi)⟩
        injection hnote with hnote
        exact hnote.symm
  | documentRemoved d =>
      rcases heffect with ⟨-, hremoved, -, hempty, hchunks, -⟩
      by_cases hi : i = d
      · subst i
        exact .inr (.inl ⟨rfl, Db.install_chunks_of_some hempty,
          Db.install_documents_of_some hremoved⟩)
      · exact .inl ⟨by simp, Db.install_chunks_of_none (hchunks i hi)⟩

/-!
# Events

Committed events stay, with their identity.  A new one comes from an upload, a retry or a
deletion that is requested.
-/

theorem State.Delivery.identity {old new : OutboxEvent} (h : s.Delivery allowed old new) :
    new.identity = old.identity := by
  rcases h with ⟨now, m, rfl, -, -⟩ | ⟨exc, cfg, -, rfl⟩ <;> rfl

theorem EventsOk.install_cases (h : EventsOk s t σ allowed) {i : Nat} {e : OutboxEvent}
    (he : (s.db.install σ.writes).events i = some e) :
    s.db.events i = some e ∨ Session.Delivers s allowed i e ∨ Session.Enqueues s t σ i e := by
  cases hx : σ.writes.events i with
  | none =>
      rw [Db.install_events_of_none hx] at he
      exact .inl he
  | some e' =>
      rw [Db.install_events_of_some hx, Option.some.injEq] at he
      subst he
      exact .inr (h.kind i e' hx)

theorem EventsOk.install_events (h : EventsOk s t σ allowed) {i : Nat} {e : OutboxEvent}
    (he : s.db.events i = some e) :
    exists e', (s.db.install σ.writes).events i = some e' ∧ e'.identity = e.identity := by
  cases hx : σ.writes.events i with
  | none => exact ⟨e, by rw [Db.install_events_of_none hx, he], rfl⟩
  | some e' =>
      refine ⟨e', Db.install_events_of_some hx, ?_⟩
      rcases h.kind i e' hx with ⟨old, hold, -, hdelivery⟩ | henqueues
      · rw [he, Option.some.injEq] at hold
        subst hold
        exact hdelivery.identity
      · have hnone := henqueues.1
        rw [he] at hnone
        cases hnone

theorem Session.Effect.new_event (heffect : σ.Effect env allowed s t note) {i : Nat}
    {e : OutboxEvent} (he : σ.writes.events i = some e) (hnone : s.db.events i = none) :
    e.identity = (deleteRequest e.aggregateId).identity ∨
      (exists d, note = .documentCreated d i ∧ e.identity = (indexRequest d 1).identity) ∨
      (exists d loaded profileId, note = .documentRetried d i ∧
        σ.Focus d loaded (loaded.retried profileId) ∧
        e.identity = (indexRequest d (loaded.indexVersion + 1)).identity) := by
  have hcarries : forall event request,
      (s.db.install σ.writes).Carries event request -> i = event ->
        e.identity = request.identity := by
    intro event request h heq
    rcases h with ⟨e', he', hid⟩
    subst heq
    rw [Db.install_events_of_some he, Option.some.injEq] at he'
    subst he'
    exact hid
  cases note with
  | knowledgeBaseCreated _ | knowledgeBaseUpdated _ | unchanged =>
      rw [heffect.2.2.1 i] at he
      cases he
  | eventsDispatched _ => exact absurd hnone (heffect.2.2.2 i e he)
  | knowledgeBaseDeleted kb =>
      rcases heffect with ⟨-, -, -, -, -, -, hevents⟩
      exact .inl (hevents i e he)
  | documentCreated d event =>
      rcases heffect with ⟨-, -, -, -, -, honly, hevent⟩
      have hi := honly i e he
      subst hi
      exact .inr (.inl ⟨d, rfl, hcarries _ _ hevent rfl⟩)
  | documentRetried d event =>
      rcases heffect with ⟨⟨loaded, profileId, hfocus, hevent⟩, -, -, honly⟩
      have hi := honly i e he
      subst hi
      exact .inr (.inr ⟨d, loaded, profileId, rfl, hfocus, hcarries _ _ hevent rfl⟩)
  | documentDeleteRequested d event =>
      rcases heffect with ⟨-, -, -, honly, hevent⟩
      have hid := hcarries _ _ hevent (honly i e he)
      refine .inl ?_
      rw [OutboxEvent.aggregateId_of_identity hid]
      exact hid
  | indexClaimed d version =>
      rcases heffect with ⟨-, -, -, hevents, -⟩
      rw [hevents i] at he
      cases he
  | documentIndexed d =>
      rcases heffect with ⟨-, -, hevents, -⟩
      rw [hevents i] at he
      cases he
  | failureRecorded d version =>
      rcases heffect with ⟨-, -, -, hevents, -⟩
      rw [hevents i] at he
      cases he
  | staleRecovered ids =>
      rcases heffect with ⟨-, -, -, hevents, -⟩
      rw [hevents i] at he
      cases he
  | documentRemoved d =>
      rcases heffect with ⟨-, -, -, -, -, hevents, -⟩
      rw [hevents i] at he
      cases he

end Commit

end RagService
