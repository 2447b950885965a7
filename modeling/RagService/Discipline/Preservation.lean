import RagService.Discipline.Commit

/-!
# The discipline of the service

Every command that meets its guard keeps the invariant and respects what the other
threads rely on.
-/

namespace RagService

open Interleaving OutboxService

/-!
# States after a command

The parts of a state that a statement replaces, and changes outside the committed database, on
which every thread may rely.
-/

def State.work (s : State) (t : Nat) (rs : List Resource) (n : Nat) (σ : Session) : State :=
  { (s.acquire t rs).setSession t σ with nextId := n }

theorem State.acquire_nil (s : State) (t : Nat) : s.acquire t [] = s := by
  simp [State.acquire]

theorem State.work_lock {s : State} {t n : Nat} {rs : List Resource} {σ : Session}
    {r : Resource} (h : r ∈ rs) : (s.work t rs n σ).locks r = some t := by
  simp [State.work, State.acquire, State.setSession, h]

theorem State.lockable_other {s : State} {t u : Nat} {r : Resource}
    (h : s.lockable t r = true) (hu : s.locks r = some u) : u = t := by
  simpa [State.lockable, hu] using h

theorem Advance.of_db {u : Nat} {s s' : State} (hdb : s'.db = s.db)
    (hhistory : s'.history = s.history) (hnextId : s.nextId ≤ s'.nextId)
    (hbroker : s.broker <+: s'.broker)
    (hlocks : forall r, s.locks r = some u -> s'.locks r = some u) : Advance u s s' := by
  have hknown : forall i, s'.Known i -> s.Known i := by
    intro i h
    simpa only [State.Known, hhistory] using h
  constructor
  · refine ⟨hnextId, ?_, hbroker, ?_⟩
    · exact hhistory ▸ List.prefix_refl _
    · intro i e he
      exact ⟨e, by rw [hdb, he], rfl⟩
  · exact hlocks
  · intro i _
    rw [hdb]
  · intro i _
    rw [hdb]
  · intro i _
    rw [hdb]
  · intro i _
    rw [hdb]
  · intro i _ h
    exact hknown i h
  · intro i d' _ hd'
    rw [hdb] at hd'
    exact ⟨d', hd', rfl⟩
  · intro i d' hd' _
    rw [hdb] at hd'
    exact ⟨d', hd', rfl⟩
  · intro i e' he' _
    rw [hdb] at he'
    exact ⟨e', he', rfl⟩

theorem Advance.work {s : State} {t u n : Nat} {rs : List Resource} {σ : Session}
    (hrs : forall r, r ∈ rs -> s.lockable t r = true) (hn : s.nextId ≤ n) :
    Advance u s (s.work t rs n σ) := by
  refine Advance.of_db rfl rfl hn (List.prefix_refl _) ?_
  intro r hr
  by_cases hmem : r ∈ rs
  · rw [State.lockable_other (hrs r hmem) hr]
    exact State.work_lock hmem
  · simpa [State.work, State.acquire, State.setSession, hmem] using hr

theorem Advance.close {s : State} {t u : Nat} (hu : u ≠ t) : Advance u s (s.close t) := by
  refine Advance.of_db rfl rfl (Nat.le_refl _) (List.prefix_refl _) ?_
  intro r hr
  simp [State.close, hr, hu]

/-!
# Commits

The other threads may rely on their locks across a commit.
-/

section Commit

variable {env : Env} {allowed : Settings -> Prop} {s : State} {t : Nat} {σ : Session}
variable {note : Note}

theorem State.known_commit {i : Nat} :
    (s.commit t note σ).Known i ↔
      s.Known i ∨ (s.db.install σ.writes).documents i ≠ none := by
  constructor
  · intro h
    rcases h with ⟨c, hc, hne⟩
    rcases List.mem_append.mp hc with hold | hnew
    · exact .inl ⟨c, hold, hne⟩
    · rw [List.mem_singleton] at hnew
      subst hnew
      exact .inr hne
  · intro h
    rcases h with ⟨c, hc, hne⟩ | hne
    · exact ⟨c, List.mem_append_left _ hc, hne⟩
    · exact ⟨_, List.mem_append_right _ (List.mem_singleton_self _), hne⟩

theorem Grows.commit (hevents : EventsOk s t σ allowed) : Grows s (s.commit t note σ) where
  nextId := Nat.le_refl _
  history := List.prefix_append _ _
  broker := List.prefix_refl _
  events := fun _ _ he => hevents.install_events he

theorem Advance.commit {u : Nat} (hinv : s.Inv allowed) (hσ : s.sessions t = some σ)
    (hclean : σ.Clean) (heffect : σ.Effect env allowed s t note) (hu : u ≠ t) :
    Advance u s (s.commit t note σ) := by
  have hok := hinv.session t σ hσ
  -- rows under a lock of another thread are not written
  have hdocument : forall i, s.locks (.document i) = some u -> σ.writes.documents i = none := by
    intro i hlock
    cases hx : σ.writes.documents i with
    | none => rfl
    | some x =>
        have := hok.documents.locked i x hx
        rw [hlock, Option.some.injEq] at this
        exact absurd this hu
  constructor
  · exact Grows.commit hok.events
  · intro r hr
    simp [State.commit, State.close, hr, hu]
  · intro i hlock
    exact Db.install_documents_of_none (hdocument i hlock)
  · intro i hlock
    apply Db.install_chunks_of_none
    cases hx : σ.writes.chunks i with
    | none => rfl
    | some cs =>
        have := hok.chunks i cs hx
        rw [hlock, Option.some.injEq] at this
        exact absurd this hu
  · intro i hlock
    apply Db.install_events_of_none
    cases hx : σ.writes.events i with
    | none => rfl
    | some e =>
        have := hok.events.locked i e hx
        rw [hlock, Option.some.injEq] at this
        exact absurd this hu
  · intro i hlock
    apply Db.install_knowledgeBases_of_none
    cases hx : σ.writes.knowledgeBases i with
    | none => rfl
    | some kb =>
        have := hok.knowledgeBases.locked i kb hx
        rw [hlock, Option.some.injEq] at this
        exact absurd this hu
  · intro i hlock hknown
    rcases State.known_commit.mp hknown with hold | hnew
    · exact hold
    · rw [Db.install_documents_of_none (hdocument i hlock)] at hnew
      rcases Option.ne_none_iff_exists'.mp hnew with ⟨d, hd⟩
      exact hinv.known i d hd
  · intro i d' hknown hd'
    rcases heffect.document_cases hok.documents hclean hd' with
      hold | ⟨event, -, hinserts⟩ | ⟨base, hbase, hstep⟩
    · exact ⟨d', hold, rfl⟩
    · exact absurd hknown (hok.documents.inserted i d' hinserts).1
    · exact ⟨base, hbase, hstep.identity.symm⟩
  · intro i d' hd' hlock
    rcases heffect.document_cases hok.documents hclean hd' with
      hold | ⟨event, -, hinserts⟩ | ⟨base, hbase, hstep⟩
    · exact ⟨d', hold, rfl⟩
    · rcases hok.documents.inserted i d' hinserts with ⟨-, -, -, -, -, -, howner, -⟩
      rw [hlock, Option.some.injEq] at howner
      exact absurd howner hu
    · exact ⟨base, hbase, hstep.identity.symm⟩
  · intro i e' he' hlock
    rcases hok.events.install_cases he' with hold | ⟨old, hold, -, hdelivery⟩ | henqueues
    · exact ⟨e', hold, rfl⟩
    · exact ⟨old, hold, hdelivery.identity.symm⟩
    · have howner := henqueues.2.2.2.2.2.1
      rw [hlock, Option.some.injEq] at howner
      exact absurd howner hu

/-!
# The database after a commit

Every version that a commit leaves in a document has its index event, and a row that it leaves
in `DELETING` was so before or has its removal requested.
-/

/-- Every version that a commit leaves in a document has its index event. -/
theorem Session.Effect.requestsIndex (hinv : s.Inv allowed) (hok : SessionOk s t σ allowed)
    (hclean : σ.Clean) (heffect : σ.Effect env allowed s t note) {i : Nat} {d' : Document}
    (hd' : (s.db.install σ.writes).documents i = some d') :
    (s.db.install σ.writes).RequestsIndex i d'.indexVersion := by
  have hgrows : Grows s (s.commit t note σ) := Grows.commit hok.events
  by_cases hretry : exists event, note = .documentRetried i event
  · rcases hretry with ⟨event, rfl⟩
    rcases heffect.retried hok.documents hclean with
      ⟨entry, profileId, base, now, -, -, hrow, e, he, hid⟩
    rw [hd', Option.some.injEq] at hrow
    rw [hrow, Document.write_retried_indexVersion]
    exact ⟨event, e, he, hid⟩
  · have hnot : forall event, note ≠ .documentRetried i event :=
      fun event h => hretry ⟨event, h⟩
    rcases heffect.document_cases hok.documents hclean hd' with
      hold | ⟨event, rfl, hinserts⟩ | ⟨base, hbase, hstep⟩
    · exact hgrows.requestsIndex (hinv.coherent.indexRequested i d' hold)
    · rcases hok.documents.inserted i d' hinserts with ⟨-, -, -, -, -, hversion, -⟩
      rcases heffect with ⟨-, -, -, -, -, -, e, he, hid⟩
      rw [hversion]
      exact ⟨event, e, he, hid⟩
    · rw [hstep.indexVersion hnot]
      exact hgrows.requestsIndex (hinv.coherent.indexRequested i base hbase)

theorem Document.Step.deleting {i : Nat} {base row : Document}
    (h : Document.Step note i base row) (hdeleting : row.status = .deleting) :
    base.status = .deleting ∨ (exists kb, note = .knowledgeBaseDeleted kb) ∨
      (exists event, note = .documentDeleteRequested i event) := by
  cases h with
  | knowledgeBaseDeleted loaded base now => exact .inr (.inl ⟨_, rfl⟩)
  | deleteRequested event loaded base now => exact .inr (.inr ⟨_, rfl⟩)
  | retried event profileId loaded base now =>
      left
      rcases writeColumn_cases loaded.status .pending base.status with ⟨-, hbase⟩ | ⟨-, hnew⟩
      · exact hbase.symm.trans hdeleting
      · exact absurd (hnew.symm.trans hdeleting) (by decide)
  | claimed base now hstatus =>
      simp [Document.write, Document.claimed, writeColumn_loaded] at hdeleting
  | indexed base text count now hstatus =>
      simp [Document.write, Document.indexed, writeColumn_loaded] at hdeleting
  | failed base status message now hstatus hready hnot =>
      simp only [Document.write, Document.failed, writeColumn_loaded] at hdeleting
      rcases hstatus with rfl | rfl <;> cases hdeleting
  | recovered base message time now hid hstatus =>
      simp [Document.write, Document.recovered, writeColumn_loaded] at hdeleting

theorem Session.Effect.requestsDelete (hinv : s.Inv allowed) (hok : SessionOk s t σ allowed)
    (hclean : σ.Clean) (heffect : σ.Effect env allowed s t note) {i : Nat} {d' : Document}
    (hd' : (s.db.install σ.writes).documents i = some d') (hdeleting : d'.status = .deleting) :
    (s.db.install σ.writes).RequestsDelete i := by
  have hgrows : Grows s (s.commit t note σ) := Grows.commit hok.events
  rcases heffect.document_cases hok.documents hclean hd' with
    hold | ⟨event, -, hinserts⟩ | ⟨base, hbase, hstep⟩
  · exact hgrows.requestsDelete (hinv.coherent.deleteRequested i d' hold hdeleting)
  · rcases hok.documents.inserted i d' hinserts with ⟨-, -, -, -, hstatus, -⟩
    rw [hdeleting] at hstatus
    cases hstatus
  · rcases hstep.deleting hdeleting with hold | ⟨kb, rfl⟩ | ⟨event, rfl⟩
    · exact hgrows.requestsDelete (hinv.coherent.deleteRequested i base hbase hold)
    · rcases heffect with ⟨-, -, -, hentries, hwrites, -⟩
      cases he : σ.documents i with
      | some e => exact (hentries i e he).2.2
      | none =>
          rw [Db.install_documents_of_none (hwrites i he)] at hd'
          exact hgrows.requestsDelete (hinv.coherent.deleteRequested i d' hd' hdeleting)
    · rcases heffect with ⟨-, -, -, -, e, he, hid⟩
      exact ⟨event, e, he, hid⟩

theorem Session.Effect.identity_cases (hok : SessionOk s t σ allowed)
    (hclean : σ.Clean) (heffect : σ.Effect env allowed s t note) {i : Nat} {d' : Document}
    (hd' : (s.db.install σ.writes).documents i = some d') :
    (exists d, s.db.documents i = some d ∧ d'.identity = d.identity) ∨ σ.Inserts i d' := by
  rcases heffect.document_cases hok.documents hclean hd' with
    hold | ⟨event, -, hinserts⟩ | ⟨base, hbase, hstep⟩
  · exact .inl ⟨d', hold, rfl⟩
  · exact .inr hinserts
  · exact .inl ⟨base, hbase, hstep.identity⟩

theorem OutboxEvent.deliver_id {old new : OutboxEvent} (h : s.Delivery allowed old new) :
    new.id = old.id := by
  rcases h with ⟨now, m, rfl, -, -⟩ | ⟨exc, cfg, -, rfl⟩ <;> rfl

theorem Session.Effect.coherent (hinv : s.Inv allowed) (hok : SessionOk s t σ allowed)
    (hclean : σ.Clean) (heffect : σ.Effect env allowed s t note) :
    (s.db.install σ.writes).Coherent s.nextId := by
  have hcoherent := hinv.coherent
  constructor
  · intro i d' hd'
    rcases heffect.identity_cases hok hclean hd' with ⟨d, hd, hid⟩ | hinserts
    · rcases hcoherent.document i d hd with ⟨hrow, hdeleted⟩
      exact ⟨(Document.id_of_identity hid).trans hrow,
        (Document.deleted_of_identity hid).trans hdeleted⟩
    · rcases hok.documents.inserted i d' hinserts with ⟨-, -, hrow, hdeleted, -⟩
      exact ⟨hrow, hdeleted⟩
  · intro i kb hkb
    cases hx : σ.writes.knowledgeBases i with
    | none =>
        rw [Db.install_knowledgeBases_of_none hx] at hkb
        exact hcoherent.knowledgeBase i kb hkb
    | some kb' =>
        rw [Db.install_knowledgeBases_of_some hx, Option.some.injEq] at hkb
        subst hkb
        exact hok.knowledgeBases.row i kb' hx
  · intro i e he
    rcases hok.events.install_cases he with hold | ⟨old, hold, -, hdelivery⟩ | henqueues
    · exact hcoherent.event i e hold
    · rcases hcoherent.event i old hold with ⟨hrow, hbound, hwf⟩
      exact ⟨(OutboxEvent.deliver_id hdelivery).trans hrow, hbound,
        hwf.of_identity hdelivery.identity⟩
    · have hwf := henqueues.2.2.2.1
      cases hx : σ.writes.events i with
      | none =>
          rw [Db.install_events_of_none hx, henqueues.1] at he
          cases he
      | some e' =>
          rw [Db.install_events_of_some hx, Option.some.injEq] at he
          subst he
          rcases hok.events.row i e' hx with ⟨hrow, hbound⟩
          exact ⟨hrow, hbound, hwf⟩
  · intro i d' hd'
    exact heffect.requestsIndex hinv hok hclean hd'
  · intro i d' hd' hdeleting
    exact heffect.requestsDelete hinv hok hclean hd' hdeleting
  · intro i j d d' hd hd' hkey
    rcases heffect.identity_cases hok hclean hd with ⟨d₀, hd₀, hid⟩ | hinserts <;>
      rcases heffect.identity_cases hok hclean hd' with ⟨d₀', hd₀', hid'⟩ | hinserts'
    · rw [Document.storageKey_of_identity hid, Document.storageKey_of_identity hid'] at hkey
      exact hcoherent.storageKeys i j d₀ d₀' hd₀ hd₀' hkey
    · rcases hok.documents.inserted j d' hinserts' with ⟨-, -, -, -, -, -, -, hfree⟩
      rw [Document.storageKey_of_identity hid] at hkey
      exact absurd hkey (hfree i d₀ hd₀)
    · rcases hok.documents.inserted i d hinserts with ⟨-, -, -, -, -, -, -, hfree⟩
      rw [Document.storageKey_of_identity hid'] at hkey
      exact absurd hkey.symm (hfree j d₀' hd₀')
    · exact hok.documents.single i j d d' hinserts hinserts'
  · intro i j e e' he he' hkey
    have hcases : forall {k : Nat} {x : OutboxEvent},
        (s.db.install σ.writes).events k = some x ->
        (exists old, s.db.events k = some old ∧ old.key = x.key) ∨
          (σ.writes.events k = some x ∧ Session.Enqueues s t σ k x) := by
      intro k x hx
      rcases hok.events.install_cases hx with hold | ⟨old, hold, -, hdelivery⟩ | henqueues
      · exact .inl ⟨x, hold, rfl⟩
      · exact .inl ⟨old, hold, (OutboxEvent.key_of_identity hdelivery.identity).symm⟩
      · cases hpending : σ.writes.events k with
        | none =>
            rw [Db.install_events_of_none hpending, henqueues.1] at hx
            cases hx
        | some x' =>
            rw [Db.install_events_of_some hpending] at hx
            exact .inr ⟨hx, henqueues⟩
    rcases hcases he with ⟨old, hold, hk⟩ | ⟨hpending, henqueues⟩ <;>
      rcases hcases he' with ⟨old', hold', hk'⟩ | ⟨hpending', henqueues'⟩
    · exact hcoherent.eventKeys i j old old' hold hold' (by rw [hk, hk', hkey])
    · exact absurd (hk.trans hkey) (henqueues'.2.2.2.2.2.2 i old hold)
    · exact absurd (hk'.trans hkey.symm) (henqueues.2.2.2.2.2.2 j old' hold')
    · exact hok.events.keys i j e e' hpending hpending' hkey

theorem markFailed_status (e : OutboxEvent) (exc : Exception) (maxAttempts : Nat) :
    (markFailed e exc maxAttempts).status = .failed ∨
      (markFailed e exc maxAttempts).status = .dead := by
  unfold markFailed
  split
  · exact .inr rfl
  · exact .inl rfl

theorem State.Inv.commit (hinv : s.Inv allowed) (hσ : s.sessions t = some σ)
    (hclean : σ.Clean) (heffect : σ.Effect env allowed s t note) :
    (s.commit t note σ).Inv allowed := by
  have hok := hinv.session t σ hσ
  have hgrows : Grows s (s.commit t note σ) := Grows.commit hok.events
  constructor
  · exact hinv.positive
  · exact heffect.coherent hinv hok hclean
  · intro i hknown
    rcases State.known_commit.mp hknown with hold | hnew
    · exact hinv.bounded i hold
    · rcases Option.ne_none_iff_exists'.mp hnew with ⟨d, hd⟩
      rcases heffect.identity_cases hok hclean hd with ⟨d₀, hd₀, -⟩ | hinserts
      · exact hinv.bounded i (hinv.known i d₀ hd₀)
      · exact (hok.documents.inserted i d hinserts).2.1
  · intro i d hd
    refine State.known_commit.mpr (.inr ?_)
    change (s.db.install σ.writes).documents i = some d at hd
    rw [hd]
    exact Option.some_ne_none d
  · intro i e he
    rcases hok.events.install_cases he with hold | ⟨old, hold, -, hdelivery⟩ | henqueues
    · exact hgrows.known (hinv.aggregate i e hold)
    · rw [OutboxEvent.aggregateId_of_identity hdelivery.identity]
      exact hgrows.known (hinv.aggregate i old hold)
    · rcases henqueues.2.2.2.2.1 with hknown | ⟨d, hinserts⟩
      · exact hgrows.known hknown
      · refine State.known_commit.mpr (.inr ?_)
        rw [Db.install_documents_of_some hinserts.2]
        exact Option.some_ne_none d
  · intro i e he hstatus
    rcases hok.events.install_cases he with hold | ⟨old, hold, -, hdelivery⟩ | henqueues
    · exact hinv.dispatched i e hold hstatus
    · rcases hdelivery with ⟨now, m, rfl, hmessage, hm⟩ | ⟨exc, cfg, -, rfl⟩
      · exact ⟨m, hm, hmessage⟩
      · rcases markFailed_status old exc cfg.outboxMaxDispatchAttempts with h | h <;>
          rw [hstatus] at h <;> cases h
    · have hpending := henqueues.2.1
      rw [hstatus] at hpending
      cases hpending
  · intro u τ hτ
    by_cases hu : u = t
    · subst u
      simp [State.commit, State.close] at hτ
    · have hold : s.sessions u = some τ := by
        simpa [State.commit, State.close, Function.update_of_ne hu] using hτ
      exact (hinv.session u τ hold).advance (Advance.commit hinv hσ hclean heffect hu)

end Commit

/-!
# Changes outside the committed database

The invariant only depends on the database, the history, the broker, keys and sessions.
-/

section Outside

variable {allowed : Settings -> Prop} {s s' : State} {t : Nat}

theorem State.Inv.of_db (hinv : s.Inv allowed) (hdb : s'.db = s.db)
    (hhistory : s'.history = s.history) (hnextId : s.nextId ≤ s'.nextId)
    (hbroker : s.broker <+: s'.broker)
    (hsession : forall u σ, s'.sessions u = some σ -> SessionOk s' u σ allowed) :
    s'.Inv allowed := by
  have hknown : forall i, s'.Known i ↔ s.Known i := by
    intro i
    simp only [State.Known, hhistory]
  constructor
  · exact Nat.lt_of_lt_of_le hinv.positive hnextId
  · rw [hdb]
    have h := hinv.coherent
    refine ⟨h.document, ?_, ?_, h.indexRequested, h.deleteRequested, h.storageKeys, h.eventKeys⟩
    · intro i kb hkb
      rcases h.knowledgeBase i kb hkb with ⟨hid, hpos, hbound⟩
      exact ⟨hid, hpos, Nat.lt_of_lt_of_le hbound hnextId⟩
    · intro i e he
      rcases h.event i e he with ⟨hid, hbound, hwf⟩
      exact ⟨hid, Nat.lt_of_lt_of_le hbound hnextId, hwf⟩
  · intro i hi
    exact Nat.lt_of_lt_of_le (hinv.bounded i ((hknown i).mp hi)) hnextId
  · intro i d hd
    rw [hdb] at hd
    exact (hknown i).mpr (hinv.known i d hd)
  · intro i e he
    rw [hdb] at he
    exact (hknown _).mpr (hinv.aggregate i e he)
  · intro i e he hstatus
    rw [hdb] at he
    rcases hinv.dispatched i e he hstatus with ⟨m, hm, hmessage⟩
    exact ⟨m, hbroker.subset hm, hmessage⟩
  · exact hsession

theorem State.Inv.close (hinv : s.Inv allowed) : (s.close t).Inv allowed := by
  refine hinv.of_db rfl rfl (Nat.le_refl _) (List.prefix_refl _) ?_
  intro u σ hσ
  by_cases hu : u = t
  · subst u
    simp [State.close] at hσ
  · have hold : s.sessions u = some σ := by
      simpa [State.close, Function.update_of_ne hu] using hσ
    exact (hinv.session u σ hold).advance (Advance.close hu)

theorem State.Inv.work {n : Nat} {rs : List Resource} {σ : Session} (hinv : s.Inv allowed)
    (hrs : forall r, r ∈ rs -> s.lockable t r = true) (hn : s.nextId ≤ n)
    (hok : SessionOk (s.work t rs n σ) t σ allowed) : (s.work t rs n σ).Inv allowed := by
  refine hinv.of_db rfl rfl hn (List.prefix_refl _) ?_
  intro u τ hτ
  by_cases hu : u = t
  · subst u
    simp only [State.work, State.setSession, Function.update_self, Option.some.injEq] at hτ
    subst hτ
    exact hok
  · have hold : s.sessions u = some τ := by
      simpa [State.work, State.setSession, State.acquire, Function.update_of_ne hu] using hτ
    exact (hinv.session u τ hold).advance (Advance.work hrs hn)

theorem State.Inv.outside (hinv : s.Inv allowed) (hdb : s'.db = s.db)
    (hhistory : s'.history = s.history) (hnextId : s'.nextId = s.nextId)
    (hbroker : s.broker <+: s'.broker) (hlocks : s'.locks = s.locks)
    (hsessions : s'.sessions = s.sessions) : s'.Inv allowed := by
  refine hinv.of_db hdb hhistory (Nat.le_of_eq hnextId.symm) hbroker ?_
  intro u σ hσ
  rw [hsessions] at hσ
  refine (hinv.session u σ hσ).advance
    (Advance.of_db hdb hhistory (Nat.le_of_eq hnextId.symm) hbroker ?_)
  intro r hr
  rw [hlocks, hr]

end Outside

end RagService
