import RagService.Properties.ChunkSets

/-!
# Retries

A retry moves its document to a higher index version and adds the event that asks for
it, as long as no other retry has committed between its read and its own commit.
-/

namespace RagService

open Interleaving Interleaving.Discipline OutboxService

/-- The commit of a retry moves its document to a higher version and adds its event. -/
def Commit.RetryAdvances (c : Commit) : Prop :=
  forall d event, c.note = .documentRetried d event -> exists base row e,
    c.before.documents d = some base ∧ c.after.documents d = some row ∧
      base.indexVersion < row.indexVersion ∧
      c.before.events event = none ∧ c.after.events event = some e ∧
      e.identity = (indexRequest d row.indexVersion).identity

def Note.retryEvent : Note -> Option Nat
  | .documentRetried _ event => some event
  | _ => none

def State.retryEvents (s : State) : List Nat :=
  s.history.filterMap fun c => c.note.retryEvent

/-!
# Requests never run ahead

No index event asks for a version that its document has not reached, so a retry of an
up-to-date row asks for a new one.
-/

def Db.RequestsReached (db : Db) : Prop :=
  forall d row v, db.documents d = some row -> db.RequestsIndex d v -> v ≤ row.indexVersion

theorem indexRequest_injective {d d' v v' : Nat}
    (h : (indexRequest d v).identity = (indexRequest d' v').identity) : d = d' ∧ v = v' := by
  simp only [OutboxEvent.identity, indexRequest, newEvent, Prod.mk.injEq, true_and] at h
  rcases h with ⟨rfl, -, hkey⟩
  exact ⟨rfl, indexDedupeKey_injective hkey⟩

theorem indexRequest_ne_deleteRequest {d d' v : Nat} :
    (indexRequest d v).identity ≠ (deleteRequest d').identity := by
  intro h
  exact indexDocumentEvent_ne_deleteDocumentEvent (congrArg Prod.fst h)

/-- The retry did not read the row before another retry that has committed. -/
def UpToDate (loaded base : Document) : Prop :=
  base.indexVersion ≤ loaded.indexVersion

instance (loaded base : Document) : Decidable (UpToDate loaded base) :=
  inferInstanceAs (Decidable (_ ≤ _))

section

variable {env : Env} {allowed : Settings -> Prop} {s : State} {t : Nat} {σ : Session}
variable {note : Note}

/-- An index event after a commit was there before, or the commit asks for it. -/
theorem Session.Effect.requestsIndex_cases (hok : SessionOk s t σ allowed)
    (heffect : σ.Effect env allowed s t note) {d v : Nat}
    (h : (s.db.install σ.writes).RequestsIndex d v) :
    s.db.RequestsIndex d v ∨ (exists event, note = .documentCreated d event ∧ v = 1) ∨
      (exists event loaded profileId, note = .documentRetried d event ∧
        σ.Focus d loaded (loaded.retried profileId) ∧ v = loaded.indexVersion + 1) := by
  rcases h with ⟨i, e, he, hid⟩
  cases hx : σ.writes.events i with
  | none =>
      rw [Db.install_events_of_none hx] at he
      exact .inl ⟨i, e, he, hid⟩
  | some e' =>
      rw [Db.install_events_of_some hx, Option.some.injEq] at he
      subst he
      cases hold : s.db.events i with
      | some old =>
          rcases hok.events.install_events hold with ⟨e'', he'', hidentity⟩
          rw [Db.install_events_of_some hx, Option.some.injEq] at he''
          subst he''
          exact .inl ⟨i, old, hold, hidentity.symm.trans hid⟩
      | none =>
          rcases heffect.new_event hx hold with
            hdelete | ⟨d', rfl, hnew⟩ | ⟨d', loaded, profileId, rfl, hfocus, hnew⟩
          · exact absurd (hid.symm.trans hdelete) indexRequest_ne_deleteRequest
          · rcases indexRequest_injective (hid.symm.trans hnew) with ⟨rfl, rfl⟩
            exact .inr (.inl ⟨i, rfl, rfl⟩)
          · rcases indexRequest_injective (hid.symm.trans hnew) with ⟨rfl, rfl⟩
            exact .inr (.inr ⟨i, loaded, profileId, rfl, hfocus, rfl⟩)

theorem State.Inv.known_of_requestsIndex (hinv : s.Inv allowed) {d v : Nat}
    (h : s.db.RequestsIndex d v) : s.Known d := by
  rcases h with ⟨i, e, he, hid⟩
  have haggregate := OutboxEvent.aggregateId_of_identity hid
  have hknown := hinv.aggregate i e he
  rw [haggregate] at hknown
  exact hknown

theorem Session.Effect.requestsReached (hinv : s.Inv allowed) (hσ : s.sessions t = some σ)
    (hclean : σ.Clean) (heffect : σ.Effect env allowed s t note)
    (hretry : forall d event e base, note = .documentRetried d event ->
      σ.documents d = some e -> s.db.documents d = some base -> UpToDate e.loaded base)
    (h : s.db.RequestsReached) : (s.db.install σ.writes).RequestsReached := by
  have hok := hinv.session t σ hσ
  intro d row v hrow hrequested
  by_cases hretried : exists event, note = .documentRetried d event
  · rcases hretried with ⟨event, rfl⟩
    rcases heffect.retried hok.documents hclean with ⟨e, profileId, base, now, he, hbase, hnew, -⟩
    rw [hrow, Option.some.injEq] at hnew
    rw [hnew, Document.write_retried_indexVersion]
    have hupToDate := hretry d event e base rfl he hbase
    rcases heffect.requestsIndex_cases hok hrequested with
      hold | ⟨event', hnote, -⟩ | ⟨event', loaded, profileId', -, hfocus, rfl⟩
    · exact Nat.le_succ_of_le (Nat.le_trans (h d base v hbase hold) hupToDate)
    · cases hnote
    · rcases hfocus.entry with ⟨flushed, hentry⟩
      rw [he, Option.some.injEq] at hentry
      rw [hentry]
  · have hnot : forall event, note ≠ .documentRetried d event :=
      fun event hnote => hretried ⟨event, hnote⟩
    rcases heffect.requestsIndex_cases hok hrequested with
      hold | ⟨event', rfl, rfl⟩ | ⟨event', loaded, profileId', hnote, -⟩
    · rcases heffect.document_cases hok.documents hclean hrow with
        hsame | ⟨event, -, hinserts⟩ | ⟨base, hbase, hstep⟩
      · exact h d row v hsame hold
      · exact absurd (hinv.known_of_requestsIndex hold)
          (hok.documents.inserted d row hinserts).1
      · rw [hstep.indexVersion hnot]
        exact h d base v hbase hold
    · rcases heffect.document_cases hok.documents hclean hrow with
        hsame | ⟨event, -, hinserts⟩ | ⟨base, hbase, hstep⟩
      · rcases heffect with ⟨hnone, ⟨row', hrow'⟩, -⟩
        exact absurd (hinv.known d row hsame)
          (hok.documents.inserted d row' ⟨hnone d, hrow'⟩).1
      · rw [(hok.documents.inserted d row hinserts).2.2.2.2.2.1]
      · cases hstep
    · exact absurd hnote (hnot event')

theorem Session.Effect.retryAdvances (hinv : s.Inv allowed) (hσ : s.sessions t = some σ)
    (hclean : σ.Clean) (heffect : σ.Effect env allowed s t note)
    (hretry : forall d event e base, note = .documentRetried d event ->
      σ.documents d = some e -> s.db.documents d = some base -> UpToDate e.loaded base)
    (h : s.db.RequestsReached) :
    Commit.RetryAdvances ⟨t, note, s.db, s.db.install σ.writes⟩ := by
  have hok := hinv.session t σ hσ
  intro d event heq
  subst heq
  rcases heffect.retried hok.documents hclean with
    ⟨entry, profileId, base, now, hentry, hbase, hrow, e, he, hid⟩
  have hupToDate := hretry d event entry base rfl hentry hbase
  refine ⟨base, _, e, hbase, hrow, ?_, ?_, he, ?_⟩
  · rw [Document.write_retried_indexVersion]
    exact Nat.lt_succ_of_le hupToDate
  · -- an event of that version would be one that the row has reached
    cases hold : s.db.events event with
    | none => rfl
    | some old =>
        rcases hok.events.install_events hold with ⟨e', he', hidentity⟩
        rw [he, Option.some.injEq] at he'
        subst he'
        have hreached := h d base _ hbase ⟨event, old, hold, hidentity.symm.trans hid⟩
        exact absurd (Nat.le_trans hreached hupToDate) (Nat.not_succ_le_self _)
  · rw [Document.write_retried_indexVersion]
    exact hid

end

/-!
# Whole runs

Every retry so far has advanced its document, with an event of its own.
-/

structure State.RetriesKept (s : State) : Prop where
  reached : s.db.RequestsReached
  advances : forall c, c ∈ s.history -> c.RetryAdvances
  present : forall event, event ∈ s.retryEvents -> s.db.events event ≠ none
  own : s.retryEvents.Nodup

theorem State.RetriesKept.commit {env : Env} {allowed : Settings -> Prop} {s : State} {t : Nat}
    {σ : Session} {note : Note} (h : s.RetriesKept) (hinv : s.Inv allowed)
    (hσ : s.sessions t = some σ) (hclean : σ.Clean) (heffect : σ.Effect env allowed s t note)
    (hretry : forall d event e base, note = .documentRetried d event ->
      σ.documents d = some e -> s.db.documents d = some base -> UpToDate e.loaded base) :
    (s.commit t note σ).RetriesKept := by
  have hadvances := heffect.retryAdvances hinv hσ hclean hretry h.reached
  have hevents : (s.commit t note σ).retryEvents = s.retryEvents ++ note.retryEvent.toList := by
    cases hnote : note.retryEvent <;>
      simp [State.retryEvents, State.commit, List.filterMap_append, hnote]
  -- a new event of a retry was not there before, and is after
  have hnew : forall event, event ∈ note.retryEvent.toList ->
      s.db.events event = none ∧ (s.db.install σ.writes).events event ≠ none := by
    intro event hevent
    cases note with
    | documentRetried d event' =>
        simp only [Note.retryEvent, Option.toList_some, List.mem_singleton] at hevent
        subst hevent
        rcases hadvances d event rfl with ⟨base, row, e, -, -, -, hnone, he, -⟩
        rw [he]
        exact ⟨hnone, Option.some_ne_none e⟩
    | _ => cases hevent
  constructor
  · exact heffect.requestsReached hinv hσ hclean hretry h.reached
  · intro c hc
    rcases List.mem_append.mp hc with hold | hlast
    · exact h.advances c hold
    · rw [List.mem_singleton] at hlast
      rw [hlast]
      exact hadvances
  · intro event hevent
    rw [hevents] at hevent
    rcases List.mem_append.mp hevent with hold | hlast
    · rcases Option.ne_none_iff_exists'.mp (h.present event hold) with ⟨e, he⟩
      rcases (hinv.session t σ hσ).events.install_events he with ⟨e', he', -⟩
      change (s.db.install σ.writes).events event ≠ none
      rw [he']
      exact Option.some_ne_none e'
    · exact (hnew event hlast).2
  · rw [hevents, List.nodup_append]
    refine ⟨h.own, ?_, ?_⟩
    · cases note.retryEvent <;> simp
    · intro event hold event' hlast heq
      subst heq
      exact h.present event hold (hnew event hlast).1

theorem retries_advance {env : Env} {last : RagConfig}
    (hrun : System.Reaches (system env) (retryRuns env (fun _ => True) UpToDate) initial last) :
    (forall c, c ∈ last.shared.history -> c.RetryAdvances) ∧ last.shared.retryEvents.Nodup := by
  have hkept : last.shared.RetriesKept := by
    refine commits_preserve (fun _ h => h) State.RetriesKept ?_ ?_ initial_sound ?_ hrun
    · intro s s' hdb hhistory h
      have hevents : s'.retryEvents = s.retryEvents := by
        rw [State.retryEvents, State.retryEvents, hhistory]
      refine ⟨?_, ?_, ?_, ?_⟩
      · rw [hdb]
        exact h.reached
      · rw [hhistory]
        exact h.advances
      · rw [hdb, hevents]
        exact h.present
      · rw [hevents]
        exact h.own
    · intro cfg t note now vectors σ hinv hσ hclean heffect hsteps h
      refine h.commit hinv hσ hclean heffect ?_
      intro d event e base heq he hbase
      subst heq
      exact retryMeets_commit hsteps hσ he hbase
    · constructor
      · intro d row v hrow
        cases hrow
      · intro c hc
        cases hc
      · intro event hevent
        cases hevent
      · exact List.nodup_nil
  exact ⟨hkept.advances, hkept.own⟩

/-!
# Sample runs
-/

/-- Two retries of an uploaded document, one after the other. -/
theorem retries_advance_twice : exists last : RagConfig,
    last.shared.retryEvents = [5, 6] ∧
      (forall c, c ∈ last.shared.history -> c.RetryAdvances) ∧ last.shared.retryEvents.Nodup := by
  rcases System.exists_reaches (retryRuns Sample.env (fun _ => True) UpToDate)
    initial (Sample.upload ++ Sample.retry 2 14 ++ Sample.retry 3 14)
    (fun last : RagConfig => last.shared.retryEvents = [5, 6]) (by decide +kernel) with
    ⟨last, hrun, hevents⟩
  exact ⟨last, hevents, retries_advance hrun⟩

/--
Two retries read version 1.  The second to commit finds the event of the first and
leaves the document at version 2, where it was.
-/
theorem retries_advance_fails : exists last : RagConfig,
    System.Reaches (system Sample.env) (system Sample.env).anyRun initial last ∧
      exists c, c ∈ last.shared.history ∧ ¬ c.RetryAdvances := by
  rcases System.exists_reaches (system Sample.env).anyRun initial
    (Sample.upload ++ Sample.retry 2 3 ++ Sample.retry 3 14 ++ Sample.go 2 8)
    (fun last : RagConfig => last.shared.history.any (fun c =>
      c.note = .documentRetried 3 5 ∧
        (c.before.documents 3).map Document.indexVersion =
          (c.after.documents 3).map Document.indexVersion) = true)
    (by decide +kernel) with ⟨last, hrun, hcommit⟩
  rcases List.any_eq_true.mp hcommit with ⟨c, hc, hcond⟩
  rcases of_decide_eq_true hcond with ⟨hnote, hversion⟩
  refine ⟨last, hrun, c, hc, fun h => ?_⟩
  rcases h 3 5 hnote with ⟨base, row, e, hbase, hrow, hlt, -⟩
  rw [hbase, hrow, Option.map_some, Option.map_some, Option.some.injEq] at hversion
  exact Nat.ne_of_lt hlt hversion

end RagService
