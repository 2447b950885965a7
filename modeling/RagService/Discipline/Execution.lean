import RagService.Discipline.Statements

/-!
# The discipline of the service

Each statement, under its guard, leaves a session that keeps the invariant; with
this the guards, the invariant and the frame form a rely-guarantee discipline.
-/

namespace RagService

open Interleaving OutboxService

/-!
# Sessions after a statement

Each statement leaves a session that is sound again; right after `begin` it is empty.
-/

namespace SessionOk

variable {allowed : Settings -> Prop} {s : State} {t : Nat} {σ : Session}

theorem empty : SessionOk s t {} allowed where
  documents := by
    constructor
    · intro i e he
      cases he
    · intro i e d he _
      cases he
    · intro i x hx
      cases hx
    · intro i e x he _
      cases he
    · intro i e he _
      cases he
    · intro i d hd
      cases hd.2
    · intro i j d d' hd _
      cases hd.2
    · intro i hi
      cases hi
  events := by
    constructor
    · intro i e he
      cases he
    · intro i e he
      cases he
    · intro i e he
      cases he
    · intro i j e e' he _ _
      cases he
  knowledgeBases := by
    constructor
    · intro i e he
      cases he
    · intro i kb hkb
      cases hkb
    · intro i kb hkb
      cases hkb
    · intro i e kb he _
      cases he
    · intro i e he _
      cases he
    · intro i kb _ hkb
      cases hkb
  chunks := by
    intro i cs hcs
    cases hcs

theorem load (h : SessionOk s t σ allowed) (hkeeps : σ.KeepsDocuments)
    {rows : List Document} {scanned : Option Nat}
    (hrows : forall d, d ∈ rows ->
      s.db.documents d.id = some d ∧ s.Known d.id ∧ d.deleted = 0) :
    SessionOk s t
      { σ with documents := loadEntries Document.id σ.documents rows, scanned := scanned }
      allowed where
  documents := h.documents.load hkeeps hrows rfl rfl
  events := by
    refine h.events.congr (fun i d hd => ?_) rfl
    rw [Session.Inserts, hkeeps i] at hd
    cases hd.2
  knowledgeBases := h.knowledgeBases.congr rfl rfl
  chunks := h.chunks

theorem loadKnowledgeBase (h : SessionOk s t σ allowed)
    (hkeeps : forall i, σ.writes.knowledgeBases i = none) {rows : List KnowledgeBase}
    (hrows : forall kb, kb ∈ rows -> 0 < kb.id ∧ kb.id < s.nextId) :
    SessionOk s t
      { σ with knowledgeBases := loadEntries KnowledgeBase.id σ.knowledgeBases rows }
      allowed where
  documents := h.documents.congr rfl rfl
  events := h.events.congr_session rfl rfl rfl
  knowledgeBases := h.knowledgeBases.load hkeeps hrows rfl rfl
  chunks := h.chunks

theorem assign (h : SessionOk s t σ allowed) {id : Nat} {e : Entry Document}
    {f : Document -> Document} (he : σ.documents id = some e)
    (hf : forall d, (f d).identity = d.identity) :
    SessionOk s t
      { σ with
        documents := Function.update σ.documents id (some { e with current := f e.current }) }
      allowed where
  documents := h.documents.assign he hf rfl rfl
  events := by
    refine h.events.congr (fun i d hd => .inr ⟨d, ?_, hd.2⟩) rfl
    have hi : i ≠ id := by
      intro heq
      subst heq
      have hnone := hd.1
      rw [he] at hnone
      cases hnone
    change Function.update σ.documents id _ i = none
    rw [Function.update_of_ne hi]
    exact hd.1
  knowledgeBases := h.knowledgeBases.congr rfl rfl
  chunks := h.chunks

theorem assignKnowledgeBase (h : SessionOk s t σ allowed) {id : Nat}
    {e : Entry KnowledgeBase} {f : KnowledgeBase -> KnowledgeBase}
    (he : σ.knowledgeBases id = some e) (hf : forall kb, (f kb).id = kb.id) :
    SessionOk s t
      { σ with
        knowledgeBases :=
          Function.update σ.knowledgeBases id (some { e with current := f e.current }) }
      allowed where
  documents := h.documents.congr rfl rfl
  events := h.events.congr_session rfl rfl rfl
  knowledgeBases := h.knowledgeBases.assign he hf rfl rfl
  chunks := h.chunks

theorem update (h : SessionOk s t σ allowed) {id now : Nat} {e : Entry Document}
    {base : Document} (he : σ.documents id = some e) (hbase : s.db.documents id = some base)
    (hlock : s.locks (.document id) = some t) :
    SessionOk s t
      { σ with
        documents := Function.update σ.documents id (some { e with flushed := e.current })
        writes :=
          { σ.writes with
            documents :=
              Function.update σ.writes.documents id
                (some (some (Document.write e.loaded e.current base now))) } }
      allowed where
  documents := h.documents.update he hbase hlock rfl rfl
  events := by
    refine h.events.congr (fun i d hd => .inr ⟨d, ?_⟩) rfl
    have hi : i ≠ id := by
      intro heq
      subst heq
      have hnone := hd.1
      rw [he] at hnone
      cases hnone
    constructor
    · change Function.update σ.documents id _ i = none
      rw [Function.update_of_ne hi]
      exact hd.1
    · change Function.update σ.writes.documents id _ i = some (some d)
      rw [Function.update_of_ne hi]
      exact hd.2
  knowledgeBases := h.knowledgeBases.congr rfl rfl
  chunks := h.chunks

theorem updateKnowledgeBase (h : SessionOk s t σ allowed) {id : Nat}
    {e : Entry KnowledgeBase} {base : KnowledgeBase}
    (he : σ.knowledgeBases id = some e) (hbase : s.db.knowledgeBases id = some base)
    (hid : base.id = id) (hlock : s.locks (.knowledgeBase id) = some t) :
    SessionOk s t
      { σ with
        knowledgeBases :=
          Function.update σ.knowledgeBases id (some { e with flushed := e.current })
        writes :=
          { σ.writes with
            knowledgeBases :=
              Function.update σ.writes.knowledgeBases id
                (some (KnowledgeBase.write e.loaded e.current base)) } }
      allowed where
  documents := h.documents.congr rfl rfl
  events := h.events.congr_session rfl rfl rfl
  knowledgeBases := h.knowledgeBases.update he hbase hid hlock rfl rfl
  chunks := h.chunks

theorem putEvent (h : SessionOk s t σ allowed) {id : Nat} {row : OutboxEvent}
    (hid : row.id = id) (hbound : id < s.nextId) (hlock : s.locks (.event id) = some t)
    (hkind : Session.Delivers s allowed id row ∨ Session.Enqueues s t σ id row)
    (hkeys : forall i e, i ≠ id -> σ.writes.events i = some e -> e.key ≠ row.key) :
    SessionOk s t
      { σ with
        writes :=
          { σ.writes with events := Function.update σ.writes.events id (some row) } }
      allowed where
  documents := h.documents.congr rfl rfl
  events := h.events.put hid hbound hlock hkind hkeys rfl rfl rfl
  knowledgeBases := h.knowledgeBases.congr rfl rfl
  chunks := h.chunks

theorem insertKnowledgeBase (h : SessionOk s t σ allowed) {id : Nat} {row : KnowledgeBase}
    (hnone : σ.knowledgeBases id = none) (hid : row.id = id) (hpos : 0 < id)
    (hbound : id < s.nextId) (hdeleted : row.deleted = 0)
    (hlock : s.locks (.knowledgeBase id) = some t) :
    SessionOk s t
      { σ with
        writes :=
          { σ.writes with
            knowledgeBases := Function.update σ.writes.knowledgeBases id (some row) } }
      allowed where
  documents := h.documents.congr rfl rfl
  events := h.events.congr_session rfl rfl rfl
  knowledgeBases := h.knowledgeBases.insert hnone hid hpos hbound hdeleted hlock rfl rfl
  chunks := h.chunks

theorem insertProfile (h : SessionOk s t σ allowed) {id : Nat} {row : IndexProfile} :
    SessionOk s t
      { σ with
        writes :=
          { σ.writes with profiles := Function.update σ.writes.profiles id (some row) } }
      allowed where
  documents := h.documents.congr rfl rfl
  events := h.events.congr_session rfl rfl rfl
  knowledgeBases := h.knowledgeBases.congr rfl rfl
  chunks := h.chunks

theorem insertDocument (h : SessionOk s t σ allowed) (hkeeps : σ.KeepsDocuments)
    {id : Nat} {row : Document}
    (hunknown : ¬ s.Known id) (hbound : id < s.nextId) (hid : row.id = id)
    (hdeleted : row.deleted = 0) (hstatus : row.status = .pending)
    (hversion : row.indexVersion = 1) (hlock : s.locks (.document id) = some t)
    (hkeylock : s.locks (.storageKey row.storageKey) = some t)
    (hkey : forall j d', s.db.documents j = some d' -> d'.storageKey ≠ row.storageKey) :
    SessionOk s t
      { σ with
        writes :=
          { σ.writes with
            documents := Function.update σ.writes.documents id (some (some row)) } }
      allowed where
  documents := h.documents.insert hkeeps hunknown hbound hid hdeleted hstatus hversion hlock
    hkeylock hkey rfl rfl
  events := by
    refine h.events.congr (fun i d hd => ?_) rfl
    rw [Session.Inserts, hkeeps i] at hd
    cases hd.2
  knowledgeBases := h.knowledgeBases.congr rfl rfl
  chunks := h.chunks

theorem remove (h : SessionOk s t σ allowed) {id : Nat} {base : Document}
    (hbase : s.db.documents id = some base) (hstatus : base.status = .deleting)
    (hknown : s.Known id) (hlock : s.locks (.document id) = some t) :
    SessionOk s t
      { σ with
        documents := Function.update σ.documents id none
        writes :=
          { σ.writes with
            documents := Function.update σ.writes.documents id (some none) } }
      allowed where
  documents := h.documents.remove hbase hstatus hlock rfl rfl
  events := by
    refine h.events.congr (fun i d hd => ?_) rfl
    by_cases hi : i = id
    · subst i
      exact .inl hknown
    · refine .inr ⟨d, ?_, ?_⟩
      · change Function.update σ.documents id none i = none
        rw [Function.update_of_ne hi]
        exact hd.1
      · change Function.update σ.writes.documents id (some none) i = some (some d)
        rw [Function.update_of_ne hi]
        exact hd.2
  knowledgeBases := h.knowledgeBases.congr rfl rfl
  chunks := h.chunks

theorem putChunks (h : SessionOk s t σ allowed) {id : Nat} {cs : List Chunk}
    (hlock : s.locks (.document id) = some t) :
    SessionOk s t
      { σ with
        writes :=
          { σ.writes with chunks := Function.update σ.writes.chunks id (some cs) } }
      allowed where
  documents := h.documents.congr rfl rfl
  events := h.events.congr_session rfl rfl rfl
  knowledgeBases := h.knowledgeBases.congr rfl rfl
  chunks := by
    intro i cs' hcs'
    by_cases hi : i = id
    · subst i
      exact hlock
    · change Function.update σ.writes.chunks id (some cs) i = some cs' at hcs'
      rw [Function.update_of_ne hi] at hcs'
      exact h.chunks i cs' hcs'

end SessionOk

/-!
# What a command does

What a command that goes through can do to the shared state: a statement under its guard keeps
the invariant of its transaction, whose locks and keys are taken from no one.
-/

section Exec

variable {env : Env} {allowed : Settings -> Prop} {s s' : State} {t : Nat} {σ : Session}

def Works (allowed : Settings -> Prop) (s : State) (t : Nat) (s' : State) : Prop :=
  exists rs n σ', (forall r, r ∈ rs -> s.lockable t r = true) ∧ s.nextId ≤ n ∧
    s' = s.work t rs n σ' ∧ SessionOk s' t σ' allowed

theorem State.Inv.session_work (hinv : s.Inv allowed) (hσ : s.sessions t = some σ)
    {rs : List Resource} {n : Nat} {τ : Session}
    (hrs : forall r, r ∈ rs -> s.lockable t r = true) (hn : s.nextId ≤ n) :
    SessionOk (s.work t rs n τ) t σ allowed :=
  (hinv.session t σ hσ).advance (Advance.work hrs hn)

theorem DocumentQuery.rows_ok (hinv : s.Inv allowed) (hkeeps : σ.KeepsDocuments)
    {q : DocumentQuery} {n : Nat} {d : Document}
    (hd : d ∈ q.rows (s.db.install σ.writes) n) :
    s.db.documents d.id = some d ∧ s.Known d.id ∧ d.deleted = 0 := by
  rcases DocumentQuery.rows_mem hd with ⟨i, hi⟩
  rw [Db.install_documents hkeeps] at hi
  rcases hinv.coherent.document i d hi with ⟨hid, hdeleted⟩
  rw [hid]
  exact ⟨hi, hinv.known i d hi, hdeleted⟩

theorem SessionOk.place (hinv : s.Inv allowed) (hσ : s.sessions t = some σ) {row : NewRow}
    {now : Nat} (hguard : Command.Ok env allowed s t σ (.insert row)) {s₁ : State}
    (hs₁ : s₁ = s.work t [row.uniqueKey, row.resource s.nextId] (s.nextId + 1)
      { σ with writes := row.place s.nextId now σ.writes })
    (hfree : (s.db.install σ.writes).hasKey s.nextId row.uniqueKey = false)
    (hok : SessionOk s₁ t σ allowed) :
    SessionOk s₁ t { σ with writes := row.place s.nextId now σ.writes } allowed := by
  have hold := hinv.session t σ hσ
  have hkeylock : s₁.locks row.uniqueKey = some t := by
    rw [hs₁]
    exact State.work_lock (by simp)
  have hrowlock : s₁.locks (row.resource s.nextId) = some t := by
    rw [hs₁]
    exact State.work_lock (by simp)
  have hbound : s.nextId < s₁.nextId := by
    rw [hs₁]
    exact Nat.lt_succ_self _
  have hdb : s₁.db = s.db := by
    rw [hs₁]
    rfl
  have hknown : forall i, s₁.Known i ↔ s.Known i := by
    intro i
    rw [hs₁]
    rfl
  cases row with
  | knowledgeBase row =>
      refine hok.insertKnowledgeBase ?_ rfl hinv.positive hbound hguard hrowlock
      cases he : σ.knowledgeBases s.nextId with
      | none => rfl
      | some e => exact absurd (hold.knowledgeBases.entry _ e he).2.2.2.2 (Nat.lt_irrefl _)
  | profile row => exact hok.insertProfile
  | document row =>
      rcases hguard with ⟨hkeeps, hdeleted, hstatus, hversion⟩
      refine hok.insertDocument hkeeps (fun hnew => ?_) hbound rfl hdeleted
        hstatus hversion hrowlock hkeylock ?_
      · exact absurd (hinv.bounded _ ((hknown _).mp hnew)) (Nat.lt_irrefl _)
      · intro j d' hd'
        rw [hdb] at hd'
        refine Db.hasKey_storageKey hfree (hinv.bounded j (hinv.known j d' hd')) ?_
        rw [Db.install_documents hkeeps]
        exact hd'
  | event row =>
      rcases hguard with ⟨hstatus, hattempts, hwf, haggregate⟩
      refine hok.putEvent rfl hbound hrowlock (.inr ?_) ?_
      · refine ⟨?_, hstatus, hattempts, hwf.of_identity rfl, ?_, hkeylock, ?_⟩
        · rw [hdb]
          cases he : s.db.events s.nextId with
          | none => rfl
          | some e => exact absurd (hinv.coherent.event _ e he).2.1 (Nat.lt_irrefl _)
        · exact haggregate.imp_left (hknown _).mpr
        · intro j e' he'
          rw [hdb] at he'
          exact hold.events.committed_key_ne hinv.coherent row hfree j e' he'
      · intro i e _ he
        exact hold.events.key_ne row hfree i e he

/-- A statement under its guard keeps the invariant of its transaction. -/
theorem Session.Step.ok (hinv : s.Inv allowed) (hσ : s.sessions t = some σ) {c : Command}
    {rs : List Resource} {n : Nat} {σ' : Session}
    (hguard : Command.Ok env allowed s t σ c) (h : Session.Step s t σ c rs n σ') :
    SessionOk (s.work t rs n σ') t σ' allowed := by
  have hids : forall i d, s.db.documents i = some d -> d.id = i :=
    fun i d hd => (hinv.coherent.document i d hd).1
  rcases h.lockable hids with ⟨hrs, hn⟩
  have hok : SessionOk (s.work t rs n σ') t σ allowed := hinv.session_work hσ hrs hn
  have hkept : forall r, s.locks r = some t -> (s.work t rs n σ').locks r = some t :=
    (Advance.work hrs hn).locks
  cases h with
  | loadKnowledgeBase pk userId isAdmin write =>
      refine hok.loadKnowledgeBase hguard fun kb hkb => ?_
      rw [Option.mem_toList, Db.getAuthorized, Option.filter_eq_some_iff,
        Db.install_knowledgeBases_of_none (hguard pk)] at hkb
      rcases hinv.coherent.knowledgeBase pk kb hkb.1 with ⟨rfl, hpos, hbound⟩
      exact ⟨hpos, hbound⟩
  | load q => exact hok.load hguard fun d hd => DocumentQuery.rows_ok hinv hguard hd
  | lock q rows hrows =>
      refine hok.load hguard fun d hd => ?_
      have hcommitted := (LockQuery.rows_mem hrows hids hd).1
      exact ⟨hcommitted, hinv.known _ d hcommitted, (hinv.coherent.document _ d hcommitted).2⟩
  | lockEvents limit => exact hok
  | assign id f e he => exact hok.assign he hguard
  | assignKnowledgeBase id f e he => exact hok.assignKnowledgeBase he hguard
  | update id now e base he hbase hlock =>
      exact hok.update he hbase (State.work_lock (List.mem_singleton_self _))
  | updateKnowledgeBase id e base locks he hbase hlocks hrow =>
      exact hok.updateKnowledgeBase he hbase (hinv.coherent.knowledgeBase id base hbase).1
        (State.work_lock hrow)
  | updateEvent row hlock =>
      rcases hguard with ⟨howner, old, hold, hstatus, hdelivery⟩
      have hevent := hinv.coherent.event _ old hold
      refine hok.putEvent rfl hevent.2.1 (State.work_lock (List.mem_singleton_self _))
        (.inl ⟨old, hold, hstatus, hdelivery⟩) fun i e hi he hkey => ?_
      -- another pending row with this key is a new one, but the key is taken
      rcases (hinv.session t σ hσ).events.kind i e he with
        ⟨old', hold', -, hdelivery'⟩ | henqueues
      · refine hi (hinv.coherent.eventKeys i row.id old' old hold' hold ?_)
        rw [← OutboxEvent.key_of_identity hdelivery'.identity, hkey,
          OutboxEvent.key_of_identity hdelivery.identity]
      · refine henqueues.2.2.2.2.2.2 row.id old hold ?_
        rw [hkey, OutboxEvent.key_of_identity hdelivery.identity]
  | insert row now hkey hlock hfree => exact SessionOk.place hinv hσ hguard rfl hfree hok
  | remove id base hbase hlock hkey =>
      rcases hguard with ⟨howner, base', hbase', hstatus⟩
      exact hok.remove hbase' hstatus (hinv.known id base' hbase') (State.work_lock (by simp))
  | deleteChunks documentId => exact hok.putChunks (hkept _ hguard)
  | insertChunks documentId rows => exact hok.putChunks (hkept _ hguard)

/-- What a command that goes through can do to the shared state. -/
theorem exec_cases (hinv : s.Inv allowed) {c : Command} {ch : Choice}
    {r : Except Exception c.Result} (hguard : guard env allowed s t c ch)
    (h : exec t c ch s = some (s', r)) :
    s' = s ∨
      (exists note σ, c = .commit note ∧ s.sessions t = some σ ∧ σ.Clean ∧
        σ.Effect env allowed s t note ∧ s' = s.commit t note σ) ∨
      (c = .rollback ∧ s' = s.close t) ∨
      (s'.db = s.db ∧ s'.history = s.history ∧ s'.nextId = s.nextId ∧
        (s'.broker = s.broker ∨ exists m, c = .send m ∧ s'.broker = s.broker ++ [m]) ∧
        s'.locks = s.locks ∧ s'.sessions = s.sessions) ∨
      Works allowed s t s' := by
  cases ch with
  | fail e =>
      cases c <;> cases h <;> exact .inl rfl
  | proceed now vectors =>
      cases exec_step h with
      | nothing => exact .inl rfl
      | begin hnone =>
          refine .inr (.inr (.inr (.inr ⟨[], s.nextId, {}, by simp, Nat.le_refl _, rfl, ?_⟩)))
          exact SessionOk.empty
      | commit note σ hσ =>
          rcases hguard.2 σ hσ with ⟨hclean, heffect⟩
          exact .inr (.inl ⟨note, σ, rfl, hσ, hclean, heffect, rfl⟩)
      | rollback => exact .inr (.inr (.inl ⟨rfl, rfl⟩))
      | statement σ rs n σ' hσ hstep =>
          rcases hstep.lockable fun i d hd => (hinv.coherent.document i d hd).1 with ⟨hrs, hn⟩
          exact .inr (.inr (.inr (.inr ⟨rs, n, σ', hrs, hn, rfl,
            hstep.ok hinv hσ (hguard.2 σ hσ)⟩)))
      | putObject key content | deleteObject key =>
          exact .inr (.inr (.inr (.inl ⟨rfl, rfl, rfl, .inl rfl, rfl, rfl⟩)))
      | send m =>
          exact .inr (.inr (.inr (.inl ⟨rfl, rfl, rfl, .inr ⟨m, rfl, rfl⟩, rfl, rfl⟩)))

theorem broker_grows {c : Command}
    (h : s'.broker = s.broker ∨ exists m, c = .send m ∧ s'.broker = s.broker ++ [m]) :
    s.broker <+: s'.broker := by
  rcases h with h | ⟨m, -, h⟩
  · exact h ▸ List.prefix_refl _
  · exact h ▸ List.prefix_append _ _

/-!
# The discipline

The frame of a thread says that its session and its own commits are its own.  Every command
only adds to the history, the broker and the events.
-/

theorem exec_inv (hinv : s.Inv allowed) {c : Command} {ch : Choice}
    {r : Except Exception c.Result} (hguard : guard env allowed s t c ch)
    (h : exec t c ch s = some (s', r)) : s'.Inv allowed := by
  rcases exec_cases hinv hguard h with
    rfl | ⟨note, σ, -, hσ, hclean, heffect, rfl⟩ | ⟨-, rfl⟩ |
    ⟨hdb, hhistory, hnextId, hbroker, hlocks, hsessions⟩ | ⟨rs, n, σ', hrs, hn, rfl, hok⟩
  · exact hinv
  · exact hinv.commit hσ hclean heffect
  · exact hinv.close
  · exact hinv.outside hdb hhistory hnextId (broker_grows hbroker) hlocks hsessions
  · exact hinv.work hrs hn hok

/-- What a thread relies on: also its session and its own commits are its own. -/
structure Frame (t : Nat) (s s' : State) : Prop extends Advance t s s' where
  session : s'.sessions t = s.sessions t
  notes : s'.notes t = s.notes t

theorem Frame.refl (t : Nat) (s : State) : Frame t s s :=
  ⟨Advance.refl t s, rfl, rfl⟩

theorem Frame.trans {s₁ s₂ s₃ : State} (h : Frame t s₁ s₂) (h' : Frame t s₂ s₃) :
    Frame t s₁ s₃ :=
  ⟨h.toAdvance.trans h'.toAdvance, h'.session.trans h.session, h'.notes.trans h.notes⟩

theorem State.notes_congr {u : Nat} (h : s'.history = s.history) : s'.notes u = s.notes u := by
  rw [State.notes, State.notes, h]

theorem State.notes_commit_other {u : Nat} {note : Note} (hu : u ≠ t) :
    (s.commit t note σ).notes u = s.notes u := by
  simp [State.notes, State.commit, List.filter_append, Ne.symm hu]

theorem State.notes_commit_self {note : Note} :
    (s.commit t note σ).notes t = s.notes t ++ [note] := by
  simp [State.notes, State.commit, List.filter_append]

theorem State.close_session_other {u : Nat} (hu : u ≠ t) :
    (s.close t).sessions u = s.sessions u := by
  simp [State.close, Function.update_of_ne hu]

theorem exec_frame (hinv : s.Inv allowed) {c : Command} {ch : Choice}
    {r : Except Exception c.Result} (hguard : guard env allowed s t c ch)
    (h : exec t c ch s = some (s', r)) {u : Nat} (hu : u ≠ t) : Frame u s s' := by
  rcases exec_cases hinv hguard h with
    rfl | ⟨note, σ, -, hσ, hclean, heffect, rfl⟩ | ⟨-, rfl⟩ |
    ⟨hdb, hhistory, hnextId, hbroker, hlocks, hsessions⟩ | ⟨rs, n, σ', hrs, hn, rfl, hok⟩
  · exact Frame.refl u _
  · exact ⟨Advance.commit hinv hσ hclean heffect hu, State.close_session_other hu,
      State.notes_commit_other hu⟩
  · exact ⟨Advance.close hu, State.close_session_other hu, State.notes_congr rfl⟩
  · refine ⟨Advance.of_db hdb hhistory (Nat.le_of_eq hnextId.symm) (broker_grows hbroker) ?_,
      congrFun hsessions u, State.notes_congr hhistory⟩
    intro r hr
    rw [hlocks, hr]
  · refine ⟨Advance.work hrs hn, ?_, State.notes_congr rfl⟩
    simp [State.work, State.setSession, State.acquire, Function.update_of_ne hu]

theorem exec_advance (hinv : s.Inv allowed) {c : Command} {ch : Choice}
    {r : Except Exception c.Result} (hguard : guard env allowed s t c ch)
    (hcommit : forall note, c ≠ .commit note) (hrollback : c ≠ .rollback)
    (h : exec t c ch s = some (s', r)) : Advance t s s' ∧ s'.notes t = s.notes t := by
  rcases exec_cases hinv hguard h with
    rfl | ⟨note, σ, hc, -⟩ | ⟨hc, -⟩ |
    ⟨hdb, hhistory, hnextId, hbroker, hlocks, hsessions⟩ | ⟨rs, n, σ', hrs, hn, rfl, hok⟩
  · exact ⟨Advance.refl t _, rfl⟩
  · exact absurd hc (hcommit note)
  · exact absurd hc hrollback
  · refine ⟨Advance.of_db hdb hhistory (Nat.le_of_eq hnextId.symm) (broker_grows hbroker) ?_,
      State.notes_congr hhistory⟩
    intro r hr
    rw [hlocks, hr]
  · exact ⟨Advance.work hrs hn, State.notes_congr rfl⟩

theorem exec_grows (hinv : s.Inv allowed) {c : Command} {ch : Choice}
    {r : Except Exception c.Result} (hguard : guard env allowed s t c ch)
    (h : exec t c ch s = some (s', r)) : Grows s s' :=
  (exec_frame hinv hguard h (Nat.succ_ne_self t)).toGrows

def discipline (env : Env) (allowed : Settings -> Prop) : Discipline machine where
  inv := State.Inv allowed
  frame := Frame
  guard := fun t c ch s => guard env allowed s t c ch
  fresh := fun t s => s.sessions t = none ∧ s.notes t = []
  frame_refl := Frame.refl
  frame_trans := Frame.trans
  fresh_frame := fun hfresh hframe =>
    ⟨hframe.session.trans hfresh.1, hframe.notes.trans hfresh.2⟩
  exec_inv := fun hinv hguard h => exec_inv hinv hguard h
  exec_frame := fun hinv hguard h hu => exec_frame hinv hguard h hu
  crash_inv := fun hinv => hinv.close
  crash_frame := fun _ hu =>
    ⟨Advance.close hu, State.close_session_other hu, State.notes_congr rfl⟩

end Exec

end RagService
