import RagService.Discipline.Guard

/-!
# Statements keep the invariant of their transaction

One lemma for each way a statement changes a session, table by table.
-/

namespace RagService

open Interleaving OutboxService

/-!
# Reading tables
-/

theorem mem_scan {ρ : Type} {table : Nat -> Option ρ} {n : Nat} {row : ρ} :
    row ∈ scan table n ↔ exists i, i < n ∧ table i = some row := by
  simp [scan, List.mem_filterMap]

theorem loadEntries_cases {ρ : Type} {key : ρ -> Nat} {entries : Nat -> Option (Entry ρ)}
    {rows : List ρ} {i : Nat} {e : Entry ρ} (h : loadEntries key entries rows i = some e) :
    entries i = some e ∨
      (entries i = none ∧ exists row, row ∈ rows ∧ key row = i ∧ e = Entry.fresh row) := by
  unfold loadEntries at h
  cases hi : entries i with
  | some e' =>
      rw [hi, Option.some_or] at h
      exact .inl h
  | none =>
      rw [hi, Option.none_or] at h
      rcases Option.map_eq_some_iff.mp h with ⟨row, hrow, he⟩
      refine .inr ⟨rfl, row, List.mem_of_find?_eq_some hrow, ?_, he.symm⟩
      simpa using List.find?_some hrow

theorem Db.hasKey_storageKey {db : Db} {n i : Nat} {d : Document} {key : Text}
    (h : db.hasKey n (.storageKey key) = false) (hi : i < n) (hd : db.documents i = some d) :
    d.storageKey ≠ key := by
  simp only [Db.hasKey, List.any_eq_false] at h
  simpa using h d (mem_scan.mpr ⟨i, hi, hd⟩)

theorem Db.hasKey_eventKey {db : Db} {n i : Nat} {e e' : OutboxEvent}
    (h : db.hasKey n e.key = false) (hi : i < n) (he' : db.events i = some e') :
    e'.key ≠ e.key := by
  simp only [OutboxEvent.key, Db.hasKey, List.any_eq_false] at h
  have h' := h e' (mem_scan.mpr ⟨i, hi, he'⟩)
  intro heq
  simp only [OutboxEvent.key, Resource.eventKey.injEq] at heq
  simp [heq] at h'

/-!
# The rows of queries

The rows of a plain query are rows of the table as the transaction sees it.  Those of a locking
query are committed, and no other transaction holds their locks.
-/

section Install

variable {db : Db} {w : Writes}

theorem Db.install_documents_of_none {i : Nat} (h : w.documents i = none) :
    (db.install w).documents i = db.documents i := by
  simp [Db.install, h]

theorem Db.install_documents_of_some {i : Nat} {x : Option Document}
    (h : w.documents i = some x) : (db.install w).documents i = x := by
  simp [Db.install, h]

theorem Db.install_events_of_none {i : Nat} (h : w.events i = none) :
    (db.install w).events i = db.events i := by
  simp [Db.install, h]

theorem Db.install_events_of_some {i : Nat} {e : OutboxEvent} (h : w.events i = some e) :
    (db.install w).events i = some e := by
  simp [Db.install, h]

theorem Db.install_knowledgeBases_of_none {i : Nat} (h : w.knowledgeBases i = none) :
    (db.install w).knowledgeBases i = db.knowledgeBases i := by
  simp [Db.install, h]

theorem Db.install_knowledgeBases_of_some {i : Nat} {kb : KnowledgeBase}
    (h : w.knowledgeBases i = some kb) : (db.install w).knowledgeBases i = some kb := by
  simp [Db.install, h]

theorem Db.install_chunks_of_none {i : Nat} (h : w.chunks i = none) :
    (db.install w).chunks i = db.chunks i := by
  simp [Db.install, h]

theorem Db.install_chunks_of_some {i : Nat} {cs : List Chunk} (h : w.chunks i = some cs) :
    (db.install w).chunks i = cs := by
  simp [Db.install, h]

theorem Db.install_documents {σ : Session} (h : σ.KeepsDocuments) :
    (db.install σ.writes).documents = db.documents := by
  funext i
  exact Db.install_documents_of_none (h i)

end Install

theorem DocumentQuery.rows_mem {db : Db} {n : Nat} {q : DocumentQuery} {d : Document}
    (h : d ∈ q.rows db n) : exists i, db.documents i = some d := by
  cases q with
  | inKb pk knowledgeBaseId =>
      simp only [DocumentQuery.rows, Option.mem_toList, Option.filter_eq_some_iff] at h
      exact ⟨pk, h.1⟩
  | ofKb knowledgeBaseId =>
      simp only [DocumentQuery.rows, List.mem_filter, mem_scan] at h
      rcases h with ⟨⟨i, -, hd⟩, -⟩
      exact ⟨i, hd⟩

theorem LockQuery.rows_mem {s : State} {t : Nat} {q : LockQuery} {rows : List Document}
    {d : Document} (hrows : q.rows s t = some rows)
    (hids : forall i d, s.db.documents i = some d -> d.id = i) (h : d ∈ rows) :
    s.db.documents d.id = some d ∧ s.lockable t (.document d.id) = true := by
  cases q with
  | live pk =>
      simp only [LockQuery.rows] at hrows
      split at hrows
      · cases hrows
        cases h
      · rename_i row hrow
        split at hrows
        · rename_i hlock
          cases hrows
          rw [List.mem_singleton] at h
          subst h
          have hcommitted := (Option.filter_eq_some_iff.mp hrow).1
          have hid := hids pk d hcommitted
          subst hid
          exact ⟨hcommitted, hlock⟩
        · cases hrows
  | stale before limit =>
      simp only [LockQuery.rows, Option.some.injEq] at hrows
      subst hrows
      have hmem := List.mem_of_mem_take h
      rw [List.mem_insertionSort, List.mem_filter, mem_scan] at hmem
      rcases hmem with ⟨⟨i, -, hd⟩, hcond⟩
      have hid := hids i d hd
      subst hid
      simp only [decide_eq_true_eq] at hcond
      exact ⟨hd, hcond.2.2.2⟩

/-!
# Documents

Committed rows enter the identity map of a session that has written no document, and the flush
of one document writes its changed columns over the committed row.
-/

section Documents

variable {s : State} {t : Nat} {σ σ' : Session}

theorem DocumentsOk.congr (h : DocumentsOk s t σ) (hdocuments : σ'.documents = σ.documents)
    (hwrites : σ'.writes.documents = σ.writes.documents) : DocumentsOk s t σ' := by
  have hinserts : forall i d, σ'.Inserts i d ↔ σ.Inserts i d := by
    intro i d
    simp only [Session.Inserts, hdocuments, hwrites]
  constructor
  · rw [hdocuments]
    exact h.entry
  · rw [hdocuments]
    exact h.committed
  · rw [hwrites]
    exact h.locked
  · rw [hdocuments, hwrites]
    exact h.updated
  · rw [hdocuments, hwrites]
    exact h.written
  · intro i d hd
    exact h.inserted i d ((hinserts i d).mp hd)
  · intro i j d d' hd hd'
    exact h.single i j d d' ((hinserts i d).mp hd) ((hinserts j d').mp hd')
  · rw [hwrites]
    exact h.removed

theorem DocumentsOk.load (h : DocumentsOk s t σ) (hkeeps : σ.KeepsDocuments)
    {rows : List Document}
    (hrows : forall d, d ∈ rows ->
      s.db.documents d.id = some d ∧ s.Known d.id ∧ d.deleted = 0)
    (hdocuments : σ'.documents = loadEntries Document.id σ.documents rows)
    (hwrites : σ'.writes.documents = σ.writes.documents) : DocumentsOk s t σ' := by
  have hnone : forall i, σ'.writes.documents i = none := by
    rw [hwrites]
    exact hkeeps
  constructor
  · intro i e he
    rw [hdocuments] at he
    rcases loadEntries_cases he with hold | ⟨-, row, hrow, hkey, hfresh⟩
    · exact h.entry i e hold
    · rcases hrows row hrow with ⟨-, hknown, hdeleted⟩
      subst hkey hfresh
      exact ⟨hknown, rfl, hdeleted, rfl, rfl⟩
  · intro i e d he hd
    rw [hdocuments] at he
    rcases loadEntries_cases he with hold | ⟨-, row, hrow, hkey, hfresh⟩
    · exact h.committed i e d hold hd
    · rcases hrows row hrow with ⟨hcommitted, -, -⟩
      subst hkey hfresh
      rw [hcommitted, Option.some.injEq] at hd
      rw [← hd]
      rfl
  · intro i x hx
    rw [hnone i] at hx
    cases hx
  · intro i e x _ hx
    rw [hnone i] at hx
    cases hx
  · intro i e he hne
    rw [hdocuments] at he
    rcases loadEntries_cases he with hold | ⟨-, row, -, -, hfresh⟩
    · exact absurd (hkeeps i) (h.written i e hold hne)
    · subst hfresh
      exact absurd rfl hne
  · intro i d hd
    rw [Session.Inserts, hnone i] at hd
    cases hd.2
  · intro i j d d' hd _
    rw [Session.Inserts, hnone i] at hd
    cases hd.2
  · intro i hi
    rw [hnone i] at hi
    cases hi

theorem DocumentsOk.assign (h : DocumentsOk s t σ) {id : Nat} {e : Entry Document}
    {f : Document -> Document} (he : σ.documents id = some e)
    (hf : forall d, (f d).identity = d.identity)
    (hdocuments : σ'.documents =
      Function.update σ.documents id (some { e with current := f e.current }))
    (hwrites : σ'.writes.documents = σ.writes.documents) : DocumentsOk s t σ' := by
  -- every entry keeps its loaded and its flushed row
  have hentry : forall i e', σ'.documents i = some e' ->
      exists e₀, σ.documents i = some e₀ ∧ e'.loaded = e₀.loaded ∧ e'.flushed = e₀.flushed ∧
        e'.current.identity = e₀.current.identity := by
    intro i e' he'
    rw [hdocuments] at he'
    by_cases hi : i = id
    · subst i
      rw [Function.update_self, Option.some.injEq] at he'
      subst he'
      exact ⟨e, he, rfl, rfl, hf _⟩
    · rw [Function.update_of_ne hi] at he'
      exact ⟨e', he', rfl, rfl, rfl⟩
  have hinserts : forall i d, σ'.Inserts i d -> σ.Inserts i d := by
    intro i d hd
    rw [Session.Inserts, hdocuments, hwrites] at hd
    by_cases hi : i = id
    · subst i
      simp at hd
    · rw [Function.update_of_ne hi] at hd
      exact hd
  constructor
  · intro i e' he'
    rcases hentry i e' he' with ⟨e₀, he₀, hloaded, hflushed, hcurrent⟩
    rw [hloaded, hflushed, hcurrent]
    exact h.entry i e₀ he₀
  · intro i e' d he' hd
    rcases hentry i e' he' with ⟨e₀, he₀, hloaded, -, -⟩
    rw [hloaded]
    exact h.committed i e₀ d he₀ hd
  · rw [hwrites]
    exact h.locked
  · intro i e' x he' hx
    rcases hentry i e' he' with ⟨e₀, he₀, hloaded, hflushed, -⟩
    rw [hwrites] at hx
    rw [hloaded, hflushed]
    exact h.updated i e₀ x he₀ hx
  · intro i e' he' hne
    rcases hentry i e' he' with ⟨e₀, he₀, hloaded, hflushed, -⟩
    rw [hwrites]
    rw [hloaded, hflushed] at hne
    exact h.written i e₀ he₀ hne
  · intro i d hd
    exact h.inserted i d (hinserts i d hd)
  · intro i j d d' hd hd'
    exact h.single i j d d' (hinserts i d hd) (hinserts j d' hd')
  · rw [hwrites]
    exact h.removed

theorem DocumentsOk.update (h : DocumentsOk s t σ) {id now : Nat} {e : Entry Document}
    {base : Document} (he : σ.documents id = some e)
    (hbase : s.db.documents id = some base) (hlock : s.locks (.document id) = some t)
    (hdocuments : σ'.documents =
      Function.update σ.documents id (some { e with flushed := e.current }))
    (hwrites : σ'.writes.documents =
      Function.update σ.writes.documents id
        (some (some (Document.write e.loaded e.current base now)))) :
    DocumentsOk s t σ' := by
  have hinserts : forall i d, σ'.Inserts i d -> σ.Inserts i d := by
    intro i d hd
    rw [Session.Inserts, hdocuments, hwrites] at hd
    by_cases hi : i = id
    · subst i
      simp at hd
    · rw [Function.update_of_ne hi, Function.update_of_ne hi] at hd
      exact hd
  constructor
  · intro i e' he'
    rw [hdocuments] at he'
    by_cases hi : i = id
    · subst i
      rw [Function.update_self, Option.some.injEq] at he'
      subst he'
      rcases h.entry id e he with ⟨hknown, hid, hdeleted, -, hcurrent⟩
      exact ⟨hknown, hid, hdeleted, hcurrent, hcurrent⟩
    · rw [Function.update_of_ne hi] at he'
      exact h.entry i e' he'
  · intro i e' d he' hd
    rw [hdocuments] at he'
    by_cases hi : i = id
    · subst i
      rw [Function.update_self, Option.some.injEq] at he'
      subst he'
      exact h.committed id e d he hd
    · rw [Function.update_of_ne hi] at he'
      exact h.committed i e' d he' hd
  · intro i x hx
    rw [hwrites] at hx
    by_cases hi : i = id
    · subst i
      exact hlock
    · rw [Function.update_of_ne hi] at hx
      exact h.locked i x hx
  · intro i e' x he' hx
    rw [hdocuments] at he'
    rw [hwrites] at hx
    by_cases hi : i = id
    · subst i
      rw [Function.update_self, Option.some.injEq] at he' hx
      subst he' hx
      exact ⟨base, now, hbase, rfl⟩
    · rw [Function.update_of_ne hi] at he' hx
      exact h.updated i e' x he' hx
  · intro i e' he' hne
    rw [hdocuments] at he'
    rw [hwrites]
    by_cases hi : i = id
    · subst i
      simp
    · rw [Function.update_of_ne hi] at he' ⊢
      exact h.written i e' he' hne
  · intro i d hd
    exact h.inserted i d (hinserts i d hd)
  · intro i j d d' hd hd'
    exact h.single i j d d' (hinserts i d hd) (hinserts j d' hd')
  · intro i hi
    rw [hwrites] at hi
    by_cases hid : i = id
    · subst i
      simp at hi
    · rw [Function.update_of_ne hid] at hi
      exact h.removed i hi

theorem DocumentsOk.insert (h : DocumentsOk s t σ) (hkeeps : σ.KeepsDocuments)
    {id : Nat} {row : Document}
    (hunknown : ¬ s.Known id) (hbound : id < s.nextId) (hid : row.id = id)
    (hdeleted : row.deleted = 0) (hstatus : row.status = .pending)
    (hversion : row.indexVersion = 1)
    (hlock : s.locks (.document id) = some t)
    (hkeylock : s.locks (.storageKey row.storageKey) = some t)
    (hkey : forall j d', s.db.documents j = some d' -> d'.storageKey ≠ row.storageKey)
    (hdocuments : σ'.documents = σ.documents)
    (hwrites : σ'.writes.documents =
      Function.update σ.writes.documents id (some (some row))) : DocumentsOk s t σ' := by
  have hnew : forall i x, σ'.writes.documents i = some x -> i = id ∧ x = some row := by
    intro i x hx
    rw [hwrites] at hx
    by_cases hi : i = id
    · subst i
      rw [Function.update_self, Option.some.injEq] at hx
      exact ⟨rfl, hx.symm⟩
    · rw [Function.update_of_ne hi, hkeeps i] at hx
      cases hx
  have hentry : forall e, σ.documents id ≠ some e := fun e he => hunknown (h.entry id e he).1
  constructor
  · rw [hdocuments]
    exact h.entry
  · rw [hdocuments]
    exact h.committed
  · intro i x hx
    rcases hnew i x hx with ⟨rfl, -⟩
    exact hlock
  · intro i e x he hx
    rcases hnew i x hx with ⟨rfl, -⟩
    rw [hdocuments] at he
    exact absurd he (hentry e)
  · intro i e he hne
    rw [hdocuments] at he
    exact absurd (hkeeps i) (h.written i e he hne)
  · intro i d hd
    rcases hnew i _ hd.2 with ⟨rfl, hrow⟩
    rw [Option.some.injEq] at hrow
    subst hrow
    exact ⟨hunknown, hbound, hid, hdeleted, hstatus, hversion, hkeylock, hkey⟩
  · intro i j d d' hd hd'
    exact (hnew i _ hd.2).1.trans (hnew j _ hd'.2).1.symm
  · intro i hi
    have := (hnew i _ hi).2
    cases this

theorem DocumentsOk.remove (h : DocumentsOk s t σ) {id : Nat} {base : Document}
    (hbase : s.db.documents id = some base) (hstatus : base.status = .deleting)
    (hlock : s.locks (.document id) = some t)
    (hdocuments : σ'.documents = Function.update σ.documents id none)
    (hwrites : σ'.writes.documents = Function.update σ.writes.documents id (some none)) :
    DocumentsOk s t σ' := by
  have hentry : forall i e, σ'.documents i = some e -> i ≠ id ∧ σ.documents i = some e := by
    intro i e he
    rw [hdocuments] at he
    by_cases hi : i = id
    · subst i
      simp at he
    · rw [Function.update_of_ne hi] at he
      exact ⟨hi, he⟩
  have hinserts : forall i d, σ'.Inserts i d -> σ.Inserts i d := by
    intro i d hd
    rw [Session.Inserts, hdocuments, hwrites] at hd
    by_cases hi : i = id
    · subst i
      simp at hd
    · rw [Function.update_of_ne hi, Function.update_of_ne hi] at hd
      exact hd
  constructor
  · intro i e he
    exact h.entry i e (hentry i e he).2
  · intro i e d he hd
    exact h.committed i e d (hentry i e he).2 hd
  · intro i x hx
    rw [hwrites] at hx
    by_cases hi : i = id
    · subst i
      exact hlock
    · rw [Function.update_of_ne hi] at hx
      exact h.locked i x hx
  · intro i e x he hx
    rcases hentry i e he with ⟨hi, he'⟩
    rw [hwrites, Function.update_of_ne hi] at hx
    exact h.updated i e x he' hx
  · intro i e he hne
    rcases hentry i e he with ⟨hi, he'⟩
    rw [hwrites, Function.update_of_ne hi]
    exact h.written i e he' hne
  · intro i d hd
    exact h.inserted i d (hinserts i d hd)
  · intro i j d d' hd hd'
    exact h.single i j d d' (hinserts i d hd) (hinserts j d' hd')
  · intro i hi
    rw [hwrites] at hi
    by_cases hid : i = id
    · subst i
      exact ⟨base, hbase, hstatus⟩
    · rw [Function.update_of_ne hid] at hi
      exact h.removed i hi

end Documents

/-!
# Events

A pending event is a new request or an attempt to deliver the committed row under it.  The
unique index keeps a new event apart from the pending and the committed ones.
-/

section Events

variable {s : State} {t : Nat} {σ σ' : Session} {allowed : Settings -> Prop}

theorem EventsOk.congr (h : EventsOk s t σ allowed)
    (hinserts : forall i d, σ.Inserts i d -> s.Known i ∨ exists d', σ'.Inserts i d')
    (hwrites : σ'.writes.events = σ.writes.events) : EventsOk s t σ' allowed := by
  constructor
  · rw [hwrites]
    exact h.row
  · rw [hwrites]
    exact h.locked
  · intro i e he
    rw [hwrites] at he
    rcases h.kind i e he with hdelivers | henqueues
    · exact .inl hdelivers
    · rcases henqueues with ⟨hnone, hstatus, hattempts, hwf, haggregate, hlock, hkey⟩
      refine .inr ⟨hnone, hstatus, hattempts, hwf, ?_, hlock, hkey⟩
      rcases haggregate with hknown | ⟨d, hd⟩
      · exact .inl hknown
      · exact hinserts _ d hd
  · rw [hwrites]
    exact h.keys

theorem EventsOk.congr_session (h : EventsOk s t σ allowed)
    (hdocuments : σ'.documents = σ.documents)
    (hdocumentWrites : σ'.writes.documents = σ.writes.documents)
    (hwrites : σ'.writes.events = σ.writes.events) : EventsOk s t σ' allowed := by
  refine h.congr (fun i d hd => .inr ⟨d, ?_⟩) hwrites
  simpa only [Session.Inserts, hdocuments, hdocumentWrites] using hd

theorem EventsOk.put (h : EventsOk s t σ allowed) {id : Nat} {row : OutboxEvent}
    (hid : row.id = id) (hbound : id < s.nextId) (hlock : s.locks (.event id) = some t)
    (hkind : Session.Delivers s allowed id row ∨ Session.Enqueues s t σ id row)
    (hkeys : forall i e, i ≠ id -> σ.writes.events i = some e -> e.key ≠ row.key)
    (hdocuments : σ'.documents = σ.documents)
    (hdocumentWrites : σ'.writes.documents = σ.writes.documents)
    (hwrites : σ'.writes.events = Function.update σ.writes.events id (some row)) :
    EventsOk s t σ' allowed := by
  have hrow : forall i e, σ'.writes.events i = some e ->
      (i = id ∧ e = row) ∨ (i ≠ id ∧ σ.writes.events i = some e) := by
    intro i e he
    rw [hwrites] at he
    by_cases hi : i = id
    · subst i
      rw [Function.update_self, Option.some.injEq] at he
      exact .inl ⟨rfl, he.symm⟩
    · rw [Function.update_of_ne hi] at he
      exact .inr ⟨hi, he⟩
  have henqueues : forall i e, Session.Enqueues s t σ i e -> Session.Enqueues s t σ' i e := by
    intro i e he
    simpa only [Session.Enqueues, Session.Inserts, hdocuments, hdocumentWrites] using he
  constructor
  · intro i e he
    rcases hrow i e he with ⟨rfl, rfl⟩ | ⟨-, hold⟩
    · exact ⟨hid, hbound⟩
    · exact h.row i e hold
  · intro i e he
    rcases hrow i e he with ⟨rfl, rfl⟩ | ⟨-, hold⟩
    · exact hlock
    · exact h.locked i e hold
  · intro i e he
    rcases hrow i e he with ⟨rfl, rfl⟩ | ⟨-, hold⟩
    · exact hkind.imp_right (henqueues i e)
    · exact (h.kind i e hold).imp_right (henqueues i e)
  · intro i j e e' he he' hkey
    rcases hrow i e he with ⟨rfl, rfl⟩ | ⟨hi, hold⟩ <;>
      rcases hrow j e' he' with ⟨rfl, rfl⟩ | ⟨hj, hold'⟩
    · rfl
    · exact absurd hkey.symm (hkeys j e' hj hold')
    · exact absurd hkey (hkeys i e hi hold)
    · exact h.keys i j e e' hold hold' hkey

theorem EventsOk.key_ne (h : EventsOk s t σ allowed)
    (row : OutboxEvent) (hnokey : (s.db.install σ.writes).hasKey s.nextId row.key = false) :
    forall i e, σ.writes.events i = some e -> e.key ≠ row.key := by
  intro i e he
  exact Db.hasKey_eventKey hnokey (h.row i e he).2 (Db.install_events_of_some he)

theorem EventsOk.committed_key_ne (h : EventsOk s t σ allowed)
    (hcoherent : s.db.Coherent s.nextId)
    (row : OutboxEvent) (hnokey : (s.db.install σ.writes).hasKey s.nextId row.key = false) :
    forall i e, s.db.events i = some e -> e.key ≠ row.key := by
  intro i e he
  have hbound := (hcoherent.event i e he).2.1
  cases hpending : σ.writes.events i with
  | none =>
      apply Db.hasKey_eventKey hnokey hbound
      rw [Db.install_events_of_none hpending, he]
  | some e' =>
      have hne := h.key_ne row hnokey i e' hpending
      rcases h.kind i e' hpending with ⟨old, hold, -, hdelivery⟩ | henqueues
      · rw [he, Option.some.injEq] at hold
        subst hold
        rcases hdelivery with ⟨now, m, hnew, -, -⟩ | ⟨exc, cfg, -, hnew⟩
        · rw [hnew] at hne
          exact hne
        · rw [hnew] at hne
          exact hne
      · have hnone := henqueues.1
        rw [he] at hnone
        cases hnone

end Events

/-!
# Knowledge bases
-/

section KnowledgeBases

variable {s : State} {t : Nat} {σ σ' : Session}

theorem KnowledgeBasesOk.congr (h : KnowledgeBasesOk s t σ)
    (hentries : σ'.knowledgeBases = σ.knowledgeBases)
    (hwrites : σ'.writes.knowledgeBases = σ.writes.knowledgeBases) :
    KnowledgeBasesOk s t σ' := by
  constructor
  · rw [hentries]
    exact h.entry
  · rw [hwrites]
    exact h.locked
  · rw [hwrites]
    exact h.row
  · rw [hentries, hwrites]
    exact h.updated
  · rw [hentries, hwrites]
    exact h.written
  · rw [hentries, hwrites]
    exact h.inserted

theorem KnowledgeBasesOk.load (h : KnowledgeBasesOk s t σ)
    (hkeeps : forall i, σ.writes.knowledgeBases i = none) {rows : List KnowledgeBase}
    (hrows : forall kb, kb ∈ rows -> 0 < kb.id ∧ kb.id < s.nextId)
    (hentries : σ'.knowledgeBases = loadEntries KnowledgeBase.id σ.knowledgeBases rows)
    (hwrites : σ'.writes.knowledgeBases = σ.writes.knowledgeBases) :
    KnowledgeBasesOk s t σ' := by
  have hnone : forall i, σ'.writes.knowledgeBases i = none := by
    rw [hwrites]
    exact hkeeps
  constructor
  · intro i e he
    rw [hentries] at he
    rcases loadEntries_cases he with hold | ⟨-, row, hrow, hkey, hfresh⟩
    · exact h.entry i e hold
    · rcases hrows row hrow with ⟨hpos, hbound⟩
      subst hkey hfresh
      exact ⟨rfl, rfl, rfl, hpos, hbound⟩
  · intro i kb hkb
    rw [hnone i] at hkb
    cases hkb
  · intro i kb hkb
    rw [hnone i] at hkb
    cases hkb
  · intro i e kb _ hkb
    rw [hnone i] at hkb
    cases hkb
  · intro i e he hne
    rw [hentries] at he
    rcases loadEntries_cases he with hold | ⟨-, row, -, -, hfresh⟩
    · exact absurd (hkeeps i) (h.written i e hold hne)
    · subst hfresh
      exact absurd rfl hne
  · intro i kb _ hkb
    rw [hnone i] at hkb
    cases hkb

theorem KnowledgeBasesOk.assign (h : KnowledgeBasesOk s t σ) {id : Nat}
    {e : Entry KnowledgeBase} {f : KnowledgeBase -> KnowledgeBase}
    (he : σ.knowledgeBases id = some e) (hf : forall kb, (f kb).id = kb.id)
    (hentries : σ'.knowledgeBases =
      Function.update σ.knowledgeBases id (some { e with current := f e.current }))
    (hwrites : σ'.writes.knowledgeBases = σ.writes.knowledgeBases) :
    KnowledgeBasesOk s t σ' := by
  have hentry : forall i e', σ'.knowledgeBases i = some e' ->
      exists e₀, σ.knowledgeBases i = some e₀ ∧ e'.loaded = e₀.loaded ∧
        e'.flushed = e₀.flushed ∧ e'.current.id = e₀.current.id := by
    intro i e' he'
    rw [hentries] at he'
    by_cases hi : i = id
    · subst i
      rw [Function.update_self, Option.some.injEq] at he'
      subst he'
      exact ⟨e, he, rfl, rfl, hf _⟩
    · rw [Function.update_of_ne hi] at he'
      exact ⟨e', he', rfl, rfl, rfl⟩
  constructor
  · intro i e' he'
    rcases hentry i e' he' with ⟨e₀, he₀, hloaded, hflushed, hcurrent⟩
    rw [hloaded, hflushed, hcurrent]
    exact h.entry i e₀ he₀
  · rw [hwrites]
    exact h.locked
  · rw [hwrites]
    exact h.row
  · intro i e' kb he' hkb
    rcases hentry i e' he' with ⟨e₀, he₀, hloaded, hflushed, -⟩
    rw [hwrites] at hkb
    rw [hloaded, hflushed]
    exact h.updated i e₀ kb he₀ hkb
  · intro i e' he' hne
    rcases hentry i e' he' with ⟨e₀, he₀, hloaded, hflushed, -⟩
    rw [hwrites]
    rw [hloaded, hflushed] at hne
    exact h.written i e₀ he₀ hne
  · intro i kb hnone hkb
    rw [hwrites] at hkb
    refine h.inserted i kb ?_ hkb
    rw [hentries] at hnone
    by_cases hi : i = id
    · subst i
      simp at hnone
    · rw [Function.update_of_ne hi] at hnone
      exact hnone

theorem KnowledgeBasesOk.update (h : KnowledgeBasesOk s t σ) {id : Nat}
    {e : Entry KnowledgeBase} {base : KnowledgeBase}
    (he : σ.knowledgeBases id = some e) (hbase : s.db.knowledgeBases id = some base)
    (hid : base.id = id) (hlock : s.locks (.knowledgeBase id) = some t)
    (hentries : σ'.knowledgeBases =
      Function.update σ.knowledgeBases id (some { e with flushed := e.current }))
    (hwrites : σ'.writes.knowledgeBases =
      Function.update σ.writes.knowledgeBases id
        (some (KnowledgeBase.write e.loaded e.current base))) :
    KnowledgeBasesOk s t σ' := by
  rcases h.entry id e he with ⟨hloaded, -, hcurrent, hpos, hbound⟩
  constructor
  · intro i e' he'
    rw [hentries] at he'
    by_cases hi : i = id
    · subst i
      rw [Function.update_self, Option.some.injEq] at he'
      subst he'
      exact ⟨hloaded, hcurrent, hcurrent, hpos, hbound⟩
    · rw [Function.update_of_ne hi] at he'
      exact h.entry i e' he'
  · intro i kb hkb
    rw [hwrites] at hkb
    by_cases hi : i = id
    · subst i
      exact hlock
    · rw [Function.update_of_ne hi] at hkb
      exact h.locked i kb hkb
  · intro i kb hkb
    rw [hwrites] at hkb
    by_cases hi : i = id
    · subst i
      rw [Function.update_self, Option.some.injEq] at hkb
      subst hkb
      exact ⟨hid, hpos, hbound⟩
    · rw [Function.update_of_ne hi] at hkb
      exact h.row i kb hkb
  · intro i e' kb he' hkb
    rw [hentries] at he'
    rw [hwrites] at hkb
    by_cases hi : i = id
    · subst i
      rw [Function.update_self, Option.some.injEq] at he' hkb
      subst he' hkb
      exact ⟨base, hbase, rfl⟩
    · rw [Function.update_of_ne hi] at he' hkb
      exact h.updated i e' kb he' hkb
  · intro i e' he' hne
    rw [hentries] at he'
    rw [hwrites]
    by_cases hi : i = id
    · subst i
      simp
    · rw [Function.update_of_ne hi] at he' ⊢
      exact h.written i e' he' hne
  · intro i kb hnone hkb
    rw [hentries] at hnone
    rw [hwrites] at hkb
    by_cases hi : i = id
    · subst i
      simp at hnone
    · rw [Function.update_of_ne hi] at hnone hkb
      exact h.inserted i kb hnone hkb

theorem KnowledgeBasesOk.insert (h : KnowledgeBasesOk s t σ) {id : Nat} {row : KnowledgeBase}
    (hnone : σ.knowledgeBases id = none) (hid : row.id = id) (hpos : 0 < id)
    (hbound : id < s.nextId) (hdeleted : row.deleted = 0)
    (hlock : s.locks (.knowledgeBase id) = some t)
    (hentries : σ'.knowledgeBases = σ.knowledgeBases)
    (hwrites : σ'.writes.knowledgeBases =
      Function.update σ.writes.knowledgeBases id (some row)) : KnowledgeBasesOk s t σ' := by
  constructor
  · rw [hentries]
    exact h.entry
  · intro i kb hkb
    rw [hwrites] at hkb
    by_cases hi : i = id
    · subst i
      exact hlock
    · rw [Function.update_of_ne hi] at hkb
      exact h.locked i kb hkb
  · intro i kb hkb
    rw [hwrites] at hkb
    by_cases hi : i = id
    · subst i
      rw [Function.update_self, Option.some.injEq] at hkb
      subst hkb
      exact ⟨hid, hpos, hbound⟩
    · rw [Function.update_of_ne hi] at hkb
      exact h.row i kb hkb
  · intro i e kb he hkb
    rw [hentries] at he
    rw [hwrites] at hkb
    by_cases hi : i = id
    · subst i
      rw [hnone] at he
      cases he
    · rw [Function.update_of_ne hi] at hkb
      exact h.updated i e kb he hkb
  · intro i e he hne
    rw [hentries] at he
    rw [hwrites]
    by_cases hi : i = id
    · subst i
      simp
    · rw [Function.update_of_ne hi]
      exact h.written i e he hne
  · intro i kb hi' hkb
    rw [hentries] at hi'
    rw [hwrites] at hkb
    by_cases hi : i = id
    · subst i
      rw [Function.update_self, Option.some.injEq] at hkb
      subst hkb
      exact hdeleted
    · rw [Function.update_of_ne hi] at hkb
      exact h.inserted i kb hi' hkb

end KnowledgeBases

end RagService
