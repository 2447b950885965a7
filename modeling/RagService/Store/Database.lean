import Mathlib.Data.List.Sort
import RagService.Foundation.Interleaving
import RagService.Store.Model

/-!
# The shared state and its commands

The committed database, the open transactions with their uncommitted row
versions and their ORM sessions, the locks, the object storage and the broker.
A command is one SQL statement, one ORM operation, or one call to storage, the
broker or the embedding provider.

A plain `SELECT` reads the last committed rows without locking.  `FOR UPDATE`
reads, `UPDATE`, `INSERT` and `DELETE` take row locks that are held until the
transaction ends; a statement whose lock another transaction holds is blocked.
An `UPDATE` writes the columns whose value differs from the loaded one.
-/

namespace RagService

open Interleaving

/-!
# The database

The tables by primary key, with `rag_chunk` grouped by `document_id`.  A transaction has row
versions of its own, its identity map, and the knowledge base whose documents it has enumerated.
-/

inductive Resource where
  | document (id : Nat)
  | event (id : Nat)
  | profile (id : Nat)
  | knowledgeBase (id : Nat)
  | storageKey (key : Text)
  | eventKey (eventType : Text) (aggregateId : Nat) (dedupeKey : Text)
  | profileHash (hash : Text)
  | knowledgeBaseName (ownerId : Nat) (name : Text) (deleted : Nat)
  deriving DecidableEq

/-- The tables, by primary key; `rag_chunk` is grouped by `document_id`. -/
structure Db where
  knowledgeBases : Nat -> Option KnowledgeBase
  documents : Nat -> Option Document
  chunks : Nat -> List Chunk
  profiles : Nat -> Option IndexProfile
  events : Nat -> Option OutboxEvent

/-- Uncommitted row versions; a deleted document is `some none`. -/
structure Writes where
  knowledgeBases : Nat -> Option KnowledgeBase := fun _ => none
  documents : Nat -> Option (Option Document) := fun _ => none
  chunks : Nat -> Option (List Chunk) := fun _ => none
  profiles : Nat -> Option IndexProfile := fun _ => none
  events : Nat -> Option OutboxEvent := fun _ => none

def Db.install (db : Db) (w : Writes) : Db where
  knowledgeBases := fun i => (w.knowledgeBases i).or (db.knowledgeBases i)
  documents := fun d => (w.documents d).getD (db.documents d)
  chunks := fun d => (w.chunks d).getD (db.chunks d)
  profiles := fun i => (w.profiles i).or (db.profiles i)
  events := fun i => (w.events i).or (db.events i)

/-- The rows of a table with a key below `n`, in key order. -/
def scan {ρ : Type} (table : Nat -> Option ρ) (n : Nat) : List ρ :=
  (List.range n).filterMap table

/-- A mapped object: as loaded, as last flushed, and with its assignments. -/
structure Entry (ρ : Type) where
  loaded : ρ
  flushed : ρ
  current : ρ

/-- The object right after a `SELECT` returned its row. -/
def Entry.fresh {ρ : Type} (row : ρ) : Entry ρ :=
  ⟨row, row, row⟩

/-- An open transaction: its identity map and its uncommitted row versions. -/
structure Session where
  documents : Nat -> Option (Entry Document) := fun _ => none
  knowledgeBases : Nat -> Option (Entry KnowledgeBase) := fun _ => none
  /-- The knowledge base whose documents this transaction has enumerated. -/
  scanned : Option Nat := none
  writes : Writes := {}

/-!
# Column-wise updates

An `UPDATE` writes the changed columns over the row as it stands.
-/

/-- The value an `UPDATE` leaves in a column. -/
def writeColumn {α : Type} [DecidableEq α] (loaded current base : α) : α :=
  if current = loaded then base else current

/-- `UPDATE rag_document`: the changed columns over the row as it stands. -/
def Document.write (loaded current base : Document) (now : Nat) : Document where
  id := base.id
  knowledgeBaseId := writeColumn loaded.knowledgeBaseId current.knowledgeBaseId base.knowledgeBaseId
  filename := writeColumn loaded.filename current.filename base.filename
  fileType := writeColumn loaded.fileType current.fileType base.fileType
  mimeType := writeColumn loaded.mimeType current.mimeType base.mimeType
  storageKey := writeColumn loaded.storageKey current.storageKey base.storageKey
  fileSize := writeColumn loaded.fileSize current.fileSize base.fileSize
  contentHash := writeColumn loaded.contentHash current.contentHash base.contentHash
  parsedContent := writeColumn loaded.parsedContent current.parsedContent base.parsedContent
  status := writeColumn loaded.status current.status base.status
  errorMessage := writeColumn loaded.errorMessage current.errorMessage base.errorMessage
  chunkCount := writeColumn loaded.chunkCount current.chunkCount base.chunkCount
  indexVersion := writeColumn loaded.indexVersion current.indexVersion base.indexVersion
  indexProfileId := writeColumn loaded.indexProfileId current.indexProfileId base.indexProfileId
  createdTime := writeColumn loaded.createdTime current.createdTime base.createdTime
  -- `onupdate=timezone.now` unless the code assigned the column itself
  updatedTime := if current.updatedTime = loaded.updatedTime then some now else current.updatedTime
  deleted := writeColumn loaded.deleted current.deleted base.deleted

def KnowledgeBase.write (loaded current base : KnowledgeBase) : KnowledgeBase where
  id := base.id
  ownerId := writeColumn loaded.ownerId current.ownerId base.ownerId
  name := writeColumn loaded.name current.name base.name
  description := writeColumn loaded.description current.description base.description
  isPublic := writeColumn loaded.isPublic current.isPublic base.isPublic
  deleted := writeColumn loaded.deleted current.deleted base.deleted

/-!
# Commands

The statements of the services, and what a transaction writes into the history at its commit.
-/

inductive Query where
  | documentIdsByStatus (status : DocumentStatus)
  | indexProfile (hash : Text)
  | outboxEvent (eventType : Text) (aggregateId : Nat) (dedupeKey : Text)

def Query.Result : Query -> Type
  | documentIdsByStatus _ => List Nat
  | indexProfile _ => Option IndexProfile
  | outboxEvent _ _ _ => Option OutboxEvent

inductive DocumentQuery where
  | inKb (pk knowledgeBaseId : Nat)
  | ofKb (knowledgeBaseId : Nat)

/-- `SELECT ... FOR UPDATE` of documents. -/
inductive LockQuery where
  | live (pk : Nat)
  /-- `skip_locked=True`, ordered by last activity, limited -/
  | stale (before limit : Nat)

inductive NewRow where
  | knowledgeBase (row : KnowledgeBase)
  | document (row : Document)
  | profile (row : IndexProfile)
  | event (row : OutboxEvent)

/-- What a transaction did, written into the history at its commit. -/
inductive Note where
  | knowledgeBaseCreated (id : Nat)
  | knowledgeBaseUpdated (id : Nat)
  | knowledgeBaseDeleted (id : Nat)
  | documentCreated (id event : Nat)
  | documentRetried (id event : Nat)
  | documentDeleteRequested (id event : Nat)
  | indexClaimed (id version : Nat)
  | documentIndexed (id : Nat)
  | failureRecorded (id version : Nat)
  | staleRecovered (ids : List Nat)
  | documentRemoved (id : Nat)
  | eventsDispatched (ids : List Nat)
  /-- a transaction that changed nothing -/
  | unchanged
  deriving DecidableEq

inductive Command where
  | begin
  | commit (note : Note)
  | rollback
  | select (q : Query)
  | loadKnowledgeBase (pk userId : Nat) (isAdmin write : Bool)
  | load (q : DocumentQuery)
  | lock (q : LockQuery)
  | lockEvents (limit : Nat)
  | assign (id : Nat) (f : Document -> Document)
  | assignKnowledgeBase (id : Nat) (f : KnowledgeBase -> KnowledgeBase)
  | dirty
  | dirtyKnowledgeBases
  | update (id : Nat)
  | updateKnowledgeBase (id : Nat)
  | updateEvent (row : OutboxEvent)
  | insert (row : NewRow)
  | remove (id : Nat)
  | deleteChunks (documentId : Nat)
  | insertChunks (documentId : Nat) (rows : List Chunk)
  | putObject (key : Text) (content : Bytes)
  | getObject (key : Text)
  | deleteObject (key : Text)
  | send (m : Message)
  | embed (dimensions : Nat) (batch : List Text)
  | now

def Command.Result : Command -> Type
  | select q => q.Result
  | loadKnowledgeBase _ _ _ _ => Option KnowledgeBase
  | load _ => List Document
  | lock _ => List Document
  | lockEvents _ => List OutboxEvent
  | dirty => List Nat
  | dirtyKnowledgeBases => List Nat
  | insert _ => Nat
  | insertChunks _ _ => List Nat
  | getObject _ => Bytes
  | embed _ _ => List Embedding
  | now => Nat
  | _ => Unit

def interface : Interface where
  Command := Command
  Result := Command.Result
  Error := Exception

/-!
# The shared state

A state has the committed database, the history of commits, the locks, the storage and the
broker.  At its end a transaction closes its session and releases its locks.
-/

structure Commit where
  thread : Nat
  note : Note
  before : Db
  after : Db

structure State where
  db : Db
  /-- the sequence that primary keys are drawn from -/
  nextId : Nat
  locks : Resource -> Option Nat
  sessions : Nat -> Option Session
  storage : Text -> Option Bytes
  /-- every message handed to the broker so far -/
  broker : List Message
  /-- the commits so far; no command reads it -/
  history : List Commit

namespace State

variable (s : State) (t : Nat)

def lockable (r : Resource) : Bool :=
  match s.locks r with
  | none => true
  | some u => u == t

def acquire (rs : List Resource) : State :=
  { s with locks := fun r => if r ∈ rs then some t else s.locks r }

def setSession (σ : Session) : State :=
  { s with sessions := Function.update s.sessions t (some σ) }

def close : State :=
  { s with
    sessions := Function.update s.sessions t none
    locks := fun r => if s.locks r = some t then none else s.locks r }

def commit (note : Note) (σ : Session) : State :=
  let after := s.db.install σ.writes
  { s.close t with
    db := after
    history := s.history ++ [⟨t, note, s.db, after⟩] }

end State

/-!
# Queries

The rows that queries return, in their order; a locking query waits for locks, or skips the
rows that others have locked.
-/

def Db.documentIdsByStatus (db : Db) (n : Nat) (status : DocumentStatus) : List Nat :=
  ((scan db.documents n).filter fun d => d.status = status ∧ d.deleted = 0).map Document.id

def Query.answer (db : Db) (n : Nat) : (q : Query) -> q.Result
  | documentIdsByStatus status => db.documentIdsByStatus n status
  | indexProfile hash => (scan db.profiles n).find? fun p => p.profileHash = hash
  | outboxEvent eventType aggregateId dedupeKey =>
      (scan db.events n).find? fun e =>
        e.eventType = eventType ∧ e.aggregateId = aggregateId ∧ e.dedupeKey = dedupeKey

def Db.getAuthorized (db : Db) (pk userId : Nat) (isAdmin write : Bool) : Option KnowledgeBase :=
  (db.knowledgeBases pk).filter fun kb =>
    kb.deleted = 0 ∧ (isAdmin ∨ kb.ownerId = userId ∨ (write = false ∧ kb.isPublic))

def DocumentQuery.rows (db : Db) (n : Nat) : DocumentQuery -> List Document
  | inKb pk knowledgeBaseId =>
      ((db.documents pk).filter fun d =>
        d.knowledgeBaseId = knowledgeBaseId ∧ d.deleted = 0).toList
  | ofKb knowledgeBaseId =>
      (scan db.documents n).filter fun d => d.knowledgeBaseId = knowledgeBaseId ∧ d.deleted = 0

def DocumentQuery.scans : DocumentQuery -> Option Nat
  | inKb _ _ => none
  | ofKb knowledgeBaseId => some knowledgeBaseId

/-- `coalesce(updated_time, created_time)` -/
def Document.lastActivity (d : Document) : Nat :=
  d.updatedTime.getD d.createdTime

/-- The order of `ORDER BY last_activity, id`. -/
def Document.activeBefore (d e : Document) : Prop :=
  d.lastActivity < e.lastActivity ∨ (d.lastActivity = e.lastActivity ∧ d.id ≤ e.id)

instance (d e : Document) : Decidable (d.activeBefore e) :=
  inferInstanceAs (Decidable (_ ∨ _))

/-- The rows a locking `SELECT` returns; `none` while it has to wait. -/
def LockQuery.rows (s : State) (t : Nat) : LockQuery -> Option (List Document)
  | live pk =>
      match (s.db.documents pk).filter fun d => d.deleted = 0 with
      | none => some []
      | some d => if s.lockable t (.document pk) then some [d] else none
  | stale before limit =>
      let rows := (scan s.db.documents s.nextId).filter fun d =>
        (d.status = .pending ∨ d.status = .processing) ∧ d.deleted = 0 ∧
          d.lastActivity < before ∧ s.lockable t (.document d.id)
      some ((rows.insertionSort Document.activeBefore).take limit)

def State.pendingEvents (s : State) (t limit : Nat) : List OutboxEvent :=
  ((scan s.db.events s.nextId).filter fun e =>
    (e.status = .pending ∨ e.status = .failed) ∧ s.lockable t (.event e.id)).take limit

/-!
# Inserts

An insert waits for another one with the same entry of a unique index, and then fails.
-/

namespace NewRow

def uniqueKey : NewRow -> Resource
  | knowledgeBase row => .knowledgeBaseName row.ownerId row.name row.deleted
  | document row => .storageKey row.storageKey
  | profile row => .profileHash row.profileHash
  | event row => .eventKey row.eventType row.aggregateId row.dedupeKey

def resource (id : Nat) : NewRow -> Resource
  | knowledgeBase _ => .knowledgeBase id
  | document _ => .document id
  | profile _ => .profile id
  | event _ => .event id

def place (id now : Nat) (w : Writes) : NewRow -> Writes
  | knowledgeBase row =>
      { w with knowledgeBases := Function.update w.knowledgeBases id (some { row with id := id }) }
  | document row =>
      { w with
        documents :=
          Function.update w.documents id (some (some { row with id := id, createdTime := now })) }
  | profile row =>
      { w with profiles := Function.update w.profiles id (some { row with id := id }) }
  | event row =>
      { w with events := Function.update w.events id (some { row with id := id }) }

end NewRow

def Db.hasKey (db : Db) (n : Nat) : Resource -> Bool
  | .knowledgeBaseName ownerId name deleted =>
      (scan db.knowledgeBases n).any fun kb =>
        kb.ownerId = ownerId ∧ kb.name = name ∧ kb.deleted = deleted
  | .storageKey key => (scan db.documents n).any fun d => d.storageKey = key
  | .profileHash hash => (scan db.profiles n).any fun p => p.profileHash = hash
  | .eventKey eventType aggregateId dedupeKey =>
      (scan db.events n).any fun e =>
        e.eventType = eventType ∧ e.aggregateId = aggregateId ∧ e.dedupeKey = dedupeKey
  | _ => false

def numberChunks (first : Nat) (rows : List Chunk) : List Chunk :=
  rows.mapIdx fun i row => { row with id := first + i }

/-- Two chunk rows of a document with the same unique index entry. -/
def Chunk.clashes (a b : Chunk) : Bool :=
  a.indexVersion = b.indexVersion ∧ a.chunkIndex = b.chunkIndex

/-!
# Execution

What a command does when the environment lets it proceed; it may also let it fail.
-/

def loadEntries {ρ : Type} (key : ρ -> Nat) (entries : Nat -> Option (Entry ρ)) (rows : List ρ) :
    Nat -> Option (Entry ρ) :=
  fun i => (entries i).or ((rows.find? fun row => key row = i).map Entry.fresh)

def dirtyIds {ρ : Type} [DecidableEq ρ] (entries : Nat -> Option (Entry ρ)) (n : Nat) : List Nat :=
  (List.range n).filter fun i =>
    match entries i with
    | some e => e.current ≠ e.flushed
    | none => false

/-- What the environment decides about one command. -/
inductive Choice where
  /-- the command raises -/
  | fail (e : Exception)
  /-- it goes through, with a clock reading and the vectors a provider would return -/
  | proceed (now : Nat) (vectors : List Embedding)

def State.perform (s : State) (t : Nat) (σ : Session) (now : Nat) :
    (c : Command) -> Option (State × Except Exception c.Result)
  | .commit note => some (s.commit t note σ, .ok ())
  | .rollback => some (s.close t, .ok ())
  | .select q => some (s, .ok (q.answer (s.db.install σ.writes) s.nextId))
  | .loadKnowledgeBase pk userId isAdmin write =>
      let row := (s.db.install σ.writes).getAuthorized pk userId isAdmin write
      some (s.setSession t
        { σ with knowledgeBases := loadEntries KnowledgeBase.id σ.knowledgeBases row.toList },
        .ok row)
  | .load q =>
      let rows := q.rows (s.db.install σ.writes) s.nextId
      some (s.setSession t
        { σ with
          documents := loadEntries Document.id σ.documents rows
          scanned := q.scans.or σ.scanned },
        .ok rows)
  | .lock q =>
      match q.rows s t with
      | none => none
      | some rows =>
          some ((s.acquire t (rows.map fun d => .document d.id)).setSession t
            { σ with documents := loadEntries Document.id σ.documents rows },
            .ok rows)
  | .lockEvents limit =>
      let rows := s.pendingEvents t limit
      some (s.acquire t (rows.map fun e => .event e.id), .ok rows)
  | .assign id f =>
      match σ.documents id with
      | none => none
      | some e =>
          some (s.setSession t
            { σ with
              documents := Function.update σ.documents id (some { e with current := f e.current }) },
            .ok ())
  | .assignKnowledgeBase id f =>
      match σ.knowledgeBases id with
      | none => none
      | some e =>
          some (s.setSession t
            { σ with
              knowledgeBases :=
                Function.update σ.knowledgeBases id (some { e with current := f e.current }) },
            .ok ())
  | .dirty => some (s, .ok (dirtyIds σ.documents s.nextId))
  | .dirtyKnowledgeBases => some (s, .ok (dirtyIds σ.knowledgeBases s.nextId))
  | .update id =>
      match σ.documents id with
      | none => none
      | some e =>
          match s.db.documents id with
          -- no row matched: `StaleDataError`
          | none => some (s, .error .database)
          | some base =>
              if s.lockable t (.document id) then
                some ((s.acquire t [.document id]).setSession t
                  { σ with
                    documents :=
                      Function.update σ.documents id (some { e with flushed := e.current })
                    writes :=
                      { σ.writes with
                        documents :=
                          Function.update σ.writes.documents id
                            (some (some (Document.write e.loaded e.current base now))) } },
                  .ok ())
              else none
  | .updateKnowledgeBase id =>
      match σ.knowledgeBases id with
      | none => none
      | some e =>
          match s.db.knowledgeBases id with
          | none => some (s, .error .database)
          | some base =>
              let row := KnowledgeBase.write e.loaded e.current base
              let key := Resource.knowledgeBaseName row.ownerId row.name row.deleted
              let moved := base.name ≠ row.name ∨ base.deleted ≠ row.deleted
              if s.lockable t (.knowledgeBase id) ∧ (moved → s.lockable t key) then
                if moved ∧ (s.db.install σ.writes).hasKey s.nextId key then
                  some (s, .error .database)
                else
                  let locks := if moved then [.knowledgeBase id, key] else [.knowledgeBase id]
                  some ((s.acquire t locks).setSession t
                    { σ with
                      knowledgeBases :=
                        Function.update σ.knowledgeBases id (some { e with flushed := e.current })
                      writes :=
                        { σ.writes with
                          knowledgeBases :=
                            Function.update σ.writes.knowledgeBases id (some row) } },
                    .ok ())
              else none
  | .updateEvent row =>
      if s.lockable t (.event row.id) then
        some ((s.acquire t [.event row.id]).setSession t
          { σ with
            writes :=
              { σ.writes with
                events := Function.update σ.writes.events row.id (some row) } },
          .ok ())
      else none
  | .insert row =>
      if s.lockable t row.uniqueKey ∧ s.lockable t (row.resource s.nextId) then
        if (s.db.install σ.writes).hasKey s.nextId row.uniqueKey then
          -- `IntegrityError`
          some (s, .error .database)
        else
          some ({ (s.acquire t [row.uniqueKey, row.resource s.nextId]).setSession t
                    { σ with writes := row.place s.nextId now σ.writes } with
                  nextId := s.nextId + 1 },
            .ok s.nextId)
      else none
  | .remove id =>
      match s.db.documents id with
      | none => some (s, .error .database)
      | some base =>
          if s.lockable t (.document id) ∧ s.lockable t (.storageKey base.storageKey) then
            some ((s.acquire t [.document id, .storageKey base.storageKey]).setSession t
              { σ with
                documents := Function.update σ.documents id none
                writes :=
                  { σ.writes with
                    documents := Function.update σ.writes.documents id (some none) } },
              .ok ())
          else none
  | .deleteChunks documentId =>
      some (s.setSession t
        { σ with
          writes :=
            { σ.writes with chunks := Function.update σ.writes.chunks documentId (some []) } },
        .ok ())
  | .insertChunks documentId rows =>
      let present := (s.db.install σ.writes).chunks documentId
      let placed := numberChunks s.nextId rows
      if (present ++ placed).Pairwise (fun a b => a.clashes b = false) then
        some ({ s.setSession t
                  { σ with
                    writes :=
                      { σ.writes with
                        chunks :=
                          Function.update σ.writes.chunks documentId (some (present ++ placed)) } }
                with nextId := s.nextId + rows.length },
          .ok (placed.map Chunk.id))
      else
        some (s, .error .database)
  | _ => none

def State.performOutside (s : State) (now : Nat) (vectors : List Embedding) :
    (c : Command) -> Option (State × Except Exception c.Result)
  | .putObject key content =>
      some ({ s with storage := Function.update s.storage key (some content) }, .ok ())
  | .getObject key =>
      match s.storage key with
      | some content => some (s, .ok content)
      | none => some (s, .error .fileNotFound)
  | .deleteObject key =>
      some ({ s with storage := Function.update s.storage key none }, .ok ())
  | .send m => some ({ s with broker := s.broker ++ [m] }, .ok ())
  | .embed dimensions batch =>
      -- the adapter checks the number and the dimensions of the vectors
      if vectors.length = batch.length ∧ ∀ v ∈ vectors, v.length = dimensions then
        some (s, .ok vectors)
      else
        some (s, .error (.value "Embedding 返回向量数量或维度不匹配".toList))
  | .now => some (s, .ok now)
  | _ => none

def Command.outside : Command -> Bool
  | putObject _ _ | getObject _ | deleteObject _ | send _ | embed _ _ | now => true
  | _ => false

def exec (t : Nat) (c : Command) (ch : Choice) (s : State) :
    Option (State × Except Exception c.Result) :=
  match ch with
  | .fail e =>
      -- a rollback always ends the transaction
      match c with
      | .rollback => none
      | _ => some (s, .error e)
  | .proceed now vectors =>
      if c.outside then
        s.performOutside now vectors c
      else
        match s.sessions t with
        | some σ => s.perform t σ now c
        | none =>
            match c with
            | .begin => some (s.setSession t {}, .ok ())
            | _ => none

def machine : Machine interface State where
  Choice := Choice
  exec := exec
  crash := fun t s => s.close t

def State.empty : State where
  db := ⟨fun _ => none, fun _ => none, fun _ => [], fun _ => none, fun _ => none⟩
  nextId := 1
  locks := fun _ => none
  sessions := fun _ => none
  storage := fun _ => none
  broker := []
  history := []

end RagService
