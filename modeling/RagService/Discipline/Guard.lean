import RagService.Discipline.Invariant

/-!
# What each command has to meet

The obligations of a thread at its commands.  Those of a commit say, for each
kind of transaction, what it has done by then; the others are the locks and reads
that a statement needs.
-/

namespace RagService

open Interleaving OutboxService DocumentService

/-!
# The assignments of the services to a document

The assignments, each under the name of what happens to the document.
-/

namespace Document

def retried (d : Document) (profileId : Nat) : Document :=
  { d with
    status := .pending
    errorMessage := none
    indexVersion := d.indexVersion + 1
    indexProfileId := some profileId }

def deleteRequested (d : Document) : Document :=
  { d with status := .deleting }

def claimed (d : Document) : Document :=
  { d with status := .processing, errorMessage := none }

def indexed (d : Document) (text : Text) (count : Nat) : Document :=
  { d with
    parsedContent := some text
    chunkCount := count
    status := .ready
    errorMessage := none }

def failed (d : Document) (status : DocumentStatus) (message : Text) : Document :=
  { d with status := status, errorMessage := some message }

def recovered (d : Document) (message : Text) (time : Nat) : Document :=
  { d with status := .pending, errorMessage := some message, updatedTime := some time }

end Document

/-!
# One run of `index_content`

An index run has the settings, the content and the vectors that it works with; with these its
chunks are determined.
-/

structure IndexRun where
  cfg : Settings
  content : Bytes
  text : Text
  vectors : List Embedding
  /-- the first primary keys that its two inserts draw -/
  firstParent : Nat
  firstChild : Nat

namespace IndexRun

def parents (run : IndexRun) : List Chunking.ParentChildChunks :=
  Chunking.splitParentChildText run.text run.cfg.chunkSize run.cfg.chunkOverlap

def children (run : IndexRun) : List ChildPiece :=
  childPieces run.parents

def parentRows (env : Env) (document : Document) (run : IndexRun) : List Chunk :=
  numberChunks run.firstParent (parentChunks env document run.parents)

def childRows (env : Env) (document : Document) (run : IndexRun) : List Chunk :=
  numberChunks run.firstChild
    (childChunks env document ((run.parentRows env document).map Chunk.id) run.children
      run.vectors)

/-- The rows that the run leaves in `rag_chunk`. -/
def rows (env : Env) (document : Document) (run : IndexRun) : List Chunk :=
  run.parentRows env document ++ run.childRows env document

structure Valid (env : Env) (allowed : Settings -> Prop) (document : Document)
    (run : IndexRun) : Prop where
  allowed : allowed run.cfg
  parsed : Parsing.parseDocument env run.cfg document.filename run.content = .ok run.text
  parents : run.parents ≠ []
  vectors : run.vectors.length = run.children.length

end IndexRun

/-!
# Sessions at a commit

What a transaction of each kind has done when it commits: which objects of its session it has
assigned, which rows it has written, and that what it read is still so under its locks.
-/

namespace Session

variable (σ : Session)

structure Clean : Prop where
  documents : forall i e, σ.documents i = some e -> e.flushed = e.current
  knowledgeBases : forall i e, σ.knowledgeBases i = some e -> e.flushed = e.current

structure Focus (d : Nat) (loaded current : Document) : Prop where
  entry : exists flushed, σ.documents d = some ⟨loaded, flushed, current⟩
  others : forall i, i ≠ d -> σ.documents i = none
  writes : forall i, i ≠ d -> σ.writes.documents i = none

def KeepsDocuments : Prop :=
  forall i, σ.writes.documents i = none

def KeepsChunks : Prop :=
  forall i, σ.writes.chunks i = none

def KeepsEvents : Prop :=
  forall i, σ.writes.events i = none

def KeepsDeleted : Prop :=
  forall i e, σ.knowledgeBases i = some e -> e.current.deleted = e.loaded.deleted

def OnlyEvent (event : Nat) : Prop :=
  forall i e, σ.writes.events i = some e -> i = event

end Session

def Db.Carries (db : Db) (event : Nat) (request : OutboxEvent) : Prop :=
  exists e, db.events event = some e ∧ e.identity = request.identity

section Guards

variable (env : Env) (allowed : Settings -> Prop) (s : State) (t : Nat) (σ : Session)

/-- The session holds the lock of the one document it is about, with its committed row. -/
structure Session.Holds (d : Nat) (loaded current : Document) : Prop
    extends Session.Focus σ d loaded current where
  locked : s.locks (.document d) = some t
  committed : s.db.documents d = some loaded

/-- What a transaction of each kind has done when it commits. -/
def Session.Effect : Note -> Prop
  | .knowledgeBaseCreated _ | .knowledgeBaseUpdated _ | .unchanged =>
      σ.KeepsDocuments ∧ σ.KeepsChunks ∧ σ.KeepsEvents ∧ σ.KeepsDeleted
  | .knowledgeBaseDeleted kb =>
      (exists e, σ.knowledgeBases kb = some e ∧ e.current.deleted ≠ e.loaded.deleted) ∧
        (forall i, i ≠ kb -> σ.knowledgeBases i = none) ∧
        σ.scanned = some kb ∧
        (forall i e, σ.documents i = some e ->
          e.loaded.knowledgeBaseId = kb ∧ e.current = e.loaded.deleteRequested ∧
            (s.db.install σ.writes).RequestsDelete i) ∧
        (forall i, σ.documents i = none -> σ.writes.documents i = none) ∧
        σ.KeepsChunks ∧
        (forall i e, σ.writes.events i = some e ->
          e.identity = (deleteRequest e.aggregateId).identity)
  | .documentCreated d event =>
      (forall i, σ.documents i = none) ∧
        (exists row, σ.writes.documents d = some (some row)) ∧
        (forall i, i ≠ d -> σ.writes.documents i = none) ∧
        σ.KeepsChunks ∧ σ.KeepsDeleted ∧ σ.OnlyEvent event ∧
        (s.db.install σ.writes).Carries event (indexRequest d 1)
  | .documentRetried d event =>
      (exists loaded profileId, σ.Focus d loaded (loaded.retried profileId) ∧
        (s.db.install σ.writes).Carries event (indexRequest d (loaded.indexVersion + 1))) ∧
        σ.KeepsChunks ∧ σ.KeepsDeleted ∧ σ.OnlyEvent event
  | .documentDeleteRequested d event =>
      (exists loaded, σ.Focus d loaded loaded.deleteRequested) ∧
        σ.KeepsChunks ∧ σ.KeepsDeleted ∧ σ.OnlyEvent event ∧
        (s.db.install σ.writes).Carries event (deleteRequest d)
  | .indexClaimed d version =>
      (exists loaded, σ.Holds s t d loaded loaded.claimed ∧
        loaded.status = .pending ∧ loaded.indexVersion = version) ∧
        s.notes t = [] ∧ σ.KeepsChunks ∧ σ.KeepsEvents ∧ σ.KeepsDeleted
  | .documentIndexed d =>
      (exists (loaded : Document) (run : IndexRun),
        σ.Holds s t d loaded (loaded.indexed run.text run.children.length) ∧
        loaded.status = .processing ∧
        s.notes t = [.indexClaimed d loaded.indexVersion] ∧
        run.Valid env allowed loaded ∧
        σ.writes.chunks d = some (run.rows env loaded)) ∧
        (forall i, i ≠ d -> σ.writes.chunks i = none) ∧ σ.KeepsEvents ∧ σ.KeepsDeleted
  | .failureRecorded d version =>
      (exists loaded status message, σ.Holds s t d loaded (loaded.failed status message) ∧
        (status = .pending ∨ status = .failed) ∧
        loaded.indexVersion = version ∧ loaded.status ≠ .ready ∧ loaded.status ≠ .deleting) ∧
        s.notes t = [.indexClaimed d version] ∧
        σ.KeepsChunks ∧ σ.KeepsEvents ∧ σ.KeepsDeleted
  | .staleRecovered ids =>
      (forall i e, σ.documents i = some e -> i ∈ ids ∧
        s.locks (.document i) = some t ∧ s.db.documents i = some e.loaded ∧
        (e.loaded.status = .pending ∨ e.loaded.status = .processing) ∧
        exists message time, e.current = e.loaded.recovered message time) ∧
        (forall i, σ.documents i = none -> σ.writes.documents i = none) ∧
        σ.KeepsChunks ∧ σ.KeepsEvents ∧ σ.KeepsDeleted
  | .documentRemoved d =>
      (forall i, σ.documents i = none) ∧
        σ.writes.documents d = some none ∧
        (forall i, i ≠ d -> σ.writes.documents i = none) ∧
        σ.writes.chunks d = some [] ∧
        (forall i, i ≠ d -> σ.writes.chunks i = none) ∧ σ.KeepsEvents ∧ σ.KeepsDeleted
  | .eventsDispatched _ =>
      σ.KeepsDocuments ∧ σ.KeepsChunks ∧ σ.KeepsDeleted ∧
        forall i e, σ.writes.events i = some e -> s.db.events i ≠ none

def Command.Ok : Command -> Prop
  | .commit note => σ.Clean ∧ σ.Effect env allowed s t note
  | .load _ | .lock _ => σ.KeepsDocuments
  | .loadKnowledgeBase _ _ _ _ => forall i, σ.writes.knowledgeBases i = none
  | .assign _ f => forall d, (f d).identity = d.identity
  | .assignKnowledgeBase _ f => forall kb, (f kb).id = kb.id
  | .insert (.document row) =>
      σ.KeepsDocuments ∧ row.deleted = 0 ∧ row.status = .pending ∧ row.indexVersion = 1
  | .insert (.event row) =>
      row.status = .pending ∧ row.dispatchAttempts = 0 ∧ row.WellFormed ∧
        (s.Known row.aggregateId ∨ exists d, σ.Inserts row.aggregateId d)
  | .insert (.knowledgeBase row) => row.deleted = 0
  | .updateEvent row =>
      s.locks (.event row.id) = some t ∧ Session.Delivers s allowed row.id row
  | .remove id =>
      s.locks (.document id) = some t ∧
        exists base, s.db.documents id = some base ∧ base.status = .deleting
  | .deleteChunks id | .insertChunks id _ => s.locks (.document id) = some t
  | _ => True

def Command.OutsideOk : Command -> Prop
  | .send m => s.Requested m
  | .deleteObject key =>
      exists i d, s.locks (.document i) = some t ∧ s.db.documents i = some d ∧
        d.status = .deleting ∧ d.storageKey = key
  | _ => True

/-- The obligation of a thread at a command that does not raise. -/
def guard (c : Command) : Choice -> Prop
  | .fail _ => True
  | .proceed _ _ =>
      Command.OutsideOk s t c ∧
        forall σ, s.sessions t = some σ -> Command.Ok env allowed s t σ c

end Guards

end RagService
