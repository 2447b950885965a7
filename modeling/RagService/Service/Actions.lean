import RagService.Store.Database

/-!
# Actions

The programs of the services, with one name for each command, and the two patterns
they share: the flush of the ORM session and the transaction block.
-/

namespace RagService

open Interleaving

abbrev Action := Program interface

namespace Action

variable {α : Type}

def raise (e : Exception) : Action α :=
  Program.raise (I := interface) e

def ofExcept : Except Exception α -> Action α
  | .ok a => .ret a
  | .error e => raise e

/-!
# Commands
-/

def begin : Action Unit := Program.issue (I := interface) .begin
def commit (note : Note) : Action Unit := Program.issue (I := interface) (.commit note)
def rollback : Action Unit := Program.issue (I := interface) .rollback
def select (q : Query) : Action q.Result := Program.issue (I := interface) (.select q)

def loadKnowledgeBase (pk userId : Nat) (isAdmin write : Bool) :
    Action (Option KnowledgeBase) :=
  Program.issue (I := interface) (.loadKnowledgeBase pk userId isAdmin write)

def load (q : DocumentQuery) : Action (List Document) :=
  Program.issue (I := interface) (.load q)

def lock (q : LockQuery) : Action (List Document) :=
  Program.issue (I := interface) (.lock q)

def lockEvents (limit : Nat) : Action (List OutboxEvent) :=
  Program.issue (I := interface) (.lockEvents limit)

def assign (id : Nat) (f : Document -> Document) : Action Unit :=
  Program.issue (I := interface) (.assign id f)

def assignKnowledgeBase (id : Nat) (f : KnowledgeBase -> KnowledgeBase) : Action Unit :=
  Program.issue (I := interface) (.assignKnowledgeBase id f)

def dirty : Action (List Nat) := Program.issue (I := interface) .dirty
def dirtyKnowledgeBases : Action (List Nat) :=
  Program.issue (I := interface) .dirtyKnowledgeBases
def update (id : Nat) : Action Unit := Program.issue (I := interface) (.update id)
def updateKnowledgeBase (id : Nat) : Action Unit :=
  Program.issue (I := interface) (.updateKnowledgeBase id)
def updateEvent (row : OutboxEvent) : Action Unit :=
  Program.issue (I := interface) (.updateEvent row)
def insert (row : NewRow) : Action Nat := Program.issue (I := interface) (.insert row)
def remove (id : Nat) : Action Unit := Program.issue (I := interface) (.remove id)
def deleteChunks (documentId : Nat) : Action Unit :=
  Program.issue (I := interface) (.deleteChunks documentId)
def insertChunks (documentId : Nat) (rows : List Chunk) : Action (List Nat) :=
  Program.issue (I := interface) (.insertChunks documentId rows)
def putObject (key : Text) (content : Bytes) : Action Unit :=
  Program.issue (I := interface) (.putObject key content)
def getObject (key : Text) : Action Bytes := Program.issue (I := interface) (.getObject key)
def deleteObject (key : Text) : Action Unit :=
  Program.issue (I := interface) (.deleteObject key)
def send (m : Message) : Action Unit := Program.issue (I := interface) (.send m)
def embed (dimensions : Nat) (batch : List Text) : Action (List Embedding) :=
  Program.issue (I := interface) (.embed dimensions batch)
def now : Action Nat := Program.issue (I := interface) .now

/-!
# Flush and transaction

`db.flush()` writes the pending assignments, `db.add(row)` is flushed at once, and a
transaction block commits what its body did or rolls back and raises what it raised.
-/

def flush : Action Unit := do
  let documents ← dirty
  Program.forEach documents update
  let knowledgeBases ← dirtyKnowledgeBases
  Program.forEach knowledgeBases updateKnowledgeBase

def add (row : NewRow) : Action Nat := do
  flush
  insert row

/--
`async with async_db_session.begin() as db`: commit what the body did, or roll back
and raise what it raised.
-/
def transaction (note : α -> Note) (body : Action α) : Action α := do
  begin
  let result ← Program.outcome (do
    let a ← body
    flush
    commit (note a)
    return a)
  match result with
  | .ok a => return a
  | .error e => do
      rollback
      raise e

end Action
end RagService
