import RagService.Service.Services

/-!
# Tasks and requests

The Celery tasks, the request handlers with their transactions, and the system in
which any number of them run interleaved.
-/

namespace RagService

open Interleaving RagService.Action OutboxService

namespace Tasks

/-- The argument of a payload: `payload[key]`. -/
def argument (payload : Json) (key : Text) : Except Exception Json :=
  match payload with
  | .obj fields =>
      match Json.field fields key with
      | some value => .ok value
      | none => .error (.other "KeyError".toList)
  | _ => .error (.other "TypeError".toList)

/-- The message that an event asks for. -/
def eventMessage (event : OutboxEvent) : Except Exception Message :=
  match Json.loads event.payload with
  | none => .error (.value "JSONDecodeError".toList)
  | some payload =>
      if event.eventType = indexDocumentEvent then do
        let documentId ← argument payload "document_id".toList
        let indexVersion ← argument payload "index_version".toList
        return .indexDocument documentId indexVersion
      else if event.eventType = deleteDocumentEvent then do
        let documentId ← argument payload "document_id".toList
        return .deleteDocument documentId
      else
        throw (.value ("不支持的 Outbox 事件类型: ".toList ++ event.eventType))

/-- `_dispatch_event`: the event as the attempt leaves it. -/
def dispatchEvent (cfg : Settings) (event : OutboxEvent) : Action OutboxEvent :=
  Program.handle
    (do
      let message ← ofExcept (eventMessage event)
      send message
      let dispatchedTime ← now
      return markDispatched event dispatchedTime)
    fun exc => return markFailed event exc cfg.outboxMaxDispatchAttempts

def dispatchOutbox (cfg : Settings) (limit : Nat) : Action (List OutboxEvent) := do
  let events ← claimPendingEvents limit
  let events ← Program.mapEach events (dispatchEvent cfg)
  -- the flush of the events
  Program.forEach events updateEvent
  return events

def claimNote (documentId : Nat) : DocumentService.ClaimResult × Option Nat -> Note
  | (.claimed, some version) => .indexClaimed documentId version
  | _ => .unchanged

def indexNote (documentId : Nat) : DocumentService.IndexResult -> Note
  | .indexed => .documentIndexed documentId
  | _ => .unchanged

def failureNote (documentId indexVersion : Nat) : Bool -> Note
  | true => .failureRecorded documentId indexVersion
  | false => .unchanged

def indexDocument (env : Env) (cfg : Settings) (documentId : Nat) (indexVersion : Option Nat)
    (retries : Nat) : Action Unit := do
  let (claimResult, effectiveVersion) ←
    transaction (claimNote documentId) (DocumentService.claimIndex documentId indexVersion)
  match claimResult, effectiveVersion with
  | .claimed, some version => do
      let result ← Program.outcome
        (transaction (indexNote documentId)
          (DocumentService.indexClaimedDocument env cfg documentId version))
      match result with
      | .ok _ => return
      | .error exc => do
          let retryable := Failures.isRetryableIndexError exc
          let shouldRetry := retryable && retries < cfg.indexMaxRetries
          let failureStatus := if shouldRetry then DocumentStatus.pending else .failed
          let _ ← transaction (failureNote documentId version)
            (DocumentService.markIndexFailure documentId version failureStatus
              (Failures.sanitizeIndexError exc))
          if shouldRetry then
            -- `task.retry`: the same arguments again
            send (.indexDocument (.int documentId)
              ((indexVersion.map fun v => Json.int v).getD .null))
          else if retryable then
            raise exc
  | _, _ => return

def deletionNote (documentId : Nat) : Bool -> Note
  | true => .documentRemoved documentId
  | false => .unchanged

/-- The body of `delete_document`; the result tells whether it deleted. -/
def removeDocument (documentId : Nat) : Action Bool := do
  let found ← DocumentService.getLiveForUpdate documentId
  match found with
  | none => return false
  | some document =>
      if document.status ≠ .deleting then
        return false
      deleteObject document.storageKey
      deleteChunks document.id
      -- `await db.delete(document)`, flushed at the commit
      remove document.id
      return true

def deleteDocument (documentId : Nat) : Action Unit := do
  let _ ← transaction (deletionNote documentId) (removeDocument documentId)

def repairStuckDocument (cfg : Settings) : Action Unit := do
  let time ← now
  let (recovered, deletingDocumentIds) ←
    transaction (fun result : List (Nat × Nat) × List Nat =>
        .staleRecovered (result.1.map Prod.fst)) (do
      let recovered ← DocumentService.recoverStaleIndexes (time - cfg.indexStaleSeconds) 100
      let deletingDocumentIds ← DocumentService.getDeletingDocumentIds
      return (recovered, deletingDocumentIds))
  Program.forEach recovered fun (documentId, indexVersion) =>
    send (.indexDocument (.int documentId) (.int indexVersion))
  Program.forEach deletingDocumentIds fun documentId =>
    send (.deleteDocument (.int documentId))

end Tasks

/-!
# The system

Requests, workers, dispatchers and repairers over one database, at first with nothing stored
and no thread started.
-/

inductive Op where
  | createKnowledgeBase (userId : Nat) (name : Text) (description : Option Text)
      (isPublic : Bool)
  | updateKnowledgeBase (pk userId : Nat) (isAdmin : Bool)
      (obj : KnowledgeBaseService.UpdateKnowledgeBaseParam)
  | deleteKnowledgeBase (pk userId : Nat) (isAdmin : Bool)
  | createDocument (cfg : Settings) (knowledgeBaseId userId : Nat) (isAdmin : Bool)
      (filename : Text) (content : Bytes) (mimeType : Option Text)
  | retryDocument (cfg : Settings) (knowledgeBaseId pk userId : Nat) (isAdmin : Bool)
  | requestDelete (knowledgeBaseId pk userId : Nat) (isAdmin : Bool)
  | indexDocument (cfg : Settings) (documentId : Nat) (indexVersion : Option Nat)
      (retries : Nat)
  | deleteDocument (documentId : Nat)
  | dispatchOutbox (cfg : Settings) (limit : Nat)
  | repairStuckDocument (cfg : Settings)

def Op.body (env : Env) : Op -> Action Unit
  | createKnowledgeBase userId name description isPublic => do
      let _ ← transaction Note.knowledgeBaseCreated
        (KnowledgeBaseService.create userId name description isPublic)
  | updateKnowledgeBase pk userId isAdmin obj => do
      let _ ← transaction Note.knowledgeBaseUpdated
        (KnowledgeBaseService.update pk userId isAdmin obj)
  | deleteKnowledgeBase pk userId isAdmin => do
      let _ ← transaction Note.knowledgeBaseDeleted
        (KnowledgeBaseService.delete pk userId isAdmin)
  | createDocument cfg knowledgeBaseId userId isAdmin filename content mimeType => do
      let _ ← transaction (fun (id, event) => Note.documentCreated id event)
        (DocumentService.create env cfg knowledgeBaseId userId isAdmin filename content mimeType)
  | retryDocument cfg knowledgeBaseId pk userId isAdmin => do
      let _ ← transaction (fun (id, event) => Note.documentRetried id event)
        (DocumentService.retry env cfg knowledgeBaseId pk userId isAdmin)
  | requestDelete knowledgeBaseId pk userId isAdmin => do
      let _ ← transaction (fun (id, event) => Note.documentDeleteRequested id event)
        (DocumentService.delete knowledgeBaseId pk userId isAdmin)
  | indexDocument cfg documentId indexVersion retries =>
      Tasks.indexDocument env cfg documentId indexVersion retries
  | deleteDocument documentId => Tasks.deleteDocument documentId
  | dispatchOutbox cfg limit => do
      let _ ← transaction (fun events => Note.eventsDispatched (events.map OutboxEvent.id))
        (Tasks.dispatchOutbox cfg limit)
  | repairStuckDocument cfg => Tasks.repairStuckDocument cfg

def system (env : Env) : System interface State Op where
  toMachine := machine
  body := Op.body env

abbrev RagConfig := Config interface State Op

def initial : RagConfig where
  shared := State.empty
  threads := fun _ => none

end RagService
