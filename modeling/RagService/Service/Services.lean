import RagService.Indexing.Failures
import RagService.Indexing.Lexical
import RagService.Indexing.Parsing
import RagService.Service.Actions

/-!
# Services

The index profile, outbox, knowledge base and document services.  Each function
runs inside the transaction of its caller.
-/

namespace RagService

open Interleaving RagService.Action

/-!
# Index profiles

The payload describes the parser, the chunker, the tokenizer and the embedding model with the
current settings, and its hash is the key of the row.
-/

namespace IndexProfileService

def buildIndexProfilePayload (cfg : Settings) : IndexProfilePayload where
  parserName := "rag.text.parse_document".toList
  parserVersion := "2".toList
  chunkerName := "rag.chunking.split_text".toList
  chunkerVersion := "2-parent-child".toList
  chunkSize := cfg.chunkSize
  chunkOverlap := cfg.chunkOverlap
  tokenizerName := "jieba".toList
  tokenizerVersion := "0.42.1-exact-array-v3".toList
  embeddingModel := cfg.embeddingModel
  embeddingDimensions := cfg.embeddingDimensions
  embeddingInstruction := none
  lexicalConfig := "postgresql-simple-jieba-websearch-or-exact-array-weighted-rrf-v3".toList

/-- The payload as the keyword arguments of a row, in key order. -/
def payloadFields (p : IndexProfilePayload) : List (Text × Json) :=
  [("chunk_overlap".toList, .int p.chunkOverlap),
    ("chunk_size".toList, .int p.chunkSize),
    ("chunker_name".toList, .str p.chunkerName),
    ("chunker_version".toList, .str p.chunkerVersion),
    ("embedding_dimensions".toList, .int p.embeddingDimensions),
    ("embedding_instruction".toList, (p.embeddingInstruction.map Json.str).getD .null),
    ("embedding_model".toList, .str p.embeddingModel),
    ("lexical_config".toList, .str p.lexicalConfig),
    ("parser_name".toList, .str p.parserName),
    ("parser_version".toList, .str p.parserVersion),
    ("tokenizer_name".toList, .str p.tokenizerName),
    ("tokenizer_version".toList, .str p.tokenizerVersion)]

/-- `sha256(json.dumps(payload, ensure_ascii=False, sort_keys=True).encode()).hexdigest()` -/
def profileHash (env : Env) (p : IndexProfilePayload) : Text :=
  env.sha256 (Text.encode (Json.dumps false (.obj (payloadFields p))))

def getOrCreateIndexProfile (env : Env) (cfg : Settings) : Action Nat := do
  let payload := buildIndexProfilePayload cfg
  let hash := profileHash env payload
  let profile : Option IndexProfile ← select (.indexProfile hash)
  match profile with
  | some profile => return profile.id
  | none => add (.profile { id := 0, profileHash := hash, payload := payload })

end IndexProfileService

/-!
# Outbox

An event is found by its keys or added, and the result is its primary key.
-/

namespace OutboxService

def indexDocumentEvent : Text :=
  "rag.document.index.requested".toList

def deleteDocumentEvent : Text :=
  "rag.document.delete.requested".toList

def newEvent (eventType : Text) (aggregateId : Nat) (payload : Json) (dedupeKey : Text) :
    OutboxEvent where
  id := 0
  eventType := eventType
  aggregateId := aggregateId
  payload := payload.dumps true
  dedupeKey := dedupeKey
  status := .pending
  dispatchAttempts := 0
  lastError := none
  dispatchedTime := none

def enqueue (event : OutboxEvent) : Action Nat := do
  let found : Option OutboxEvent ←
    select (.outboxEvent event.eventType event.aggregateId event.dedupeKey)
  match found with
  | some event => return event.id
  | none => add (.event event)

def indexDedupeKey (documentId indexVersion : Nat) : Text :=
  Text.decimal documentId ++ [':'] ++ Text.decimal indexVersion

def indexPayload (documentId indexVersion : Nat) : Json :=
  .obj [("document_id".toList, .int documentId), ("index_version".toList, .int indexVersion)]

def deletePayload (documentId : Nat) : Json :=
  .obj [("document_id".toList, .int documentId)]

def enqueueDocumentIndex (documentId indexVersion : Nat) : Action Nat :=
  enqueue (newEvent indexDocumentEvent documentId (indexPayload documentId indexVersion)
    (indexDedupeKey documentId indexVersion))

def enqueueDocumentDelete (documentId : Nat) : Action Nat :=
  enqueue (newEvent deleteDocumentEvent documentId (deletePayload documentId)
    (Text.decimal documentId))

def claimPendingEvents (limit : Nat) : Action (List OutboxEvent) :=
  lockEvents limit

def markDispatched (event : OutboxEvent) (now : Nat) : OutboxEvent :=
  { event with
    status := .dispatched
    dispatchAttempts := event.dispatchAttempts + 1
    lastError := none
    dispatchedTime := some now }

def markFailed (event : OutboxEvent) (exc : Exception) (maxAttempts : Nat) : OutboxEvent :=
  { event with
    dispatchAttempts := event.dispatchAttempts + 1
    status := if maxAttempts ≤ event.dispatchAttempts + 1 then .dead else .failed
    lastError := some ((Failures.sanitizeDispatchError exc).take 512) }

end OutboxService

open OutboxService IndexProfileService

/-!
# Knowledge bases

A knowledge base is read by users who may read it and changed by users who may write to it.
-/

namespace KnowledgeBaseService

def get (pk userId : Nat) (isAdmin write : Bool) : Action KnowledgeBase := do
  let data ← loadKnowledgeBase pk userId isAdmin write
  match data with
  | some kb => return kb
  | none => raise (.notFound "知识库不存在或无权访问".toList)

def create (userId : Nat) (name : Text) (description : Option Text) (isPublic : Bool) :
    Action Nat :=
  add (.knowledgeBase
    { id := 0, ownerId := userId, name := Text.strip name, description := description,
      isPublic := isPublic, deleted := 0 })

/-- The fields an update request sets. -/
structure UpdateKnowledgeBaseParam where
  name : Option Text
  description : Option (Option Text)
  isPublic : Option Bool

def update (pk userId : Nat) (isAdmin : Bool) (obj : UpdateKnowledgeBaseParam) :
    Action Nat := do
  let data ← get pk userId isAdmin true
  assignKnowledgeBase data.id fun kb =>
    { kb with
      name := (obj.name.map Text.strip).getD kb.name
      description := obj.description.getD kb.description
      isPublic := obj.isPublic.getD kb.isPublic }
  return data.id

def delete (pk userId : Nat) (isAdmin : Bool) : Action Nat := do
  let data ← get pk userId isAdmin true
  assignKnowledgeBase data.id fun kb => { kb with deleted := data.id }
  let documents ← load (.ofKb data.id)
  Program.forEach documents fun document => do
    assign document.id fun d => { d with status := .deleting }
    let _ ← enqueueDocumentDelete document.id
  return data.id

end KnowledgeBaseService

/-!
# Embedding in batches

A batch that the provider answers with HTTP 400 is halved, at most as often as it has texts.
-/

/--
`embed_batch`: halve a batch that the provider answers with HTTP 400.  A batch of
`n + 1` texts or fewer is halved at most `n` times on every path.
-/
def embedBatch (embed : List Text -> Action (List Embedding)) :
    Nat -> List Text -> Action (List Embedding)
  | n, batch =>
      (embed batch).handle fun (exc : Exception) =>
        if exc ≠ .httpStatus 400 ∨ batch.length = 1 then raise exc
        else
          match n with
          | 0 => raise exc
          | n + 1 => do
              let midpoint := batch.length / 2
              let left ← embedBatch embed n (batch.take midpoint)
              let right ← embedBatch embed n (batch.drop midpoint)
              return left ++ right

/-- `texts[start : start + size] for start in range(0, len(texts), size)` -/
def batches {α : Type} (texts : List α) (size : Nat) : List (List α) :=
  (List.range ((texts.length + size - 1) / size)).map fun i => (texts.drop (i * size)).take size

def embedTextsInBatches (embed : List Text -> Action (List Embedding)) (texts : List Text)
    (batchSize : Nat) : Action (List Embedding) := do
  if batchSize < 1 then
    raise (.value "Embedding 批量大小必须大于 0".toList)
  let vectors ← Program.mapEach (batches texts batchSize) fun batch =>
    embedBatch embed batch.length batch
  return vectors.flatten

/-!
# Documents

Uploads, retries and removals of documents, with their requests in the outbox.
-/

namespace DocumentService

open Chunking Lexical Parsing

def create (env : Env) (cfg : Settings) (knowledgeBaseId userId : Nat) (isAdmin : Bool)
    (filename : Text) (content : Bytes) (mimeType : Option Text) : Action (Nat × Nat) := do
  let kb ← KnowledgeBaseService.get knowledgeBaseId userId isAdmin true
  let suffix := ((Text.afterLast '.' filename).map Text.lowerAscii).getD []
  if suffix ∉ supportedDocumentSuffixes then
    raise (.request "仅支持 .txt、.md、.docx、.pdf 文件".toList)
  if cfg.maxFileSize < content.length then
    raise (.request
      ("文件不能超过 ".toList ++ Text.decimal (cfg.maxFileSize / 1024 / 1024) ++ "MB".toList))
  let digest := env.sha256 content
  let storageKey := Text.decimal kb.id ++ ['/'] ++ digest ++ ['.'] ++ suffix
  putObject storageKey content
  let profileId ← getOrCreateIndexProfile env cfg
  let id ← add (.document
    { id := 0, knowledgeBaseId := kb.id, filename := filename, fileType := suffix,
      mimeType := mimeType, storageKey := storageKey, fileSize := content.length,
      contentHash := digest, parsedContent := none, status := .pending, errorMessage := none,
      chunkCount := 0, indexVersion := 1, indexProfileId := some profileId, createdTime := 0,
      updatedTime := none, deleted := 0 })
  let event ← enqueueDocumentIndex id 1
  return (id, event)

def get (knowledgeBaseId pk userId : Nat) (isAdmin write : Bool) : Action Document := do
  let _ ← KnowledgeBaseService.get knowledgeBaseId userId isAdmin write
  let data ← load (.inKb pk knowledgeBaseId)
  match data with
  | document :: _ => return document
  | [] => raise (.notFound "文档不存在".toList)

def retry (env : Env) (cfg : Settings) (knowledgeBaseId pk userId : Nat) (isAdmin : Bool) :
    Action (Nat × Nat) := do
  let data ← get knowledgeBaseId pk userId isAdmin true
  assign data.id fun d =>
    { d with status := .pending, errorMessage := none, indexVersion := d.indexVersion + 1 }
  let profileId ← getOrCreateIndexProfile env cfg
  assign data.id fun d => { d with indexProfileId := some profileId }
  let event ← enqueueDocumentIndex data.id (data.indexVersion + 1)
  return (data.id, event)

def delete (knowledgeBaseId pk userId : Nat) (isAdmin : Bool) : Action (Nat × Nat) := do
  let data ← get knowledgeBaseId pk userId isAdmin true
  assign data.id fun d => { d with status := .deleting }
  let event ← enqueueDocumentDelete data.id
  return (data.id, event)

def getLiveForUpdate (pk : Nat) : Action (Option Document) := do
  let documents ← lock (.live pk)
  return documents.head?

/-!
# Indexing

`index_content` makes the rows of the parents, numbered from one, and of the retrieval chunks
under them; the claim before and the record of a failure after it have transactions of their
own.
-/

/-- The row of a parent chunk; parents are numbered from one. -/
def parentChunk (env : Env) (document : Document) (parentIndex : Nat)
    (parent : ParentChildChunks) : Chunk where
  id := 0
  knowledgeBaseId := document.knowledgeBaseId
  documentId := document.id
  chunkIndex := -(parentIndex : Int)
  content := parent.parentContent
  contextualContent :=
    contextualizeChunk document.filename parent.headingPath parent.parentContent
  searchText := []
  exactTokens := []
  contentHash := env.sha256 (Text.encode parent.parentContent)
  charCount := parent.parentContent.length
  tokenCount := max (parent.parentContent.length / 4) 1
  embedding := none
  indexVersion := document.indexVersion
  parentChunkId := none
  isParent := true
  headingPath := parent.headingPath
  deleted := 0

/-- A retrieval chunk of a document: its section, by position, and its text. -/
structure ChildPiece where
  parentIndex : Nat
  parent : ParentChildChunks
  piece : Text

def childPieces (parents : List ParentChildChunks) : List ChildPiece :=
  parents.zipIdx.flatMap fun (parent, i) => parent.children.map fun piece => ⟨i, parent, piece⟩

def ChildPiece.contextualized (document : Document) (child : ChildPiece) : Text :=
  contextualizeChunk document.filename child.parent.headingPath child.piece

def childChunk (env : Env) (document : Document) (parentIds : List Nat) (index : Nat)
    (child : ChildPiece) (vector : Embedding) : Chunk where
  id := 0
  knowledgeBaseId := document.knowledgeBaseId
  documentId := document.id
  chunkIndex := index
  content := child.piece
  contextualContent := child.contextualized document
  searchText := tokenizeSearchText env (child.contextualized document)
  exactTokens := extractExactTokens (child.contextualized document)
  contentHash := env.sha256 (Text.encode child.piece)
  charCount := child.piece.length
  tokenCount := max (child.piece.length / 4) 1
  embedding := some vector
  indexVersion := document.indexVersion
  -- `parent_ids[id(parent)]`: parents are told apart by position
  parentChunkId := parentIds[child.parentIndex]?
  isParent := false
  headingPath := child.parent.headingPath
  deleted := 0

def parentChunks (env : Env) (document : Document) (parents : List ParentChildChunks) :
    List Chunk :=
  parents.mapIdx fun i parent => parentChunk env document (i + 1) parent

def childChunks (env : Env) (document : Document) (parentIds : List Nat)
    (children : List ChildPiece) (vectors : List Embedding) : List Chunk :=
  (children.zip vectors).mapIdx fun i (child, vector) =>
    childChunk env document parentIds i child vector

def indexContent (env : Env) (cfg : Settings) (document : Document) (content : Bytes) :
    Action Unit := do
  assign document.id fun d => { d with status := .processing }
  let text ← ofExcept (parseDocument env cfg document.filename content)
  let parents := splitParentChildText text cfg.chunkSize cfg.chunkOverlap
  if parents.isEmpty then
    raise (.value "文档没有可索引正文".toList)
  let children := childPieces parents
  let vectors ← embedTextsInBatches (embed cfg.embeddingDimensions)
    (children.map (ChildPiece.contextualized document)) cfg.embeddingBatchSize
  deleteChunks document.id
  flush
  let parentIds ← insertChunks document.id (parentChunks env document parents)
  -- `zip(children, vectors, strict=True)`
  if children.length ≠ vectors.length then
    raise (.value "zip() argument 2 has a different length".toList)
  let _ ← insertChunks document.id (childChunks env document parentIds children vectors)
  assign document.id fun d =>
    { d with
      parsedContent := some text
      chunkCount := children.length
      status := .ready
      errorMessage := none }

/-- What `claim_index` answers. -/
inductive ClaimResult where
  | documentNotFound
  | staleIndexRequest
  | alreadyReady
  | alreadyProcessing
  | deleteRequested
  | indexFailed
  | claimed
  deriving DecidableEq

def claimIndex (documentId : Nat) (indexVersion : Option Nat) :
    Action (ClaimResult × Option Nat) := do
  let found ← getLiveForUpdate documentId
  match found with
  | none => return (.documentNotFound, none)
  | some document =>
      let effectiveVersion := document.indexVersion
      if indexVersion.any fun v => effectiveVersion ≠ v then
        return (.staleIndexRequest, some effectiveVersion)
      match document.status with
      | .ready => return (.alreadyReady, some effectiveVersion)
      | .processing => return (.alreadyProcessing, some effectiveVersion)
      | .deleting => return (.deleteRequested, some effectiveVersion)
      | .failed => return (.indexFailed, some effectiveVersion)
      | .pending => do
          assign document.id fun d => { d with status := .processing, errorMessage := none }
          return (.claimed, some effectiveVersion)

/-- What `index_claimed_document` answers. -/
inductive IndexResult where
  | documentNotFound
  | staleIndexRequest
  | indexed

def indexClaimedDocument (env : Env) (cfg : Settings) (documentId indexVersion : Nat) :
    Action IndexResult := do
  let found ← getLiveForUpdate documentId
  match found with
  | none => return .documentNotFound
  | some document =>
      if document.indexVersion ≠ indexVersion then
        return .staleIndexRequest
      if document.status ≠ .processing then
        -- `document.status.value`: the loaded value is a `str`
        raise (.other "AttributeError".toList)
      let content ← getObject document.storageKey
      indexContent env cfg document content
      return .indexed

def markIndexFailure (documentId indexVersion : Nat) (status : DocumentStatus)
    (errorMessage : Text) : Action Bool := do
  if status ≠ .pending ∧ status ≠ .failed then
    raise (.value "索引失败只能更新为 PENDING 或 FAILED".toList)
  let found ← getLiveForUpdate documentId
  match found with
  | none => return false
  | some document =>
      if document.indexVersion ≠ indexVersion then
        return false
      if document.status = .ready ∨ document.status = .deleting then
        return false
      assign document.id fun d =>
        { d with status := status, errorMessage := some (errorMessage.take 512) }
      return true

def recoverStaleIndexes (staleBefore limit : Nat) : Action (List (Nat × Nat)) := do
  let documents ← lock (.stale staleBefore limit)
  let recoveredTime ← now
  Program.forEach documents fun document =>
    assign document.id fun d =>
      { d with
        status := .pending
        errorMessage := some "索引任务超时，已重新排队".toList
        updatedTime := some recoveredTime }
  return documents.map fun document => (document.id, document.indexVersion)

def getDeletingDocumentIds : Action (List Nat) :=
  select (.documentIdsByStatus .deleting)

end DocumentService
end RagService
