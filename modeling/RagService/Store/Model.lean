import Mathlib.Algebra.Order.Ring.Rat
import RagService.Foundation.Json

/-!
# Rows, settings and exceptions

The tables of the retrieval service with the columns its code reads or writes,
the process settings, and the exceptions that its code tells apart.
-/

namespace RagService

abbrev Embedding := List Rat

inductive DocumentStatus where
  | pending
  | processing
  | ready
  | failed
  | deleting
  deriving DecidableEq

def DocumentStatus.value : DocumentStatus -> Text
  | pending => "PENDING".toList
  | processing => "PROCESSING".toList
  | ready => "READY".toList
  | failed => "FAILED".toList
  | deleting => "DELETING".toList

inductive OutboxStatus where
  | pending
  | dispatched
  | failed
  | dead
  deriving DecidableEq

/-!
# Tables

The tables `rag_knowledge_base`, `rag_document`, `rag_chunk`, `rag_index_profile` and
`rag_outbox_event`, and the messages of the broker with their arguments.
-/

structure KnowledgeBase where
  id : Nat
  ownerId : Nat
  name : Text
  description : Option Text
  isPublic : Bool
  deleted : Nat
  deriving DecidableEq

structure Document where
  id : Nat
  knowledgeBaseId : Nat
  filename : Text
  fileType : Text
  mimeType : Option Text
  storageKey : Text
  fileSize : Nat
  contentHash : Text
  parsedContent : Option Text
  status : DocumentStatus
  errorMessage : Option Text
  chunkCount : Nat
  indexVersion : Nat
  indexProfileId : Option Nat
  createdTime : Nat
  updatedTime : Option Nat
  deleted : Nat
  deriving DecidableEq

structure Chunk where
  id : Nat
  knowledgeBaseId : Nat
  documentId : Nat
  chunkIndex : Int
  content : Text
  contextualContent : Text
  searchText : Text
  exactTokens : List Text
  contentHash : Text
  charCount : Nat
  tokenCount : Nat
  embedding : Option Embedding
  indexVersion : Nat
  parentChunkId : Option Nat
  isParent : Bool
  headingPath : List Text
  deleted : Nat
  deriving DecidableEq

/-- The columns of `rag_index_profile` that describe an indexing configuration. -/
structure IndexProfilePayload where
  parserName : Text
  parserVersion : Text
  chunkerName : Text
  chunkerVersion : Text
  chunkSize : Nat
  chunkOverlap : Nat
  tokenizerName : Text
  tokenizerVersion : Text
  embeddingModel : Text
  embeddingDimensions : Nat
  embeddingInstruction : Option Text
  lexicalConfig : Text
  deriving DecidableEq

structure IndexProfile where
  id : Nat
  profileHash : Text
  payload : IndexProfilePayload
  deriving DecidableEq

structure OutboxEvent where
  id : Nat
  eventType : Text
  aggregateId : Nat
  payload : Text
  dedupeKey : Text
  status : OutboxStatus
  dispatchAttempts : Nat
  lastError : Option Text
  dispatchedTime : Option Nat
  deriving DecidableEq

inductive Message where
  | indexDocument (documentId indexVersion : Json)
  | deleteDocument (documentId : Json)

/-!
# Settings and exceptions

The settings of `core/conf.py` that the code reads, the classes of exceptions that handlers
tell apart, and the library functions that are outside of the repository.
-/

structure Settings where
  chunkSize : Nat
  chunkOverlap : Nat
  embeddingModel : Text
  embeddingDimensions : Nat
  embeddingBatchSize : Nat
  maxFileSize : Nat
  pdfMaxPages : Nat
  pdfMaxTextChars : Nat
  indexMaxRetries : Nat
  indexStaleSeconds : Nat
  outboxMaxDispatchAttempts : Nat

inductive Exception where
  /-- `httpx.HTTPStatusError` with its status code -/
  | httpStatus (code : Nat)
  /-- `httpx.TimeoutException` -/
  | httpTimeout
  /-- `httpx.TransportError` -/
  | httpTransport
  /-- `SQLAlchemyError` -/
  | database
  | fileNotFound
  /-- `OSError` other than `FileNotFoundError` -/
  | os
  /-- `ValueError` with its message -/
  | value (message : Text)
  /-- `errors.RequestError` -/
  | request (msg : Text)
  /-- `errors.NotFoundError` -/
  | notFound (msg : Text)
  /-- `errors.ServerError` -/
  | server (msg : Text)
  /-- any other class, by name -/
  | other (name : Text)
  deriving DecidableEq

/-- The library functions the service calls that are outside the repository. -/
structure Env where
  /-- `hashlib.sha256(data).hexdigest()` -/
  sha256 : Bytes -> Text
  /-- The paragraph texts of a `.docx` file. -/
  docxParagraphs : Bytes -> Except Exception (List Text)
  /-- What `pypdf` reads: whether the file is encrypted, and the text of each page. -/
  pdfPages : Bytes -> Except Exception (Bool × List Text)
  /-- `jieba.lcut(text, HMM=False)` -/
  jiebaCut : Text -> List Text
  /-- `str.casefold` and `str.isalnum`, by the Unicode tables of the interpreter. -/
  casefold : Text -> Text
  isAlnum : Char -> Bool

end RagService
