import Mathlib.Algebra.Order.Floor.Ring
import Mathlib.Data.Rat.Floor
import RagService.Foundation.Dicts
import RagService.Indexing.Lexical
import RagService.Query.Context
import RagService.Store.Database

/-!
# Retrieval

`QueryService.retrieve`: the knowledge bases that the user may read, the dense and the
lexical candidates, their fusion and reranking, and the sources with their parent texts.
-/

namespace RagService

open Text Lexical

structure RetrieveParam where
  question : Text
  knowledgeBaseIds : List Nat
  topK : Nat

/-- The settings that `retrieve` reads. -/
structure RetrievalSettings where
  parentContextEnabled : Bool
  denseCandidateK : Nat
  lexicalCandidateK : Nat
  rrfK : Nat
  denseRrfWeight : Rat
  lexicalRrfWeight : Rat

structure RerankResult where
  index : Nat
  score : Double

/-- The functions of the database, the providers and float arithmetic. -/
structure Backend where
  /-- `<=>` of pgvector -/
  cosineDistance : Embedding -> Embedding -> Rat
  /-- the chunks that a scan of the vector index finds; it may miss some -/
  indexScan : Db -> Nat -> Embedding -> Chunk -> Bool
  /-- `to_tsvector('simple', search_text) @@ websearch_to_tsquery('simple', query)` -/
  textMatch : Text -> Text -> Bool
  tsRankCd : Text -> Text -> Rat
  /-- the place of a row among those that `ORDER BY` does not tell apart -/
  place : Chunk -> Nat
  /-- the float that stands for a number -/
  float : Rat -> Rat
  embed : List Text -> Except Exception (List Embedding)
  rerank : Text -> List Text -> Except Exception (List RerankResult)

namespace QueryService

/-!
# Authorization

`_accessible_kb_ids`: the live knowledge bases among the requested ones that the user owns or
that are public.
-/

/-- The condition of `_accessible_kb_ids` on a row. -/
def accessible (userId : Nat) (isAdmin : Bool) (requested : List Nat) (kb : KnowledgeBase) :
    Prop :=
  kb.id ∈ requested ∧ kb.deleted = 0 ∧ (isAdmin ∨ kb.ownerId = userId ∨ kb.isPublic)

instance (userId : Nat) (isAdmin : Bool) (requested : List Nat) (kb : KnowledgeBase) :
    Decidable (accessible userId isAdmin requested kb) :=
  inferInstanceAs (Decidable (_ ∧ _ ∧ _))

def accessibleKbIds (db : Db) (n userId : Nat) (isAdmin : Bool) (requested : List Nat) :
    Except Exception (List Nat) :=
  let ids := ((scan db.knowledgeBases n).filter fun kb =>
    accessible userId isAdmin requested kb).map KnowledgeBase.id
  if ids.isEmpty then .error (.notFound "没有可访问的知识库".toList) else .ok ids

/-!
# Candidates

The `base` query joins chunks and documents.  Its conditions filter what the scan of the vector
index has found, which is not exact: which rows it finds is up to the database.
-/

/-- The rows of `rag_chunk`. -/
def allChunks (db : Db) (n : Nat) : List Chunk :=
  (List.range n).flatMap db.chunks

abbrev Candidate := Chunk × Text

/-- What the `base` query makes of a chunk. -/
def candidate (db : Db) (ids : List Nat) (c : Chunk) : Option Candidate :=
  ((db.documents c.documentId).filter fun d =>
    c.knowledgeBaseId ∈ ids ∧ c.deleted = 0 ∧ c.isParent = false ∧ d.status = .ready ∧
      d.deleted = 0).map fun d => (c, d.filename)

def candidates (db : Db) (n : Nat) (ids : List Nat) : List Candidate :=
  (allChunks db n).filterMap (candidate db ids)

/-- A candidate with the column that `add_columns` adds; a distance may be null. -/
abbrev Ranked := Candidate × Option Rat

/-- The order of `ORDER BY distance`, nulls last. -/
def Nearer (b : Backend) (x y : Ranked) : Prop :=
  match x.2, y.2 with
  | some v, some w => v < w ∨ (v = w ∧ b.place x.1.1 ≤ b.place y.1.1)
  | some _, none => True
  | none, some _ => False
  | none, none => b.place x.1.1 ≤ b.place y.1.1

instance (b : Backend) : DecidableRel (Nearer b) := fun x y => by
  unfold Nearer
  split <;> infer_instance

def denseRows (b : Backend) (cfg : RetrievalSettings) (db : Db) (n : Nat) (vector : Embedding)
    (rows : List Candidate) : List Ranked :=
  let found := rows.filter fun row => b.indexScan db n vector row.1
  ((found.map fun row =>
      (row, row.1.embedding.map fun e => b.cosineDistance e vector)).insertionSort
    (Nearer b)).take cfg.denseCandidateK

/-- `Chunk.exact_tokens.overlap(exact_tokens)`; there is no such condition without tokens. -/
def exactMatch (question : Text) (c : Chunk) : Bool :=
  c.exactTokens.any fun token => token ∈ extractExactTokens question

def lexicalRank (env : Env) (b : Backend) (question : Text) (c : Chunk) : Rat :=
  b.float (b.tsRankCd c.searchText (buildWebsearchQuery env question) +
    if exactMatch question c then 10 else 0)

/-- The order of `ORDER BY lexical_rank DESC`. -/
def Stronger (env : Env) (b : Backend) (question : Text) (x y : Candidate) : Prop :=
  lexicalRank env b question y.1 < lexicalRank env b question x.1 ∨
    (lexicalRank env b question y.1 = lexicalRank env b question x.1 ∧ b.place x.1 ≤ b.place y.1)

instance (env : Env) (b : Backend) (question : Text) : DecidableRel (Stronger env b question) :=
  fun _ _ => inferInstanceAs (Decidable (_ ∨ _))

def lexicalRows (env : Env) (b : Backend) (cfg : RetrievalSettings) (question : Text)
    (rows : List Candidate) : List Candidate :=
  ((rows.filter fun row =>
      b.textMatch row.1.searchText (buildWebsearchQuery env question) ||
        exactMatch question row.1).insertionSort (Stronger env b question)).take
    cfg.lexicalCandidateK

/-!
# Fusion

The loops over the dense and the lexical rows, and the scores of `weighted_rrf_scores` for the
merged rows.
-/

structure MergedResult where
  chunk : Chunk
  name : Text
  score : Rat
  dense : Rat
  rerank : Option Double

/-- The loop over the dense rows; `float(None)` raises. -/
def mergeDense (b : Backend) :
    Dict Nat MergedResult -> List Ranked -> Except Exception (Dict Nat MergedResult)
  | merged, [] => .ok merged
  | _, (_, none) :: _ => .error (.other "TypeError".toList)
  | merged, ((chunk, name), some value) :: rest =>
      mergeDense b
        (merged.set chunk.id ⟨chunk, name, 0, max 0 (b.float (1 - value)), none⟩) rest

def mergeLexical (merged : Dict Nat MergedResult) (rows : List Candidate) :
    Dict Nat MergedResult :=
  rows.foldl (fun merged (chunk, name) => merged.setDefault chunk.id ⟨chunk, name, 0, 0, none⟩)
    merged

/-- One of the two loops of `weighted_rrf_scores`. -/
def addRrfScores (b : Backend) (rrfK : Nat) (weight : Rat) (scores : Dict Nat Rat)
    (ids : List Nat) : Dict Nat Rat :=
  (ids.zipIdx 1).foldl (fun scores (id, rank) =>
    scores.set id (b.float ((scores.get id).getD 0 + b.float (weight / (rrfK + rank : Nat)))))
    scores

def weightedRrfScores (b : Backend) (cfg : RetrievalSettings) (denseIds lexicalIds : List Nat) :
    Dict Nat Rat :=
  addRrfScores b cfg.rrfK cfg.lexicalRrfWeight
    (addRrfScores b cfg.rrfK cfg.denseRrfWeight [] denseIds) lexicalIds

/-- `merged[chunk_id]['score'] = score` for each score. -/
def assignScores :
    Dict Nat MergedResult -> Dict Nat Rat -> Except Exception (Dict Nat MergedResult)
  | merged, [] => .ok merged
  | merged, (id, score) :: rest =>
      match merged.get id with
      | some item => assignScores (merged.set id { item with score := score }) rest
      | none => .error (.other "KeyError".toList)

/-- `sorted(merged.values(), key=score, reverse=True)` -/
def sortByScore (items : List MergedResult) : List MergedResult :=
  items.insertionSort fun x y => y.score ≤ x.score

def fuse (env : Env) (b : Backend) (cfg : RetrievalSettings) (db : Db) (n : Nat)
    (question : Text) (vector : Embedding) (rows : List Candidate) :
    Except Exception (List MergedResult) := do
  let dense := denseRows b cfg db n vector rows
  let lexical := lexicalRows env b cfg question rows
  let merged ← mergeDense b [] dense
  let merged ← assignScores (mergeLexical merged lexical)
    (weightedRrfScores b cfg (dense.map fun row => row.1.1.id) (lexical.map fun row => row.1.id))
  return sortByScore merged.values

/-!
# Reranking

The reranker's scores are put to the candidates, which are sorted by them; some of its
exceptions are caught.
-/

/-- `except (httpx.HTTPError, KeyError, TypeError, ValueError)` -/
def degrades : Exception -> Bool
  | .httpStatus _ | .httpTimeout | .httpTransport | .value _ => true
  | .other name => name = "KeyError".toList ∨ name = "TypeError".toList
  | _ => false

/-- The rerank score of a candidate, or `-inf` where it is missing. -/
def MergedResult.rerankKey (item : MergedResult) : Double :=
  item.rerank.getD (.infinite true)

def RerankedBefore (x y : MergedResult) : Prop :=
  y.rerankKey.le x.rerankKey

instance : DecidableRel RerankedBefore := fun _ _ =>
  inferInstanceAs (Decidable (_ = true))

def applyRerank (results : List RerankResult) (ordered : List MergedResult) :
    List MergedResult :=
  if results.isEmpty then ordered
  else
    let byIndex := Dict.ofPairs (results.map fun r => (r.index, r.score))
    (ordered.mapIdx fun i item => { item with rerank := byIndex.get i }).insertionSort
      RerankedBefore

def rerankResults (b : Backend) (question : Text) (ordered : List MergedResult) :
    Except Exception (List MergedResult) :=
  match b.rerank question (ordered.map fun item => item.chunk.contextualContent) with
  | .ok results => .ok (applyRerank results ordered)
  | .error e => if degrades e then .ok (applyRerank [] ordered) else .error e

/-!
# Sources

A source shows the text of the parent of its chunk where there is one, once for each parent.
-/

/-- `item['chunk'].parent_chunk_id or item['chunk'].id` -/
def contextId (c : Chunk) : Nat :=
  match c.parentChunkId with
  | some parentId => if parentId = 0 then c.id else parentId
  | none => c.id

/-- The loop of `_select_context_results`; it breaks when enough items are there. -/
def selectUnique (topK : Nat) :
    List MergedResult -> List Nat -> List MergedResult -> List MergedResult
  | uniqueOrdered, _, [] => uniqueOrdered
  | uniqueOrdered, seenContexts, item :: rest =>
      if contextId item.chunk ∈ seenContexts then
        selectUnique topK uniqueOrdered seenContexts rest
      else if uniqueOrdered.length + 1 = topK then uniqueOrdered ++ [item]
      else
        selectUnique topK (uniqueOrdered ++ [item]) (seenContexts ++ [contextId item.chunk]) rest

def selectContextResults (cfg : RetrievalSettings) (ordered : List MergedResult) (topK : Nat) :
    List MergedResult :=
  if cfg.parentContextEnabled then selectUnique topK [] [] ordered else ordered.take topK

def getParentContent (cfg : RetrievalSettings) (db : Db) (n : Nat)
    (ordered : List MergedResult) : Dict Nat Text :=
  let parentIds := ordered.filterMap fun item => item.chunk.parentChunkId
  if cfg.parentContextEnabled then
    Dict.ofPairs (((allChunks db n).filter fun c =>
      c.id ∈ parentIds ∧ c.isParent ∧ c.deleted = 0).map fun c => (c.id, c.content))
  else []

/-- `round(x, 6)` of an exact number. -/
def roundSix (x : Rat) : Rat :=
  let scaled := x * 1000000
  let below := ⌊scaled⌋
  let rest := scaled - below
  let nearest :=
    if rest < 1 / 2 ∨ (rest = 1 / 2 ∧ below % 2 = 0) then below else below + 1
  nearest / 1000000

def source (b : Backend) (parentContent : Dict Nat Text) (item : MergedResult) (index : Nat) :
    GetSourceDetail where
  knowledgeBaseId := item.chunk.knowledgeBaseId
  documentId := item.chunk.documentId
  documentName := item.name
  chunkId := item.chunk.id
  chunkIndex := item.chunk.chunkIndex
  content := (item.chunk.parentChunkId.bind parentContent.get).getD item.chunk.content
  score := b.float (roundSix item.score)
  rerankScore := item.rerank
  citation := "[S".toList ++ decimal index ++ [']']

/-- `(await embedding_provider.embed([question]))[0]` -/
def embedQuestion (b : Backend) (question : Text) : Except Exception Embedding := do
  match (← b.embed [question]) with
  | vector :: _ => return vector
  | [] => throw (.other "IndexError".toList)

def retrieve (env : Env) (b : Backend) (cfg : RetrievalSettings) (db : Db) (n userId : Nat)
    (isAdmin : Bool) (obj : RetrieveParam) : Except Exception (List GetSourceDetail) := do
  let ids ← accessibleKbIds db n userId isAdmin obj.knowledgeBaseIds
  let vector ← embedQuestion b obj.question
  let ordered ← fuse env b cfg db n obj.question vector (candidates db n ids)
  let ordered ← rerankResults b obj.question ordered
  let ordered := selectContextResults cfg ordered obj.topK
  let parentContent := getParentContent cfg db n ordered
  return (ordered.zipIdx 1).map fun (item, index) => source b parentContent item index

end QueryService
end RagService
