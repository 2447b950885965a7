import RagService.Discipline.Runs
import RagService.Indexing.Sections

/-!
# Chunk sets

The chunks of a document are those of one index run, numbered and linked as the run
left them, and they agree with the row of a document that is ready.
-/

namespace RagService

open Interleaving Interleaving.Discipline DocumentService Chunking

/-!
# The rows of one index run

A column that depends only on the position of its row.
-/

theorem mem_numberChunks {first : Nat} {rows : List Chunk} {c : Chunk} :
    c ∈ numberChunks first rows ↔
      exists i, exists row : Chunk, rows[i]? = some row ∧ c = { row with id := first + i } := by
  unfold numberChunks
  rw [List.mem_mapIdx]
  constructor
  · intro h
    rcases h with ⟨i, hi, rfl⟩
    exact ⟨i, rows[i], List.getElem?_eq_getElem hi, rfl⟩
  · intro h
    rcases h with ⟨i, row, hrow, rfl⟩
    rcases List.getElem?_eq_some_iff.mp hrow with ⟨hi, rfl⟩
    exact ⟨i, hi, rfl⟩

theorem length_numberChunks (first : Nat) (rows : List Chunk) :
    (numberChunks first rows).length = rows.length := by
  simp [numberChunks]

theorem chunkIndex_numberChunks (first : Nat) (rows : List Chunk) :
    (numberChunks first rows).map Chunk.chunkIndex = rows.map Chunk.chunkIndex := by
  apply List.ext_getElem
  · simp [numberChunks]
  · intro i h h'
    simp [numberChunks]

theorem map_mapIdx_of_index {α β γ : Type} {f : Nat -> α -> β} {column : β -> γ}
    {value : Nat -> γ} (l : List α) (h : forall i a, column (f i a) = value i) :
    (l.mapIdx f).map column = (List.range (l.mapIdx f).length).map value := by
  apply List.ext_getElem
  · simp
  · intro i hi hi'
    simp [h]

theorem mem_childPieces {parents : List ParentChildChunks} {child : ChildPiece}
    (h : child ∈ childPieces parents) : parents[child.parentIndex]? = some child.parent := by
  unfold childPieces at h
  rcases List.mem_flatMap.mp h with ⟨⟨parent, i⟩, hparent, hchild⟩
  rcases List.mem_map.mp hchild with ⟨piece, -, rfl⟩
  exact List.mem_zipIdx_iff_getElem?.mp hparent

theorem childPieces_ne_nil {parents : List ParentChildChunks} (hne : parents ≠ [])
    (hchildren : forall p, p ∈ parents -> p.children ≠ []) : childPieces parents ≠ [] := by
  cases parents with
  | nil => exact absurd rfl hne
  | cons p ps =>
      cases hpieces : p.children with
      | nil => exact absurd hpieces (hchildren p List.mem_cons_self)
      | cons piece pieces =>
          simp [childPieces, List.zipIdx_cons, hpieces]

namespace IndexRun

variable {env : Env} {d : Document} {run : IndexRun} {c : Chunk}

theorem mem_parentRows :
    c ∈ run.parentRows env d ↔ exists i p, run.parents[i]? = some p ∧
      c = { parentChunk env d (i + 1) p with id := run.firstParent + i } := by
  unfold parentRows
  rw [mem_numberChunks]
  constructor
  · intro h
    rcases h with ⟨i, row, hrow, rfl⟩
    simp only [parentChunks, List.getElem?_mapIdx, Option.map_eq_some_iff] at hrow
    rcases hrow with ⟨p, hp, rfl⟩
    exact ⟨i, p, hp, rfl⟩
  · intro h
    rcases h with ⟨i, p, hp, rfl⟩
    exact ⟨i, _, by simp [parentChunks, hp], rfl⟩

theorem mem_childRows (h : c ∈ run.childRows env d) :
    exists i child vector, child ∈ run.children ∧
      c = { childChunk env d ((run.parentRows env d).map Chunk.id) i child vector with
        id := run.firstChild + i } := by
  unfold childRows at h
  rw [mem_numberChunks] at h
  rcases h with ⟨i, row, hrow, rfl⟩
  simp only [childChunks, List.getElem?_mapIdx, Option.map_eq_some_iff] at hrow
  rcases hrow with ⟨⟨child, vector⟩, hpair, rfl⟩
  exact ⟨i, child, vector, (List.of_mem_zip (List.mem_of_getElem? hpair)).1, rfl⟩

theorem parentRows_id {i : Nat} {p : ParentChildChunks} (hp : run.parents[i]? = some p) :
    ((run.parentRows env d).map Chunk.id)[i]? = some (run.firstParent + i) := by
  simp [parentRows, numberChunks, parentChunks, hp]

end IndexRun

/-!
# The shape of a chunk set

The rows of a run that went through are numbered and linked in one way.
-/

/-- The chunks of a document as one index run numbers and links them. -/
structure ChunkSet (documentId version : Nat) (parents children : List Chunk) : Prop where
  parentIndexes : parents.map Chunk.chunkIndex =
    (List.range parents.length).map fun i : Nat => -((i : Int) + 1)
  childIndexes : children.map Chunk.chunkIndex =
    (List.range children.length).map fun i : Nat => (i : Int)
  child : 1 ≤ children.length
  parentKind : forall c, c ∈ parents -> c.isParent = true
  childKind : forall c, c ∈ children -> c.isParent = false
  row : forall c, c ∈ parents ++ children ->
    c.indexVersion = version ∧ c.documentId = documentId
  linked : forall c, c ∈ children -> exists p, p ∈ parents ∧
    c.parentChunkId = some p.id ∧ c.headingPath = p.headingPath

def PositiveChunkSize (cfg : Settings) : Prop :=
  1 ≤ cfg.chunkSize

namespace IndexRun

variable {env : Env} {allowed : Settings -> Prop} {d : Document} {run : IndexRun}

theorem Valid.children_ne_nil (hvalid : run.Valid env allowed d)
    (hsize : PositiveChunkSize run.cfg) : run.children ≠ [] :=
  childPieces_ne_nil hvalid.parents fun _ hp => Chunking.children_ne_nil hsize hp

theorem Valid.length_childRows (hvalid : run.Valid env allowed d) :
    (run.childRows env d).length = run.children.length := by
  simp [childRows, length_numberChunks, childChunks, hvalid.vectors]

theorem isParent_childRows {c : Chunk} (h : c ∈ run.childRows env d) : c.isParent = false := by
  rcases mem_childRows h with ⟨i, child, vector, -, rfl⟩
  rfl

theorem isParent_parentRows {c : Chunk} (h : c ∈ run.parentRows env d) : c.isParent = true := by
  rcases mem_parentRows.mp h with ⟨i, p, -, rfl⟩
  rfl

theorem row_of_mem {c : Chunk} (h : c ∈ run.rows env d) :
    c.indexVersion = d.indexVersion ∧ c.documentId = d.id := by
  rcases List.mem_append.mp h with hparent | hchild
  · rcases mem_parentRows.mp hparent with ⟨i, p, -, rfl⟩
    exact ⟨rfl, rfl⟩
  · rcases mem_childRows hchild with ⟨i, child, vector, -, rfl⟩
    exact ⟨rfl, rfl⟩

theorem linked_of_mem {c : Chunk} (h : c ∈ run.childRows env d) :
    exists p, p ∈ run.parentRows env d ∧ c.parentChunkId = some p.id ∧
      c.headingPath = p.headingPath := by
  rcases mem_childRows h with ⟨i, child, vector, hchild, rfl⟩
  have hparent : run.parents[child.parentIndex]? = some child.parent := mem_childPieces hchild
  exact ⟨_, mem_parentRows.mpr ⟨child.parentIndex, child.parent, hparent, rfl⟩,
    parentRows_id hparent, rfl⟩

theorem Valid.chunkSet (hvalid : run.Valid env allowed d) (hsize : PositiveChunkSize run.cfg) :
    ChunkSet d.id d.indexVersion (run.parentRows env d) (run.childRows env d) where
  parentIndexes := by
    rw [parentRows, chunkIndex_numberChunks, length_numberChunks]
    exact map_mapIdx_of_index _ (fun _ _ => rfl)
  childIndexes := by
    rw [childRows, chunkIndex_numberChunks, length_numberChunks]
    exact map_mapIdx_of_index _ (fun _ _ => rfl)
  child := by
    rw [hvalid.length_childRows]
    exact List.length_pos_iff.mpr (hvalid.children_ne_nil hsize)
  parentKind := fun _ => isParent_parentRows
  childKind := fun _ => isParent_childRows
  row := fun _ => row_of_mem
  linked := fun _ => linked_of_mem

end IndexRun

/-!
# Chunk sets along runs

A commit replaces the chunks of a document by those of one run, or leaves them alone.
-/

def Db.ChunksOfRuns (env : Env) (allowed : Settings -> Prop) (db : Db) : Prop :=
  forall i, db.chunks i = [] ∨ exists (base : Document) (run : IndexRun),
    base.id = i ∧ run.Valid env allowed base ∧ db.chunks i = run.rows env base

section

variable {env : Env} {allowed : Settings -> Prop} {s : State} {t : Nat} {σ : Session}
variable {note : Note} {C : System.Condition (system env)} {last : RagConfig}

/-- A commit replaces the chunks of a document by those of one run, or leaves them alone. -/
theorem Session.Effect.chunksOfRuns (hinv : s.Inv allowed) (hσ : s.sessions t = some σ)
    (hclean : σ.Clean) (heffect : σ.Effect env allowed s t note)
    (h : s.db.ChunksOfRuns env allowed) :
    (s.db.install σ.writes).ChunksOfRuns env allowed := by
  intro i
  rcases heffect.chunks_cases (hinv.session t σ hσ).documents hclean i with
    ⟨-, hold⟩ | ⟨-, hempty, -⟩ | ⟨-, base, run, now, hbase, hvalid, hrows, -⟩
  · rw [hold]
    exact h i
  · exact .inl hempty
  · exact .inr ⟨base, run, (hinv.coherent.document i base hbase).1, hvalid, hrows⟩

theorem reaches_chunksOfRuns (hstarts : forall op, C.starts op -> op.Allowed allowed)
    (hrun : System.Reaches (system env) C initial last) :
    last.shared.db.ChunksOfRuns env allowed := by
  refine commits_preserve hstarts (fun s => s.db.ChunksOfRuns env allowed) ?_ ?_ initial_sound
    (fun i => .inl rfl) hrun
  · intro s s' hdb _ h
    rw [hdb]
    exact h
  · intro cfg t note now vectors σ hinv hσ hclean heffect _ h
    exact heffect.chunksOfRuns hinv hσ hclean h

end

/-- Chunk sets are replaced atomically. -/
theorem chunk_sets_of_one_run {env : Env} {last : RagConfig}
    (hrun : System.Reaches (system env) (allowedRuns env PositiveChunkSize) initial last)
    (i : Nat) :
    last.shared.db.chunks i = [] ∨ exists (base : Document) (run : IndexRun),
      run.Valid env PositiveChunkSize base ∧
      last.shared.db.chunks i = run.parentRows env base ++ run.childRows env base ∧
      ChunkSet i base.indexVersion (run.parentRows env base) (run.childRows env base) := by
  rcases reaches_chunksOfRuns (fun _ h => h) hrun i with hempty | ⟨base, run, hid, hvalid, hrows⟩
  · exact .inl hempty
  · refine .inr ⟨base, run, hvalid, hrows, ?_⟩
    rw [← hid]
    exact hvalid.chunkSet hvalid.allowed

/-!
# A sample run

User 1 creates knowledge base 1 and uploads document 3 into it, a file with the content `a`,
which a worker with the default settings indexes.
-/

namespace Sample

def settings : Settings where
  chunkSize := 600
  chunkOverlap := 80
  embeddingModel := "text-embedding-v3".toList
  embeddingDimensions := 1
  embeddingBatchSize := 10
  maxFileSize := 20971520
  pdfMaxPages := 100
  pdfMaxTextChars := 1000000
  indexMaxRetries := 3
  indexStaleSeconds := 900
  outboxMaxDispatchAttempts := 10

def content : Bytes :=
  [97]

def env : Env where
  sha256 := fun data =>
    if data = content then
      "ca978112ca1bbdcafac231b39a23dc4da786eff8147c4e72b9807785afee48bb".toList
    else
      "261bbd0df671cffd38b08e8e7be349a9cc511ca98ae9ef316e695c5e66f5e0ac".toList
  docxParagraphs := fun _ => .error (.other "BadZipFile".toList)
  pdfPages := fun _ => .error (.other "PdfReadError".toList)
  jiebaCut := fun text => text.map fun c => [c]
  casefold := Text.lowerAscii
  isAlnum := Lexical.isAsciiAlnum

def go (t n : Nat) : List (Label Op Choice) :=
  List.replicate n (.step t (.proceed 0 [[1]]))

def start (t : Nat) (op : Op) (n : Nat) : List (Label Op Choice) :=
  .start t op :: go t n

def upload : List (Label Op Choice) :=
  start 0 (.createKnowledgeBase 1 "kb".toList none false) 7 ++
    start 1 (.createDocument settings 1 1 false "a.txt".toList content none) 17

def index (t version : Nat) : List (Label Op Choice) :=
  start t (.indexDocument settings 3 (some version) 0) 22

def retry (t n : Nat) : List (Label Op Choice) :=
  start t (.retryDocument settings 1 3 1 false) n

end Sample

instance : DecidablePred PositiveChunkSize :=
  fun cfg => inferInstanceAs (Decidable (1 ≤ cfg.chunkSize))

theorem chunk_sets_of_one_run_upload : exists last : RagConfig,
    (last.shared.db.chunks 3).length = 2 ∧
      (last.shared.db.chunks 3 = [] ∨ exists (base : Document) (run : IndexRun),
        run.Valid Sample.env PositiveChunkSize base ∧
        last.shared.db.chunks 3 =
          run.parentRows Sample.env base ++ run.childRows Sample.env base ∧
        ChunkSet 3 base.indexVersion (run.parentRows Sample.env base)
          (run.childRows Sample.env base)) := by
  rcases System.exists_reaches (allowedRuns Sample.env PositiveChunkSize)
    initial (Sample.upload ++ Sample.index 2 1)
    (fun last : RagConfig => (last.shared.db.chunks 3).length = 2) (by decide +kernel) with
    ⟨last, hrun, hlength⟩
  exact ⟨last, hlength, chunk_sets_of_one_run hrun 3⟩

end RagService
