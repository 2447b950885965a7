import RagService.Query.Retrieve

/-!
# What a retrieval reads

The sources are about candidate chunks, whose parents are found among the chunks of the
same document, and the candidates belong to knowledge bases that the user may read.
-/

namespace RagService

namespace QueryService

/-!
# Filed chunks

Keys are unique, and a chunk belongs to its document, where its parent is too.  Whether a
request is refused depends on the readable knowledge bases alone.
-/

/-- Keys are unique, and a chunk belongs to its document, where its parent is too. -/
structure Filed (db : Db) (n : Nat) : Prop where
  knowledgeBase : forall i kb, db.knowledgeBases i = some kb -> kb.id = i ∧ i < n
  document : forall d row, db.documents d = some row -> d < n
  chunk : forall d c, c ∈ db.chunks d -> c.documentId = d ∧
    exists row, db.documents d = some row ∧ row.knowledgeBaseId = c.knowledgeBaseId
  linked : forall d c, c ∈ db.chunks d -> c.isParent = false ->
    exists p, p ∈ db.chunks d ∧ c.parentChunkId = some p.id
  owned : forall d d' c c', c ∈ db.chunks d -> c' ∈ db.chunks d' -> c.id = c'.id -> d = d'

def Readable (db : Db) (userId : Nat) (isAdmin : Bool) (requested : List Nat) (k : Nat) : Prop :=
  exists kb, db.knowledgeBases k = some kb ∧ accessible userId isAdmin requested kb

section

variable {db db' : Db} {n n' userId : Nat} {isAdmin : Bool} {requested ids ids' : List Nat}

theorem mem_accessibleKbIds (hfiled : Filed db n)
    (h : accessibleKbIds db n userId isAdmin requested = .ok ids) {k : Nat} :
    k ∈ ids ↔ Readable db userId isAdmin requested k := by
  unfold accessibleKbIds at h
  dsimp only at h
  split at h
  · cases h
  · cases h
    rw [List.mem_map]
    constructor
    · intro h
      rcases h with ⟨kb, hkb, rfl⟩
      rw [List.mem_filter, scan, List.mem_filterMap] at hkb
      rcases hkb with ⟨⟨i, -, hi⟩, haccessible⟩
      rw [(hfiled.knowledgeBase i kb hi).1]
      exact ⟨kb, hi, of_decide_eq_true haccessible⟩
    · intro h
      rcases h with ⟨kb, hkb, haccessible⟩
      rcases hfiled.knowledgeBase k kb hkb with ⟨hid, hlt⟩
      exists kb
      constructor
      · rw [List.mem_filter, scan, List.mem_filterMap]
        exact ⟨⟨k, List.mem_range.mpr hlt, hkb⟩, decide_eq_true haccessible⟩
      · exact hid

theorem accessibleKbIds_cases (hfiled : Filed db n) (userId : Nat) (isAdmin : Bool)
    (requested : List Nat) :
    (accessibleKbIds db n userId isAdmin requested =
        .error (.notFound "没有可访问的知识库".toList) ∧
      forall k, ¬ Readable db userId isAdmin requested k) ∨
    exists ids, accessibleKbIds db n userId isAdmin requested = .ok ids ∧
      (exists k, Readable db userId isAdmin requested k) ∧
      forall k, k ∈ ids ↔ Readable db userId isAdmin requested k := by
  cases h : accessibleKbIds db n userId isAdmin requested with
  | ok ids =>
      have hmem := fun k => mem_accessibleKbIds (k := k) hfiled h
      refine .inr ⟨ids, rfl, ?_, hmem⟩
      unfold accessibleKbIds at h
      dsimp only at h
      split at h
      · cases h
      · rename_i hne
        cases h
        rw [List.isEmpty_iff] at hne
        rcases List.exists_mem_of_ne_nil _ hne with ⟨k, hk⟩
        exact ⟨k, (hmem k).mp hk⟩
  | error e =>
      unfold accessibleKbIds at h
      dsimp only at h
      split at h
      · rename_i hempty
        cases h
        refine .inl ⟨rfl, fun k hk => ?_⟩
        rcases hk with ⟨kb, hkb, haccessible⟩
        rcases hfiled.knowledgeBase k kb hkb with ⟨-, hlt⟩
        rw [List.isEmpty_iff, List.map_eq_nil_iff, List.filter_eq_nil_iff] at hempty
        apply hempty kb
        · rw [scan, List.mem_filterMap]
          exact ⟨k, List.mem_range.mpr hlt, hkb⟩
        · exact decide_eq_true haccessible
      · cases h

/-!
# Candidates

A candidate is a retrieval chunk of a ready document in one of the knowledge bases.
-/

theorem mem_allChunks (hfiled : Filed db n) {c : Chunk} :
    c ∈ allChunks db n ↔ exists d, c ∈ db.chunks d := by
  unfold allChunks
  rw [List.mem_flatMap]
  constructor
  · intro h
    rcases h with ⟨d, -, hc⟩
    exact ⟨d, hc⟩
  · intro h
    rcases h with ⟨d, hc⟩
    rcases hfiled.chunk d c hc with ⟨-, row, hrow, -⟩
    exact ⟨d, List.mem_range.mpr (hfiled.document d row hrow), hc⟩

structure IsCandidate (db : Db) (ids : List Nat) (x : Candidate) (row : Document) : Prop where
  chunk : x.1 ∈ db.chunks x.1.documentId
  document : db.documents x.1.documentId = some row
  knowledgeBase : row.knowledgeBaseId = x.1.knowledgeBaseId
  filename : x.2 = row.filename
  accessible : x.1.knowledgeBaseId ∈ ids
  child : x.1.isParent = false
  kept : x.1.deleted = 0
  ready : row.status = .ready
  live : row.deleted = 0

theorem isCandidate_of_candidate (hfiled : Filed db n) {d : Nat} {c : Chunk} {x : Candidate}
    (hc : c ∈ db.chunks d) (h : candidate db ids c = some x) :
    x.1 = c ∧ exists row, IsCandidate db ids x row := by
  rcases Option.map_eq_some_iff.mp h with ⟨row, hrow, rfl⟩
  rw [Option.filter_eq_some_iff, decide_eq_true_eq] at hrow
  rcases hrow with ⟨hdocument, haccessible, hdeleted, hchild, hready, hlive⟩
  rcases hfiled.chunk d c hc with ⟨hid, row', hrow', hkb⟩
  refine ⟨rfl, row, ?_⟩
  rw [← hid, hdocument, Option.some.injEq] at hrow'
  subst hrow'
  rw [← hid] at hc
  exact ⟨hc, hdocument, hkb, rfl, haccessible, hchild, hdeleted, hready, hlive⟩

theorem mem_candidates (hfiled : Filed db n) {x : Candidate} (h : x ∈ candidates db n ids) :
    exists row, IsCandidate db ids x row := by
  rcases List.mem_filterMap.mp h with ⟨c, hc, hx⟩
  rcases (mem_allChunks hfiled).mp hc with ⟨d, hd⟩
  exact (isCandidate_of_candidate hfiled hd hx).2

/-!
# The candidates of two databases

Two databases that have the same documents and chunks in some knowledge bases have the same
candidates there.
-/

structure AgreeOn (bases : Nat -> Prop) (db db' : Db) : Prop where
  documents : forall d row, bases row.knowledgeBaseId ->
    (db.documents d = some row ↔ db'.documents d = some row)
  chunks : forall d row, bases row.knowledgeBaseId -> db.documents d = some row ->
    db.chunks d = db'.chunks d

def candidatesOf (db : Db) (ids : List Nat) (d : Nat) : List Candidate :=
  (db.chunks d).filterMap (candidate db ids)

theorem candidates_eq_flatMap :
    candidates db n ids = (List.range n).flatMap (candidatesOf db ids) := by
  unfold candidates allChunks
  rw [List.filterMap_flatMap]
  rfl

theorem flatMap_range_of_nil {α : Type} {f : Nat -> List α} {m : Nat} (hle : n ≤ m)
    (h : forall d, n ≤ d -> f d = []) : (List.range m).flatMap f = (List.range n).flatMap f := by
  rcases Nat.exists_eq_add_of_le hle with ⟨k, rfl⟩
  have hrest : ((List.range k).map (n + ·)).flatMap f = [] := by
    rw [List.flatMap_eq_nil_iff]
    intro d hd
    rcases List.mem_map.mp hd with ⟨j, -, rfl⟩
    exact h (n + j) (Nat.le_add_right n j)
  rw [List.range_add, List.flatMap_append, hrest, List.append_nil]

theorem candidatesOf_of_le (hfiled : Filed db n) {d : Nat} (hd : n ≤ d) :
    candidatesOf db ids d = [] := by
  unfold candidatesOf
  rw [List.filterMap_eq_nil_iff]
  intro c hc
  rcases hfiled.chunk d c hc with ⟨-, row, hrow, -⟩
  exact absurd (hfiled.document d row hrow) (Nat.not_lt.mpr hd)

theorem candidatesOf_congr (hfiled : Filed db n) {bases : Nat -> Prop}
    (hids : forall k, k ∈ ids ↔ bases k) (hids' : forall k, k ∈ ids' ↔ bases k)
    (hagree : AgreeOn bases db db') {d : Nat} {row : Document}
    (hrow : db.documents d = some row) (hbase : bases row.knowledgeBaseId) :
    candidatesOf db ids d = candidatesOf db' ids' d := by
  have hrow' := (hagree.documents d row hbase).mp hrow
  unfold candidatesOf
  rw [← hagree.chunks d row hbase hrow]
  apply List.filterMap_congr
  intro c hc
  rcases hfiled.chunk d c hc with ⟨hid, -⟩
  have hmem : (c.knowledgeBaseId ∈ ids) = (c.knowledgeBaseId ∈ ids') :=
    propext ((hids _).trans (hids' _).symm)
  simp only [candidate, hid, hrow, hrow', hmem]

theorem candidates_congr (hfiled : Filed db n) (hfiled' : Filed db' n') {bases : Nat -> Prop}
    (hids : forall k, k ∈ ids ↔ bases k) (hids' : forall k, k ∈ ids' ↔ bases k)
    (hagree : AgreeOn bases db db') : candidates db n ids = candidates db' n' ids' := by
  -- a document without candidates has no row in a readable knowledge base
  have hnone : forall {db : Db} {n ids} (_ : Filed db n) (_ : forall k, k ∈ ids ↔ bases k) {d},
      (forall row, db.documents d = some row -> ¬ bases row.knowledgeBaseId) ->
        candidatesOf db ids d = [] := by
    intro db n ids hfiled hids d h
    unfold candidatesOf
    rw [List.filterMap_eq_nil_iff]
    intro c hc
    cases hx : candidate db ids c with
    | none => rfl
    | some x =>
        rcases isCandidate_of_candidate hfiled hc hx with ⟨rfl, row, hcandidate⟩
        have hid := (hfiled.chunk d x.1 hc).1
        have hrow := hcandidate.document
        rw [hid] at hrow
        apply absurd _ (h row hrow)
        rw [hcandidate.knowledgeBase, ← hids]
        exact hcandidate.accessible
  have hsame : candidatesOf db ids = candidatesOf db' ids' := by
    funext d
    by_cases h : exists row, db.documents d = some row ∧ bases row.knowledgeBaseId
    · rcases h with ⟨row, hrow, hbase⟩
      exact candidatesOf_congr hfiled hids hids' hagree hrow hbase
    · rw [hnone hfiled hids fun row hrow hbase => h ⟨row, hrow, hbase⟩]
      rw [hnone hfiled' hids' fun row hrow hbase =>
        h ⟨row, (hagree.documents d row hbase).mpr hrow, hbase⟩]
  rw [candidates_eq_flatMap, candidates_eq_flatMap,
    ← flatMap_range_of_nil (Nat.le_max_left n n') fun d => candidatesOf_of_le hfiled,
    ← flatMap_range_of_nil (Nat.le_max_right n n') fun d => candidatesOf_of_le hfiled', hsame]

/-!
# From candidates to results

Every result is about one of the candidates, through the scan of the index, the fusion and the
reranking.
-/

variable {env : Env} {b : Backend} {cfg : RetrievalSettings} {question : Text}
variable {vector : Embedding} {rows : List Candidate} {merged merged' : Dict Nat MergedResult}
variable {items ordered : List MergedResult} {item : MergedResult}

def MergedResult.From (rows : List Candidate) (item : MergedResult) : Prop :=
  (item.chunk, item.name) ∈ rows

theorem mem_denseRows {x : Ranked} (h : x ∈ denseRows b cfg db n vector rows) : x.1 ∈ rows := by
  have hmem := List.mem_of_mem_take h
  rw [List.mem_insertionSort] at hmem
  rcases List.mem_map.mp hmem with ⟨row, hrow, rfl⟩
  exact List.mem_of_mem_filter hrow

theorem mem_lexicalRows {x : Candidate} (h : x ∈ lexicalRows env b cfg question rows) :
    x ∈ rows := by
  have hmem := List.mem_of_mem_take h
  rw [List.mem_insertionSort] at hmem
  exact (List.mem_filter.mp hmem).1

theorem mergeDense_from {dense : List Ranked}
    (hmerged : forall item, item ∈ merged.values -> item.From rows)
    (hdense : forall x, x ∈ dense -> x.1 ∈ rows)
    (h : mergeDense b merged dense = .ok merged') :
    forall item, item ∈ merged'.values -> item.From rows := by
  induction dense generalizing merged with
  | nil =>
      cases h
      exact hmerged
  | cons x rest ih =>
      rcases x with ⟨⟨chunk, name⟩, value⟩
      cases value with
      | none => cases h
      | some value =>
          refine ih ?_ (fun y hy => hdense y (List.mem_cons_of_mem _ hy)) h
          intro item hitem
          cases Dict.mem_values_set hitem with
          | inl hnew =>
              rw [hnew]
              exact hdense _ List.mem_cons_self
          | inr hold => exact hmerged item hold

theorem mergeLexical_from {lexical : List Candidate}
    (hmerged : forall item, item ∈ merged.values -> item.From rows)
    (hlexical : forall x, x ∈ lexical -> x ∈ rows) :
    forall item, item ∈ (mergeLexical merged lexical).values -> item.From rows := by
  induction lexical generalizing merged with
  | nil => exact hmerged
  | cons x rest ih =>
      refine ih ?_ fun y hy => hlexical y (List.mem_cons_of_mem _ hy)
      intro item hitem
      cases Dict.mem_values_setDefault hitem with
      | inl hnew =>
          rw [hnew]
          exact hlexical x List.mem_cons_self
      | inr hold => exact hmerged item hold

theorem assignScores_from {scores : Dict Nat Rat}
    (hmerged : forall item, item ∈ merged.values -> item.From rows)
    (h : assignScores merged scores = .ok merged') :
    forall item, item ∈ merged'.values -> item.From rows := by
  induction scores generalizing merged with
  | nil =>
      cases h
      exact hmerged
  | cons x rest ih =>
      rcases x with ⟨id, score⟩
      unfold assignScores at h
      split at h
      · rename_i found hfound
        refine ih ?_ h
        intro item hitem
        cases Dict.mem_values_set hitem with
        | inl hnew =>
            rw [hnew]
            exact hmerged found (Dict.mem_values_of_get hfound)
        | inr hold => exact hmerged item hold
      · cases h

theorem fuse_from (h : fuse env b cfg db n question vector rows = .ok ordered) :
    forall item, item ∈ ordered -> item.From rows := by
  unfold fuse at h
  simp only [bind, Except.bind] at h
  split at h
  · cases h
  · rename_i merged hdense
    split at h
    · cases h
    · rename_i scored hscores
      cases h
      intro item hitem
      rw [sortByScore, List.mem_insertionSort] at hitem
      apply assignScores_from _ hscores item hitem
      apply mergeLexical_from
      · apply mergeDense_from _ _ hdense
        · intro item hitem
          cases hitem
        · exact fun x hx => mem_denseRows hx
      · exact fun x hx => mem_lexicalRows hx

/-- A scan of the vector index finds the same chunks of some knowledge bases in two databases. -/
def ScansAlike (b : Backend) (bases : Nat -> Prop) (db db' : Db) (n n' : Nat) : Prop :=
  forall vector d c, c ∈ db.chunks d -> bases c.knowledgeBaseId ->
    b.indexScan db n vector c = b.indexScan db' n' vector c

theorem fuse_congr (h : forall row, row ∈ rows ->
      b.indexScan db n vector row.1 = b.indexScan db' n' vector row.1) :
    fuse env b cfg db n question vector rows = fuse env b cfg db' n' question vector rows := by
  have hdense : denseRows b cfg db n vector rows = denseRows b cfg db' n' vector rows := by
    unfold denseRows
    rw [List.filter_congr h]
  rw [fuse, fuse, hdense]

theorem applyRerank_from {results : List RerankResult}
    (hordered : forall item, item ∈ ordered -> item.From rows) :
    forall item, item ∈ applyRerank results ordered -> item.From rows := by
  intro item hitem
  unfold applyRerank at hitem
  split at hitem
  · exact hordered item hitem
  · rw [List.mem_insertionSort, List.mem_mapIdx] at hitem
    rcases hitem with ⟨i, hi, rfl⟩
    have hfrom := hordered ordered[i] (List.getElem_mem hi)
    exact hfrom

theorem rerankResults_from (hordered : forall item, item ∈ ordered -> item.From rows)
    (h : rerankResults b question ordered = .ok items) :
    forall item, item ∈ items -> item.From rows := by
  unfold rerankResults at h
  split at h
  · cases h
    exact applyRerank_from hordered
  · split at h
    · cases h
      exact applyRerank_from hordered
    · cases h

theorem mem_selectUnique {topK : Nat} {unique : List MergedResult} {seen : List Nat}
    (h : item ∈ selectUnique topK unique seen ordered) : item ∈ unique ∨ item ∈ ordered := by
  induction ordered generalizing unique seen with
  | nil => exact .inl h
  | cons first rest ih =>
      unfold selectUnique at h
      split at h
      · cases ih h with
        | inl hunique => exact .inl hunique
        | inr hrest => exact .inr (List.mem_cons_of_mem _ hrest)
      · have happend : item ∈ unique ++ [first] -> item ∈ unique ∨ item ∈ first :: rest := by
          intro hmem
          cases List.mem_append.mp hmem with
          | inl hunique => exact .inl hunique
          | inr hfirst =>
              rw [List.mem_singleton.mp hfirst]
              exact .inr List.mem_cons_self
        split at h
        · exact happend h
        · cases ih h with
          | inl hunique => exact happend hunique
          | inr hrest => exact .inr (List.mem_cons_of_mem _ hrest)

theorem mem_selectContextResults {topK : Nat}
    (h : item ∈ selectContextResults cfg ordered topK) : item ∈ ordered := by
  unfold selectContextResults at h
  split at h
  · cases mem_selectUnique h with
    | inl hnone => cases hnone
    | inr hordered => exact hordered
  · exact List.mem_of_mem_take h

/-!
# Parents

All chunks with the key of a parent are chunks of the same document, so a parent lookup gives a
text of that document.
-/

theorem flatMap_range_of_one {α : Type} {f : Nat -> List α} {d : Nat} (hd : d < n)
    (h : forall j, j ≠ d -> f j = []) : (List.range n).flatMap f = f d := by
  induction n with
  | zero => omega
  | succ n ih =>
      rw [List.range_succ, List.flatMap_append, List.flatMap_singleton]
      by_cases hn : d = n
      · have hnone : (List.range n).flatMap f = [] := by
          rw [List.flatMap_eq_nil_iff]
          intro j hj
          exact h j (by have := List.mem_range.mp hj; omega)
        rw [hnone, List.nil_append, hn]
      · rw [ih (by omega), h n (Ne.symm hn), List.append_nil]

def parentsOf (chunks : List Chunk) (parentId : Nat) : List Chunk :=
  chunks.filter fun c => c.id = parentId ∧ c.isParent ∧ c.deleted = 0

theorem parentsOf_allChunks (hfiled : Filed db n) {d : Nat} {c : Chunk} (hc : c ∈ db.chunks d)
    (hchild : c.isParent = false) {parentId : Nat} (hparent : c.parentChunkId = some parentId) :
    parentsOf (allChunks db n) parentId = parentsOf (db.chunks d) parentId := by
  rcases hfiled.linked d c hc hchild with ⟨p, hp, hlinked⟩
  rw [hparent, Option.some.injEq] at hlinked
  subst hlinked
  rcases hfiled.chunk d c hc with ⟨-, row, hrow, -⟩
  unfold parentsOf allChunks
  rw [List.filter_flatMap]
  apply flatMap_range_of_one (hfiled.document d row hrow)
  intro j hj
  rw [List.filter_eq_nil_iff]
  intro c' hc' hcond
  apply hj
  exact hfiled.owned j d c' p hc' hp (of_decide_eq_true hcond).1

theorem getParentContent_get (cfg : RetrievalSettings) (hfiled : Filed db n) (hitem : item ∈ ordered) {d : Nat}
    (hc : item.chunk ∈ db.chunks d) (hchild : item.chunk.isParent = false) :
    item.chunk.parentChunkId.bind (getParentContent cfg db n ordered).get =
      if cfg.parentContextEnabled then
        item.chunk.parentChunkId.bind fun parentId =>
          (parentsOf (db.chunks d) parentId).getLast?.map Chunk.content
      else none := by
  cases hparent : item.chunk.parentChunkId with
  | none =>
      split
      · rfl
      · rfl
  | some parentId =>
      unfold getParentContent
      dsimp only
      split
      · have hmem : parentId ∈ ordered.filterMap fun item => item.chunk.parentChunkId :=
          List.mem_filterMap.mpr ⟨item, hitem, hparent⟩
        rw [Option.bind_some, Option.bind_some, Dict.get_ofPairs,
          ← parentsOf_allChunks hfiled hc hchild hparent, parentsOf, List.filter_map,
          List.filter_filter, List.getLast?_map, Option.map_map]
        have hsame : (fun c : Chunk => (decide ((c.id, c.content).1 = parentId)) &&
            decide ((c.id ∈ ordered.filterMap fun item => item.chunk.parentChunkId) ∧
              c.isParent ∧ c.deleted = 0)) =
            fun c => decide (c.id = parentId ∧ c.isParent ∧ c.deleted = 0) := by
          funext c
          by_cases hid : c.id = parentId
          · simp [hid, hmem]
          · simp [hid]
        exact congrArg (fun p => ((allChunks db n).filter p).getLast?.map Chunk.content) hsame
      · rfl

/-!
# Sources

A retrieval reads the readable knowledge bases, and what the index finds of them.
-/

variable {obj : RetrieveParam} {sources : List GetSourceDetail}

/-- The text of a source is that of a chunk, or of its parent, which the user may read. -/
structure ReadableSource (cfg : RetrievalSettings) (db : Db) (userId : Nat) (isAdmin : Bool)
    (requested : List Nat) (source : GetSourceDetail) : Prop where
  document : exists row, db.documents source.documentId = some row ∧ row.status = .ready ∧
    row.deleted = 0 ∧ row.knowledgeBaseId = source.knowledgeBaseId
  knowledgeBase : exists kb, db.knowledgeBases source.knowledgeBaseId = some kb ∧
    source.knowledgeBaseId ∈ requested ∧ kb.deleted = 0 ∧
      (isAdmin ∨ kb.ownerId = userId ∨ kb.isPublic)
  content : exists child, child ∈ db.chunks source.documentId ∧ child.id = source.chunkId ∧
    child.isParent = false ∧ (source.content = child.content ∨
      cfg.parentContextEnabled = true ∧ exists parent, parent ∈ db.chunks source.documentId ∧
        parent.isParent = true ∧ child.parentChunkId = some parent.id ∧
        source.content = parent.content)

theorem retrieve_cases (h : retrieve env b cfg db n userId isAdmin obj = .ok sources) :
    exists (ids : List Nat) (ordered : List MergedResult),
      accessibleKbIds db n userId isAdmin obj.knowledgeBaseIds = .ok ids ∧
      (forall item, item ∈ ordered -> item.From (candidates db n ids)) ∧
      sources = (ordered.zipIdx 1).map fun (item, index) =>
        source b (getParentContent cfg db n ordered) item index := by
  unfold retrieve at h
  simp only [bind, Except.bind] at h
  split at h
  · cases h
  · rename_i ids hids
    split at h
    · cases h
    · split at h
      · cases h
      · rename_i fused hfused
        split at h
        · cases h
        · rename_i reranked hreranked
          cases h
          refine ⟨ids, selectContextResults cfg reranked obj.topK, hids, ?_, rfl⟩
          intro item hitem
          exact rerankResults_from (fuse_from hfused) hreranked item
            (mem_selectContextResults hitem)

theorem readable_of_retrieve (hfiled : Filed db n)
    (h : retrieve env b cfg db n userId isAdmin obj = .ok sources) :
    forall source, source ∈ sources ->
      ReadableSource cfg db userId isAdmin obj.knowledgeBaseIds source := by
  rcases retrieve_cases h with ⟨ids, ordered, hids, hfrom, rfl⟩
  intro x hx
  rcases List.mem_map.mp hx with ⟨⟨item, index⟩, hmem, rfl⟩
  have hitem : item ∈ ordered := List.fst_mem_of_mem_zipIdx hmem
  rcases mem_candidates hfiled (hfrom item hitem) with ⟨row, hcandidate⟩
  have hchunk := hcandidate.chunk
  rcases (mem_accessibleKbIds hfiled hids).mp hcandidate.accessible with ⟨kb, hkb, haccessible⟩
  constructor
  · exact ⟨row, hcandidate.document, hcandidate.ready, hcandidate.live,
      hcandidate.knowledgeBase⟩
  · rcases haccessible with ⟨hrequested, hlive, hreader⟩
    rw [(hfiled.knowledgeBase _ kb hkb).1] at hrequested
    exact ⟨kb, hkb, hrequested, hlive, hreader⟩
  · refine ⟨item.chunk, hchunk, rfl, hcandidate.child, ?_⟩
    have hcontent : (source b (getParentContent cfg db n ordered) item index).content =
        (item.chunk.parentChunkId.bind (getParentContent cfg db n ordered).get).getD
          item.chunk.content := rfl
    rw [getParentContent_get cfg hfiled hitem hchunk hcandidate.child] at hcontent
    dsimp only
    rw [hcontent]
    split
    · rename_i henabled
      cases hparent : item.chunk.parentChunkId with
      | none => exact .inl rfl
      | some parentId =>
          rw [Option.bind_some]
          cases hlast : (parentsOf (db.chunks item.chunk.documentId) parentId).getLast? with
          | none => exact .inl rfl
          | some parent =>
              have hparents := List.mem_of_getLast? hlast
              rcases List.mem_filter.mp hparents with ⟨hof, hcond⟩
              rcases of_decide_eq_true hcond with ⟨hid, hkind, -⟩
              refine .inr ⟨henabled, parent, hof, hkind, ?_, rfl⟩
              rw [hid]
    · exact .inl rfl

/-- A retrieval reads the readable knowledge bases, and what the index finds of them. -/
theorem retrieve_congr (hfiled : Filed db n) (hfiled' : Filed db' n')
    (hreadable : forall k, Readable db userId isAdmin obj.knowledgeBaseIds k ↔
      Readable db' userId isAdmin obj.knowledgeBaseIds k)
    (hagree : AgreeOn (Readable db userId isAdmin obj.knowledgeBaseIds) db db')
    (hscans : ScansAlike b (Readable db userId isAdmin obj.knowledgeBaseIds) db db' n n') :
    retrieve env b cfg db n userId isAdmin obj = retrieve env b cfg db' n' userId isAdmin obj := by
  rcases accessibleKbIds_cases hfiled userId isAdmin obj.knowledgeBaseIds with
    ⟨hids, hnone⟩ | ⟨ids, hids, hsome, hmem⟩
  · rcases accessibleKbIds_cases hfiled' userId isAdmin obj.knowledgeBaseIds with
      ⟨hids', -⟩ | ⟨ids', -, ⟨k, hk⟩, -⟩
    · simp only [retrieve, hids, hids', bind, Except.bind]
    · exact absurd ((hreadable k).mpr hk) (hnone k)
  · rcases accessibleKbIds_cases hfiled' userId isAdmin obj.knowledgeBaseIds with
      ⟨-, hnone⟩ | ⟨ids', hids', -, hmem'⟩
    · rcases hsome with ⟨k, hk⟩
      exact absurd ((hreadable k).mp hk) (hnone k)
    · have hcandidates : candidates db n ids = candidates db' n' ids' :=
        candidates_congr hfiled hfiled' hmem
          (fun k => (hmem' k).trans (hreadable k).symm) hagree
      have hfuse : forall vector, fuse env b cfg db n obj.question vector (candidates db n ids) =
          fuse env b cfg db' n' obj.question vector (candidates db n ids) := by
        intro vector
        apply fuse_congr
        intro row hrow
        rcases mem_candidates hfiled hrow with ⟨document, hcandidate⟩
        exact hscans vector _ row.1 hcandidate.chunk ((hmem _).mp hcandidate.accessible)
      -- the same results get the same texts
      have hsources : forall ordered : List MergedResult,
          (forall item, item ∈ ordered -> item.From (candidates db n ids)) ->
          ((ordered.zipIdx 1).map fun (item, index) =>
            source b (getParentContent cfg db n ordered) item index) =
          (ordered.zipIdx 1).map fun (item, index) =>
            source b (getParentContent cfg db' n' ordered) item index := by
        intro ordered hfrom
        apply List.map_congr_left
        intro x hx
        have hitem := List.fst_mem_of_mem_zipIdx hx
        rcases mem_candidates hfiled (hfrom x.1 hitem) with ⟨row, hcandidate⟩
        have hbase : Readable db userId isAdmin obj.knowledgeBaseIds row.knowledgeBaseId := by
          rw [hcandidate.knowledgeBase, ← hmem]
          exact hcandidate.accessible
        have hchunks := hagree.chunks _ row hbase hcandidate.document
        have hchunk := hcandidate.chunk
        have hchunk' := hcandidate.chunk
        rw [hchunks] at hchunk'
        have hget := getParentContent_get cfg hfiled hitem hchunk hcandidate.child
        have hget' := getParentContent_get cfg hfiled' hitem hchunk' hcandidate.child
        rw [hchunks, ← hget'] at hget
        simp only [source, hget]
      simp only [retrieve, hids, hids', bind, Except.bind, ← hcandidates, ← hfuse]
      split
      · rfl
      · split
        · rfl
        · rename_i fused hfused
          split
          · rfl
          · rename_i reranked hreranked
            have hfrom := rerankResults_from (fuse_from hfused) hreranked
            exact congrArg _ (hsources (selectContextResults cfg reranked obj.topK)
              fun item hitem => hfrom item (mem_selectContextResults hitem))

end

end QueryService
end RagService
