import RagService.Properties.ChunkSets
import RagService.Query.Isolation

/-!
# Read isolation

Index runs file every chunk under its document and give it a key of its own.  So a parent
that is looked up by its key alone is one of the same document, and a retrieval shows a user
nothing but the knowledge bases that the user may read.
-/

namespace RagService

open Interleaving Interleaving.Discipline QueryService

/-!
# Keys of chunks

A statement keeps pending chunks, or adds some with new keys for one document; so a key that
has been drawn belongs to the chunks of one document.
-/

structure State.ChunksOwned (owner : Nat -> Nat) (s : State) : Prop where
  committed : forall d c, c ∈ s.db.chunks d -> c.id < s.nextId ∧ owner c.id = d
  pending : forall t σ, s.sessions t = some σ -> forall d rows, σ.writes.chunks d = some rows ->
    forall c, c ∈ rows -> c.id < s.nextId ∧ owner c.id = d

section

variable {s s' : State} {t : Nat} {σ σ' : Session} {c : Command} {owner : Nat -> Nat}

theorem Db.mem_install_chunks {db : Db} {w : Writes} {d : Nat} {c : Chunk}
    (h : c ∈ (db.install w).chunks d) :
    c ∈ db.chunks d ∨ exists rows, w.chunks d = some rows ∧ c ∈ rows := by
  unfold Db.install at h
  dsimp only at h
  cases hw : w.chunks d with
  | none =>
      rw [hw] at h
      exact .inl h
  | some rows =>
      rw [hw] at h
      exact .inr ⟨rows, rfl, h⟩

theorem Session.Step.chunks {rs : List Resource} {n : Nat} (h : Session.Step s t σ c rs n σ') :
    exists d₀, forall d rows, σ'.writes.chunks d = some rows -> forall row, row ∈ rows ->
      row ∈ s.db.chunks d ∨ (exists rows₀, σ.writes.chunks d = some rows₀ ∧ row ∈ rows₀) ∨
        d = d₀ ∧ s.nextId ≤ row.id ∧ row.id < n := by
  have hkeeps : forall d rows, σ.writes.chunks d = some rows -> forall row, row ∈ rows ->
      row ∈ s.db.chunks d ∨ (exists rows₀, σ.writes.chunks d = some rows₀ ∧ row ∈ rows₀) ∨
        d = 0 ∧ s.nextId ≤ row.id ∧ row.id < n :=
    fun d rows hrows row hrow => .inr (.inl ⟨rows, hrows, hrow⟩)
  cases h with
  | insert row now hkey hlock hfree =>
      exists 0
      cases row with
      | profile _ | knowledgeBase _ | document _ | event _ => exact hkeeps
  | deleteChunks documentId =>
      exists 0
      intro d rows hrows row hrow
      by_cases hd : d = documentId
      · simp only [hd, Function.update_self, Option.some.injEq] at hrows
        rw [← hrows] at hrow
        cases hrow
      · simp only [Function.update_of_ne hd] at hrows
        exact hkeeps d rows hrows row hrow
  | insertChunks documentId placed =>
      exists documentId
      intro d rows hrows row hrow
      by_cases hd : d = documentId
      · subst hd
        simp only [Function.update_self, Option.some.injEq] at hrows
        rw [← hrows, List.mem_append] at hrow
        cases hrow with
        | inl hpresent =>
            cases Db.mem_install_chunks hpresent with
            | inl hold => exact .inl hold
            | inr hpending => exact .inr (.inl hpending)
        | inr hplaced =>
            rcases mem_numberChunks.mp hplaced with ⟨i, old, hi, rfl⟩
            have hlt := (List.getElem?_eq_some_iff.mp hi).1
            exact .inr (.inr ⟨rfl, Nat.le_add_right _ _, by simpa using hlt⟩)
      · simp only [Function.update_of_ne hd] at hrows
        exact .inr (.inl ⟨rows, hrows, hrow⟩)
  | loadKnowledgeBase | load | lock | lockEvents | assign | assignKnowledgeBase | update
  | updateKnowledgeBase | updateEvent | remove =>
      exists 0

theorem State.ChunksOwned.close (h : s.ChunksOwned owner) (t : Nat) :
    (s.close t).ChunksOwned owner := by
  constructor
  · exact h.committed
  · intro u τ hτ
    apply h.pending u τ
    by_cases hu : u = t
    · subst hu
      simp [State.close] at hτ
    · simpa [State.close, Function.update_of_ne hu] using hτ

theorem State.ChunksOwned.commit (h : s.ChunksOwned owner) (hσ : s.sessions t = some σ)
    (note : Note) : (s.commit t note σ).ChunksOwned owner := by
  constructor
  · intro d c hc
    cases Db.mem_install_chunks hc with
    | inl hold => exact h.committed d c hold
    | inr hpending =>
        rcases hpending with ⟨rows, hrows, hrow⟩
        exact h.pending t σ hσ d rows hrows c hrow
  · exact (h.close t).pending

theorem State.ChunksOwned.statement (h : s.ChunksOwned owner) (hσ : s.sessions t = some σ)
    {rs : List Resource} {n : Nat} (hstep : Session.Step s t σ c rs n σ') (hle : s.nextId ≤ n) :
    exists owner, (s.work t rs n σ').ChunksOwned owner := by
  rcases hstep.chunks with ⟨d₀, hchunks⟩
  exists fun i => if i < s.nextId then owner i else d₀
  have hold : forall {i d}, i < s.nextId ∧ owner i = d ->
      i < n ∧ (if i < s.nextId then owner i else d₀) = d := by
    intro i d hi
    exact ⟨hi.1.trans_le hle, (if_pos hi.1).trans hi.2⟩
  constructor
  · intro d row hrow
    exact hold (h.committed d row hrow)
  · intro u τ hτ d rows hrows row hrow
    by_cases hu : u = t
    · subst hu
      simp only [State.work, State.setSession, Function.update_self, Option.some.injEq] at hτ
      subst hτ
      rcases hchunks d rows hrows row hrow with hdb | ⟨rows₀, hrows₀, hrow₀⟩ | ⟨rfl, hnew, hlt⟩
      · exact hold (h.committed d row hdb)
      · exact hold (h.pending u σ hσ d rows₀ hrows₀ row hrow₀)
      · exact ⟨hlt, if_neg (Nat.not_lt.mpr hnew)⟩
    · have hτ' : s.sessions u = some τ := by
        simpa [State.work, State.setSession, State.acquire, Function.update_of_ne hu] using hτ
      exact hold (h.pending u τ hτ' d rows hrows row hrow)

theorem State.ChunksOwned.step (h : s.ChunksOwned owner)
    (hids : forall i d, s.db.documents i = some d -> d.id = i) (hstep : State.Step s t c s') :
    exists owner, s'.ChunksOwned owner := by
  cases hstep with
  | nothing => exact ⟨owner, h⟩
  | begin hnone =>
      exists owner
      constructor
      · exact h.committed
      · intro u τ hτ d rows hrows
        by_cases hu : u = t
        · subst hu
          simp only [State.work, State.setSession, Function.update_self, Option.some.injEq] at hτ
          subst hτ
          cases hrows
        · apply h.pending u τ _ d rows hrows
          simpa [State.work, State.setSession, State.acquire, Function.update_of_ne hu] using hτ
  | commit note σ hσ => exact ⟨owner, h.commit hσ note⟩
  | rollback => exact ⟨owner, h.close t⟩
  | statement σ rs n σ' hσ hstep => exact h.statement hσ hstep (hstep.lockable hids).2
  | putObject key content => exact ⟨owner, h.committed, h.pending⟩
  | deleteObject key => exact ⟨owner, h.committed, h.pending⟩
  | send m => exact ⟨owner, h.committed, h.pending⟩

end

/-!
# Chunks and their documents

A chunk is in the knowledge base of its document, and what a retrieval relies on holds in every
state of a run.
-/

def Db.ChunksPlaced (db : Db) : Prop :=
  forall d c, c ∈ db.chunks d ->
    exists row, db.documents d = some row ∧ row.knowledgeBaseId = c.knowledgeBaseId

section

variable {env : Env} {allowed : Settings -> Prop} {s : State} {t : Nat} {σ : Session}
variable {note : Note} {C : System.Condition (system env)} {last : RagConfig}

theorem IndexRun.knowledgeBaseId_of_mem {d : Document} {run : IndexRun} {c : Chunk}
    (h : c ∈ run.rows env d) : c.knowledgeBaseId = d.knowledgeBaseId := by
  cases List.mem_append.mp h with
  | inl hparent =>
      rcases mem_parentRows.mp hparent with ⟨i, p, -, rfl⟩
      rfl
  | inr hchild =>
      rcases mem_childRows hchild with ⟨i, child, vector, -, rfl⟩
      rfl

theorem Session.Effect.chunksPlaced (hinv : s.Inv allowed) (hσ : s.sessions t = some σ)
    (hclean : σ.Clean) (heffect : σ.Effect env allowed s t note) (h : s.db.ChunksPlaced) :
    (s.db.install σ.writes).ChunksPlaced := by
  have hok := (hinv.session t σ hσ).documents
  intro d c hc
  rcases heffect.chunks_cases hok hclean d with
    ⟨-, hold⟩ | ⟨-, hempty, -⟩ | ⟨-, base, run, now, hbase, -, hrows, hnew⟩
  · rw [hold] at hc
    rcases h d c hc with ⟨row, hrow, hkb⟩
    cases hafter : (s.db.install σ.writes).documents d with
    | none =>
        have hempty := (heffect.removed hok hclean hrow hafter).2.2
        rw [hold] at hempty
        rw [hempty] at hc
        cases hc
    | some row' =>
        refine ⟨row', rfl, ?_⟩
        rw [← hkb]
        rcases heffect.document_cases hok hclean hafter with
          hsame | ⟨event, -, hinserts⟩ | ⟨base, hbase, hstep⟩
        · rw [hrow, Option.some.injEq] at hsame
          rw [hsame]
        · exact absurd (hinv.known d row hrow) (hok.inserted d row' hinserts).1
        · rw [hrow, Option.some.injEq] at hbase
          rw [hbase]
          exact Document.knowledgeBaseId_of_identity hstep.identity
  · rw [hempty] at hc
    cases hc
  · rw [hrows] at hc
    refine ⟨_, hnew, ?_⟩
    rw [IndexRun.knowledgeBaseId_of_mem hc]
    exact writeColumn_self _ _

/-- What a retrieval relies on holds in every state of a run. -/
theorem reaches_filed (hrun : System.Reaches (system env) (system env).anyRun initial last) :
    Filed last.shared.db last.shared.nextId := by
  have hstarts : forall op, (system env).anyRun.starts op -> op.Allowed fun _ => True :=
    fun _ _ _ _ => trivial
  have hinv := (reaches_sound hstarts hrun).inv
  have howned : exists owner, last.shared.ChunksOwned owner := by
    refine commands_preserve hstarts (fun s => exists owner, s.ChunksOwned owner) ?_ ?_
      initial_sound ?_ hrun
    · intro cfg t c now vectors s' hinv hguard _ h hstep
      rcases h with ⟨owner, h⟩
      exact h.step (fun i d hd => (hinv.coherent.document i d hd).1) hstep
    · intro s t h
      rcases h with ⟨owner, h⟩
      exact ⟨owner, h.close t⟩
    · exists fun _ => 0
      constructor
      · intro d c hc
        cases hc
      · intro t σ hσ
        cases hσ
  have hplaced : last.shared.db.ChunksPlaced := by
    refine commits_preserve hstarts (fun s => s.db.ChunksPlaced) ?_ ?_ initial_sound ?_ hrun
    · intro s s' hdb _ h
      rw [hdb]
      exact h
    · intro cfg t note now vectors σ hinv hσ hclean heffect _ h
      exact heffect.chunksPlaced hinv hσ hclean h
    · intro d c hc
      cases hc
  have hruns := reaches_chunksOfRuns hstarts hrun
  rcases howned with ⟨owner, howned⟩
  constructor
  · intro i kb hkb
    rcases hinv.coherent.knowledgeBase i kb hkb with ⟨hid, -, hlt⟩
    exact ⟨hid, hlt⟩
  · intro d row hrow
    exact hinv.bounded d (hinv.known d row hrow)
  · intro d c hc
    refine ⟨?_, hplaced d c hc⟩
    rcases hruns d with hempty | ⟨base, run, rfl, -, hrows⟩
    · rw [hempty] at hc
      cases hc
    · rw [hrows] at hc
      exact (IndexRun.row_of_mem hc).2
  · intro d c hc hchild
    rcases hruns d with hempty | ⟨base, run, rfl, -, hrows⟩
    · rw [hempty] at hc
      cases hc
    · rw [hrows] at hc ⊢
      cases List.mem_append.mp hc with
      | inl hparent =>
          rw [IndexRun.isParent_parentRows hparent] at hchild
          cases hchild
      | inr hrow =>
          rcases IndexRun.linked_of_mem hrow with ⟨p, hp, hlinked, -⟩
          exact ⟨p, List.mem_append_left _ hp, hlinked⟩
  · intro d d' c c' hc hc' hid
    rw [← (howned.committed d c hc).2, ← (howned.committed d' c' hc').2, hid]

end

/--
Read isolation: a source of a retrieval has the text of a chunk, or of its parent, of a live
ready document of a live knowledge base that the user has asked for and may read; and users
who are no administrators get the same from two databases that agree on what they may read,
where the vector index finds the same of it.
-/
theorem retrieve_isolated (env : Env) (b : Backend) (cfg : RetrievalSettings) (userId : Nat)
    (obj : RetrieveParam) :
    (forall (last : RagConfig) (isAdmin : Bool) (sources : List GetSourceDetail),
      System.Reaches (system env) (system env).anyRun initial last ->
      retrieve env b cfg last.shared.db last.shared.nextId userId isAdmin obj = .ok sources ->
      forall source, source ∈ sources -> ReadableSource cfg last.shared.db userId isAdmin
        obj.knowledgeBaseIds source) ∧
    forall last last' : RagConfig,
      System.Reaches (system env) (system env).anyRun initial last ->
      System.Reaches (system env) (system env).anyRun initial last' ->
      (forall k, Readable last.shared.db userId false obj.knowledgeBaseIds k ↔
        Readable last'.shared.db userId false obj.knowledgeBaseIds k) ->
      AgreeOn (Readable last.shared.db userId false obj.knowledgeBaseIds) last.shared.db
        last'.shared.db ->
      ScansAlike b (Readable last.shared.db userId false obj.knowledgeBaseIds) last.shared.db
        last'.shared.db last.shared.nextId last'.shared.nextId ->
      retrieve env b cfg last.shared.db last.shared.nextId userId false obj =
        retrieve env b cfg last'.shared.db last'.shared.nextId userId false obj := by
  constructor
  · intro last isAdmin sources hrun h
    exact readable_of_retrieve (reaches_filed hrun) h
  · intro last last' hrun hrun' hreadable hagree hscans
    exact retrieve_congr (reaches_filed hrun) (reaches_filed hrun') hreadable hagree hscans

/-!
# Sample runs

User 1's document has a chunk that is far from the question, and user 2's document one that is
near, in a knowledge base that user 1 may not read.  The index gives the nearest chunks of the
whole table, as many as `hnsw.ef_search` says.
-/

namespace Sample

def backend : Backend where
  cosineDistance := fun _ _ => 0
  indexScan := fun _ _ _ _ => true
  textMatch := fun _ _ => true
  tsRankCd := fun _ _ => 0
  place := Chunk.id
  float := id
  embed := fun texts => .ok (texts.map fun _ => [1])
  rerank := fun _ _ => .ok []

def retrieval : RetrievalSettings where
  parentContextEnabled := true
  denseCandidateK := 30
  lexicalCandidateK := 30
  rrfK := 60
  denseRrfWeight := 1
  lexicalRrfWeight := 1 / 2

def unitDistance (e v : Embedding) : Rat :=
  1 - ((e.zip v).map fun x => x.1 * x.2).sum

/-- The keys of the nearest chunks of the whole table, as many as `hnsw.ef_search` says. -/
def nearestKeys (efSearch : Nat) (db : Db) (n : Nat) (vector : Embedding) : List Nat :=
  ((((allChunks db n).filterMap fun c =>
      c.embedding.map fun e => (c.id, unitDistance e vector)).insertionSort
    fun x y => x.2 ≤ y.2).take efSearch).map Prod.fst

def nearestBackend : Backend where
  cosineDistance := unitDistance
  indexScan := fun db n vector c => c.id ∈ nearestKeys 1 db n vector
  textMatch := fun _ _ => false
  tsRankCd := fun _ _ => 0
  place := Chunk.id
  float := id
  embed := fun texts => .ok (texts.map fun _ => [1])
  rerank := fun _ _ => .ok []

def farChunk : List (Label Op Choice) :=
  upload ++ .start 2 (.indexDocument settings 3 (some 1) 0) ::
    List.replicate 22 (.step 2 (.proceed 0 [[-1]]))

def nearChunk : List (Label Op Choice) :=
  start 3 (.createKnowledgeBase 2 "kb".toList none false) 7 ++
    start 4 (.createDocument settings 7 2 false "b.txt".toList [98] none) 14 ++
    start 5 (.indexDocument settings 8 (some 1) 0) 22

def baseOne (n : Nat) (s : State) : List (Option (Document × List Chunk)) :=
  (List.range n).map fun d =>
    ((s.db.documents d).filter fun row => row.knowledgeBaseId = 1).map fun row =>
      (row, s.db.chunks d)

/-- Two states in the second of which the near chunk of another user hides the far one. -/
def Hides (s s' : State) : Prop :=
  s.nextId ≤ s'.nextId ∧ s.db.knowledgeBases 1 = s'.db.knowledgeBases 1 ∧
    baseOne s'.nextId s = baseOne s'.nextId s' ∧
    (retrieve env nearestBackend retrieval s.db s.nextId 1 false ⟨"x".toList, [1], 5⟩).toOption.any
      (fun sources => sources ≠ []) = true ∧
    (retrieve env nearestBackend retrieval s'.db s'.nextId 1 false
      ⟨"x".toList, [1], 5⟩).toOption.any (fun sources => sources = []) = true

instance (s s' : State) : Decidable (Hides s s') :=
  inferInstanceAs (Decidable (_ ∧ _ ∧ _ ∧ _ ∧ _))

theorem readable_one {db : Db} {n : Nat} (hfiled : Filed db n) {k : Nat}
    (h : Readable db 1 false [1] k) : k = 1 := by
  rcases h with ⟨kb, hkb, hrequested, -⟩
  rw [(hfiled.knowledgeBase k kb hkb).1] at hrequested
  exact List.mem_singleton.mp hrequested

theorem agreeOn_of_baseOne {s s' : State} {n : Nat} (hfiled : Filed s.db n)
    (hfiled' : Filed s'.db n) (h : baseOne n s = baseOne n s') :
    AgreeOn (fun k => k = 1) s.db s'.db := by
  have hsame : forall d, d < n ->
      ((s.db.documents d).filter fun row => row.knowledgeBaseId = 1).map
          (fun row => (row, s.db.chunks d)) =
        ((s'.db.documents d).filter fun row => row.knowledgeBaseId = 1).map
          fun row => (row, s'.db.chunks d) :=
    fun d hd => List.map_inj_left.mp h d (List.mem_range.mpr hd)
  have hpair : forall d row chunks, d < n -> row.knowledgeBaseId = 1 ->
      ((s.db.documents d = some row ∧ s.db.chunks d = chunks) ↔
        (s'.db.documents d = some row ∧ s'.db.chunks d = chunks)) := by
    intro d row chunks hd hbase
    have hmem : forall t : State,
        (t.db.documents d = some row ∧ t.db.chunks d = chunks) ↔
          ((t.db.documents d).filter fun row => row.knowledgeBaseId = 1).map
            (fun row => (row, t.db.chunks d)) = some (row, chunks) := by
      intro t
      rw [Option.map_eq_some_iff]
      constructor
      · intro ht
        rcases ht with ⟨hrow, rfl⟩
        exact ⟨row, by simp [hrow, Option.filter, hbase], rfl⟩
      · intro ht
        rcases ht with ⟨row', hrow', heq⟩
        cases heq
        exact ⟨(Option.filter_eq_some_iff.mp hrow').1, rfl⟩
    rw [hmem s, hmem s', hsame d hd]
  constructor
  · intro d row hbase
    constructor
    · intro hrow
      exact ((hpair d row _ (hfiled.document d row hrow) hbase).mp ⟨hrow, rfl⟩).1
    · intro hrow
      exact ((hpair d row _ (hfiled'.document d row hrow) hbase).mpr ⟨hrow, rfl⟩).1
  · intro d row hbase hrow
    exact ((hpair d row _ (hfiled.document d row hrow) hbase).mp ⟨hrow, rfl⟩).2.symm

end Sample

/-- The owner of an indexed document finds its text, and to another user it is not there. -/
theorem retrieve_isolated_owner : exists last : RagConfig, exists sources, sources ≠ [] ∧
    (forall source, source ∈ sources ->
      ReadableSource Sample.retrieval last.shared.db 1 false [1] source) ∧
    retrieve Sample.env Sample.backend Sample.retrieval last.shared.db last.shared.nextId 2 false
      ⟨"a".toList, [1], 5⟩ =
    retrieve Sample.env Sample.backend Sample.retrieval State.empty.db State.empty.nextId 2 false
      ⟨"a".toList, [1], 5⟩ := by
  rcases System.exists_reaches (system Sample.env).anyRun initial
    (Sample.upload ++ Sample.index 2 1)
    (fun last : RagConfig =>
      (match retrieve Sample.env Sample.backend Sample.retrieval last.shared.db
          last.shared.nextId 1 false ⟨"a".toList, [1], 5⟩ with
        | .ok sources => !sources.isEmpty
        | .error _ => false) = true ∧
      (last.shared.db.knowledgeBases 1).all (fun kb =>
        kb.ownerId = 1 ∧ kb.isPublic = false) = true)
    (by decide +kernel) with ⟨last, hrun, hsources, hbase⟩
  split at hsources
  · rename_i sources hretrieve
    have hfiled := reaches_filed hrun
    have hnone : forall k, ¬ Readable last.shared.db 2 false [1] k := by
      intro k h
      rcases h with ⟨kb, hkb, hrequested, -, hreader⟩
      rw [(hfiled.knowledgeBase k kb hkb).1, List.mem_singleton] at hrequested
      subst hrequested
      rw [hkb, Option.all_some, decide_eq_true_eq] at hbase
      simp [hbase.1, hbase.2] at hreader
    have hinitial : forall k, ¬ Readable initial.shared.db 2 false [1] k := by
      intro k h
      rcases h with ⟨kb, hkb, -⟩
      cases hkb
    exists last, sources
    constructor
    · simpa using hsources
    constructor
    · exact (retrieve_isolated Sample.env Sample.backend Sample.retrieval 1
        ⟨"a".toList, [1], 5⟩).1 last false sources hrun hretrieve
    · apply (retrieve_isolated Sample.env Sample.backend Sample.retrieval 2
        ⟨"a".toList, [1], 5⟩).2 last initial hrun (.refl initial)
      · intro k
        exact ⟨fun h => absurd h (hnone k), fun h => absurd h (hinitial k)⟩
      · constructor
        · intro d row hbase
          exact absurd hbase (hnone _)
        · intro d row hbase
          exact absurd hbase (hnone _)
      · intro vector d c hc hbase
        rfl
  · cases hsources

/--
The vector index finds what is nearest among all rows: a chunk that user 1 may not read takes
the place of the one that user 1's question found before.
-/
theorem retrieve_isolated_fails :
    ¬ forall (env : Env) (b : Backend) (cfg : RetrievalSettings) (userId : Nat)
        (obj : RetrieveParam) (last last' : RagConfig),
      System.Reaches (system env) (system env).anyRun initial last ->
      System.Reaches (system env) (system env).anyRun initial last' ->
      (forall k, Readable last.shared.db userId false obj.knowledgeBaseIds k ↔
        Readable last'.shared.db userId false obj.knowledgeBaseIds k) ->
      AgreeOn (Readable last.shared.db userId false obj.knowledgeBaseIds) last.shared.db
        last'.shared.db ->
      retrieve env b cfg last.shared.db last.shared.nextId userId false obj =
        retrieve env b cfg last'.shared.db last'.shared.nextId userId false obj := by
  intro h
  have hruns : (System.follow (system Sample.env) (system Sample.env).anyRun initial
      Sample.farChunk).any (fun mid =>
        (System.follow (system Sample.env) (system Sample.env).anyRun mid Sample.nearChunk).any
          fun last => decide (Sample.Hides mid.shared last.shared)) = true := by decide +kernel
  rcases (Option.any_eq_true ..).mp hruns with ⟨mid, hmid, hrest⟩
  rcases (Option.any_eq_true ..).mp hrest with ⟨last, hlast, hhides⟩
  have hrun := System.reaches_of_follow hmid
  have hrun' := hrun.trans (System.reaches_of_follow hlast)
  rcases of_decide_eq_true hhides with ⟨hle, hbase, hsame, hfound, hhidden⟩
  have hfiled := reaches_filed hrun
  have hfiled' := reaches_filed hrun'
  -- keys of the first state are keys of the second
  have hwider : Filed mid.shared.db last.shared.nextId :=
    { hfiled with
      knowledgeBase := fun i kb hkb =>
        ⟨(hfiled.knowledgeBase i kb hkb).1, (hfiled.knowledgeBase i kb hkb).2.trans_le hle⟩
      document := fun d row hrow => (hfiled.document d row hrow).trans_le hle }
  have hreadable : forall k, Readable mid.shared.db 1 false [1] k ↔
      Readable last.shared.db 1 false [1] k := by
    intro k
    constructor
    · intro hk
      cases Sample.readable_one hfiled hk
      rcases hk with ⟨kb, hkb, haccessible⟩
      exact ⟨kb, hbase.symm.trans hkb, haccessible⟩
    · intro hk
      cases Sample.readable_one hfiled' hk
      rcases hk with ⟨kb, hkb, haccessible⟩
      exact ⟨kb, hbase.trans hkb, haccessible⟩
  have hone := Sample.agreeOn_of_baseOne hwider hfiled' hsame
  have hagree : AgreeOn (Readable mid.shared.db 1 false [1]) mid.shared.db last.shared.db :=
    ⟨fun d row hk => hone.documents d row (Sample.readable_one hfiled hk),
      fun d row hk => hone.chunks d row (Sample.readable_one hfiled hk)⟩
  have hequal := h Sample.env Sample.nearestBackend Sample.retrieval 1 ⟨"x".toList, [1], 5⟩
    mid last hrun hrun' hreadable hagree
  rw [hequal] at hfound
  cases hresult : retrieve Sample.env Sample.nearestBackend Sample.retrieval last.shared.db
      last.shared.nextId 1 false ⟨"x".toList, [1], 5⟩ with
  | error e =>
      rw [hresult] at hfound
      cases hfound
  | ok sources =>
      rw [hresult] at hfound hhidden
      exact absurd (of_decide_eq_true hhidden) (of_decide_eq_true hfound)

end RagService
