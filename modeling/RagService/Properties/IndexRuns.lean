import RagService.Properties.ChunkSets
import RagService.Properties.EmbeddingBatches
import RagService.Service.Solo

/-!
# Index runs that settle

An index task that runs alone on a pending document always comes to its end, and it never
leaves the document claimed: the document is ready with the chunks of this run, or pending
with a new request, or failed with the reason.
-/

namespace RagService

open Interleaving RagService.Action DocumentService

/-!
# Sessions about one document

The transactions of a task have one document in hand: they write its row and replace its
chunks, and nothing else.  A row that has not been changed is not written.
-/

def Session.about (d current : Document) (w : Writes) : Session :=
  { documents := Function.update (fun _ => none) d.id (some ⟨d, d, current⟩)
    writes := w }

def Writes.ofChunks (i : Nat) (rows : List Chunk) : Writes :=
  { chunks := Function.update (fun _ => none) i (some rows) }

/-- A document and its chunks are written, and nothing else changes. -/
structure State.Updates (s : State) (i : Nat) (row : Document) (chunks : List Chunk)
    (y : State) : Prop where
  idle : y.Idle
  documents : y.db.documents = Function.update s.db.documents i (some row)
  chunks : y.db.chunks = Function.update s.db.chunks i chunks
  knowledgeBases : y.db.knowledgeBases = s.db.knowledgeBases
  profiles : y.db.profiles = s.db.profiles
  events : y.db.events = s.db.events
  storage : y.storage = s.storage
  nextId : s.nextId ≤ y.nextId

section

variable {t : Nat} {s x y : State} {E : Command -> Choice -> Prop} {d current : Document}
variable {w : Writes} {clock : Nat -> Nat}

theorem Session.about_documents : (Session.about d current w).documents d.id =
    some ⟨d, d, current⟩ := by
  simp [Session.about]

theorem Session.about_others {i : Nat} (hi : i ≠ d.id) :
    (Session.about d current w).documents i = none := by
  simp [Session.about, hi]

theorem Session.about_flushable (hd : s.db.documents d.id = some d) :
    (Session.about d current w).Flushable s.db where
  rows := by
    intro i e he
    by_cases hi : i = d.id
    · rw [hi, hd]
      exact Option.some_ne_none d
    · rw [Session.about_others hi] at he
      cases he
  bases := by
    intro i e he
    cases he

theorem Db.install_ofChunks (db : Db) (i : Nat) (rows : List Chunk) :
    (db.install (Writes.ofChunks i rows)).chunks = Function.update db.chunks i rows := by
  funext j
  by_cases hj : j = i
  · subst j
    simp [Db.install, Writes.ofChunks]
  · simp [Db.install, Writes.ofChunks, hj]

theorem State.Inside.replaceChunks {rows rows' : List Chunk}
    (h : State.Inside t s
      { Session.about d current (Writes.ofChunks d.id rows) with
        writes :=
          { (Session.about d current (Writes.ofChunks d.id rows)).writes with
            chunks := Function.update
              (Session.about d current (Writes.ofChunks d.id rows)).writes.chunks d.id
              (some rows') } } x) :
    State.Inside t s (Session.about d current (Writes.ofChunks d.id rows')) x := by
  simp only [Session.about, Writes.ofChunks, Function.update_idem] at h
  exact h

theorem finishes_assign_about (hE : Reliable E)
    (hx : State.Inside t s (Session.about d current w) x) (f : Document -> Document) :
    Finishes machine t E (Action.assign d.id f)
      (fun out y => out = .ok () ∧ State.Inside t s (Session.about d (f current) w) y) x := by
  refine (finishes_assign hE hx Session.about_documents f).mono fun out y h => ?_
  refine ⟨h.1, ?_⟩
  have hy := h.2
  simp only [Session.about, Function.update_idem] at hy
  exact hy

theorem mem_dirty_about {i n : Nat} :
    i ∈ dirtyIds (Session.about d current w).documents n ↔ i = d.id ∧ i < n ∧ current ≠ d := by
  rw [mem_dirtyIds]
  constructor
  · intro h
    rcases h with ⟨hn, e, he, hne⟩
    by_cases hi : i = d.id
    · subst i
      rw [Session.about_documents] at he
      cases he
      exact ⟨rfl, hn, hne⟩
    · rw [Session.about_others hi] at he
      cases he
  · intro h
    rcases h with ⟨rfl, hn, hne⟩
    exact ⟨hn, _, Session.about_documents, hne⟩

theorem finishes_flush_about (hE : Reliable E) (hd : s.db.documents d.id = some d)
    (hx : State.Inside t s (Session.about d d w) x) :
    Finishes machine t E Action.flush
      (fun out y => out = .ok () ∧ State.Inside t s (Session.about d d w) y) x := by
  refine (finishes_flush hE hx (Session.about_flushable hd)).mono fun out y h => ?_
  rcases h with ⟨hout, n, clock, -, hy⟩
  have hnone : dirtyIds (Session.about d d w).documents n = [] := by
    rw [List.eq_nil_iff_forall_not_mem]
    intro i hi
    exact (mem_dirty_about.mp hi).2.2 rfl
  rw [hnone, Session.flush_nil] at hy
  exact ⟨hout, hy⟩

theorem Session.about_committed {n : Nat} {chunks : List Chunk}
    (hd : s.db.documents d.id = some d) (hn : d.id < n) (hne : current ≠ d)
    (hw : w.documents = fun _ => none) (hbases : w.knowledgeBases = fun _ => none)
    (hprofiles : w.profiles = fun _ => none) (hevents : w.events = fun _ => none)
    (hchunks : (s.db.install w).chunks = Function.update s.db.chunks d.id chunks)
    (hy : s.Leaves (s.db.install ((Session.about d current w).flush s.db
      (dirtyIds (Session.about d current w).documents n) clock).writes) y) :
    s.Updates d.id (Document.write d current d (clock d.id)) chunks y where
  idle := hy.idle
  documents := by
    rw [hy.db]
    funext i
    by_cases hi : i = d.id
    · subst i
      have hmem : d.id ∈ dirtyIds (Session.about d current w).documents n :=
        mem_dirty_about.mpr ⟨rfl, hn, hne⟩
      simp [Db.install, Session.flush, Session.flushedRows, hmem, Session.about_documents, hd]
    · simp [Db.install, Session.flush, Session.flushedRows, hi, Session.about, hw]
  chunks := by
    rw [hy.db]
    exact hchunks
  knowledgeBases := by
    rw [hy.db]
    funext i
    simp [Db.install, Session.flush, Session.about, hbases]
  profiles := by
    rw [hy.db]
    funext i
    simp [Db.install, Session.flush, Session.about, hprofiles]
  events := by
    rw [hy.db]
    funext i
    simp [Db.install, Session.flush, Session.about, hevents]
  storage := hy.storage
  nextId := hy.nextId

theorem Document.write_over (d current : Document) (now : Nat) (hid : current.id = d.id)
    (htime : current.updatedTime = d.updatedTime) :
    Document.write d current d now = { current with updatedTime := some now } := by
  simp only [Document.write, writeColumn_loaded, htime, if_true, hid]

theorem Document.write_touched (d current : Document) (now : Nat) (hid : current.id = d.id)
    (htime : current.updatedTime ≠ d.updatedTime) : Document.write d current d now = current := by
  simp only [Document.write, writeColumn_loaded, if_neg htime, ← hid]

end

/-!
# Why an index run fails

The provider may raise, and a batch that is halved on the way yields a vector for each of its
texts.
-/

def EmbedFails (E : Command -> Choice -> Prop) (dimensions : Nat) (e : Exception) : Prop :=
  exists batch, E (.embed dimensions batch) (.fail e) ∨
    exists now vectors, E (.embed dimensions batch) (.proceed now vectors) ∧
      ¬ (vectors.length = batch.length ∧ forall v, v ∈ vectors -> v.length = dimensions) ∧
      e = .value "Embedding 返回向量数量或维度不匹配".toList

/-- The reasons for which an index run of a document raises. -/
inductive IndexFailure (env : Env) (cfg : Settings) (E : Command -> Choice -> Prop) (s : State)
    (d : Document) : Exception -> Prop where
  | unread {e : Exception} : s.ReadFails E d.storageKey e -> IndexFailure env cfg E s d e
  | unparsed {e : Exception} {content : Bytes} : s.storage d.storageKey = some content ->
      Parsing.parseDocument env cfg d.filename content = .error e ->
      IndexFailure env cfg E s d e
  | empty {content : Bytes} {text : Text} : s.storage d.storageKey = some content ->
      Parsing.parseDocument env cfg d.filename content = .ok text ->
      Chunking.splitParentChildText text cfg.chunkSize cfg.chunkOverlap = [] ->
      IndexFailure env cfg E s d (.value "文档没有可索引正文".toList)
  | unbatched : cfg.embeddingBatchSize < 1 ->
      IndexFailure env cfg E s d (.value "Embedding 批量大小必须大于 0".toList)
  | unembedded {e : Exception} : EmbedFails E cfg.embeddingDimensions e ->
      IndexFailure env cfg E s d e

section

variable {env : Env} {cfg : Settings} {t : Nat} {s x y : State} {E : Command -> Choice -> Prop}
variable {d : Document}

structure Embedded (E : Command -> Choice -> Prop) (dimensions : Nat) (x : State) (count : Nat)
    (out : Except Exception (List Embedding)) (y : State) : Prop where
  same : y = x
  vectors : forall vectors, out = .ok vectors -> vectors.length = count
  fails : forall e, out = .error e -> EmbedFails E dimensions e

theorem Embedded.ok {dimensions : Nat} (vectors : List Embedding) :
    Embedded E dimensions x vectors.length (.ok vectors) x where
  same := rfl
  vectors := by
    intro vectors' h
    cases h
    rfl
  fails := by
    intro e h
    cases h

theorem Embedded.error {dimensions count : Nat} {e : Exception} (he : EmbedFails E dimensions e) :
    Embedded E dimensions x count (.error e) x where
  same := rfl
  vectors := by
    intro vectors h
    cases h
  fails := by
    intro e' h
    cases h
    exact he

theorem finishes_embed (hE : Reliable E) (dimensions : Nat) (batch : List Text) :
    Finishes machine t E (Action.embed dimensions batch)
      (Embedded E dimensions x batch.length) x := by
  apply finishes_outside hE rfl
  · intro e he
    exact .error ⟨batch, .inl he⟩
  · intro now vectors hch
    by_cases hcheck : vectors.length = batch.length ∧
        forall v, v ∈ vectors -> v.length = dimensions
    · refine ⟨x, .ok vectors, if_pos hcheck, ?_⟩
      rw [← hcheck.1]
      exact .ok vectors
    · exact ⟨x, .error _, if_neg hcheck, .error ⟨batch, .inr ⟨now, vectors, hch, hcheck, rfl⟩⟩⟩

theorem finishes_embedBatch (hE : Reliable E) (dimensions n : Nat) (batch : List Text) :
    Finishes machine t E (embedBatch (Action.embed dimensions) n batch)
      (Embedded E dimensions x batch.length) x := by
  induction n generalizing batch with
  | zero =>
      unfold embedBatch
      refine (finishes_embed hE dimensions batch).handle (fun _ _ h => h) ?_
      intro e y h
      cases h.same
      dsimp only
      split
      · exact .error (h.fails e rfl)
      · exact .error (h.fails e rfl)
  | succ n ih =>
      unfold embedBatch
      refine (finishes_embed hE dimensions batch).handle (fun _ _ h => h) ?_
      intro e y h
      cases h.same
      dsimp only
      split
      · exact .error (h.fails e rfl)
      · refine (ih (batch.take (batch.length / 2))).bind ?_ ?_
        · intro e y h
          cases h.same
          exact .error (h.fails e rfl)
        · intro left y h
          cases h.same
          have hleft := h.vectors left rfl
          refine (ih (batch.drop (batch.length / 2))).bind ?_ ?_
          · intro e y h
            cases h.same
            exact .error (h.fails e rfl)
          · intro right y h
            cases h.same
            have hright := h.vectors right rfl
            have hlength : (left ++ right).length = batch.length := by
              rw [List.length_append, hleft, hright, ← List.length_append, List.take_append_drop]
            rw [← hlength]
            exact .ok (left ++ right)

theorem length_flatten_of_forall₂ {batches : List (List Text)} {parts : List (List Embedding)}
    (h : List.Forall₂ (fun batch part => part.length = batch.length) batches parts) :
    parts.flatten.length = batches.flatten.length := by
  induction h with
  | nil => rfl
  | cons hpart _ ih => rw [List.flatten_cons, List.flatten_cons, List.length_append,
      List.length_append, hpart, ih]

theorem finishes_embedTextsInBatches (hE : Reliable E) (dimensions : Nat) (texts : List Text)
    {batchSize : Nat} (hsize : 1 ≤ batchSize) :
    Finishes machine t E (embedTextsInBatches (Action.embed dimensions) texts batchSize)
      (Embedded E dimensions x texts.length) x := by
  unfold embedTextsInBatches
  rw [if_neg (Nat.not_lt_of_le hsize)]
  have hloop := finishes_mapEach (M := machine) (t := t) (E := E) (J := fun y => y = x)
    (R := fun (batch : List Text) (part : List Embedding) => part.length = batch.length)
    (F := EmbedFails E dimensions) (f := fun batch =>
      embedBatch (Action.embed dimensions) batch.length batch)
    (fun batch y hy => ?_) (batches texts batchSize) (s := x) rfl
  · refine hloop.bind ?_ ?_
    · intro e y h
      rcases h with ⟨rfl, -, hfails⟩
      exact .error (hfails e rfl)
    · intro parts y h
      rcases h with ⟨rfl, hparts, -⟩
      have hlength := length_flatten_of_forall₂ (hparts parts rfl)
      rw [EmbeddingBatches.flatten_batches texts hsize] at hlength
      rw [← hlength]
      exact .ok parts.flatten
  · rw [hy]
    exact (finishes_embedBatch hE dimensions batch.length batch).mono fun out y h =>
      ⟨h.same, h.vectors, h.fails⟩

/-!
# The body of an index run

The unique index entries of the chunks of a run are all different, so nothing but the reasons
above makes it raise.
-/

theorem IndexRun.rows_distinct (run : IndexRun) :
    (run.rows env d).Pairwise fun a b => a.clashes b = false := by
  have hparents : (run.parentRows env d).map Chunk.chunkIndex =
      (List.range (run.parentRows env d).length).map fun i : Nat => -((i : Int) + 1) := by
    rw [IndexRun.parentRows, chunkIndex_numberChunks, length_numberChunks]
    exact map_mapIdx_of_index _ fun _ _ => rfl
  have hchildren : (run.childRows env d).map Chunk.chunkIndex =
      (List.range (run.childRows env d).length).map fun i : Nat => (i : Int) := by
    rw [IndexRun.childRows, chunkIndex_numberChunks, length_numberChunks]
    exact map_mapIdx_of_index _ fun _ _ => rfl
  have hnodup : ((run.rows env d).map Chunk.chunkIndex).Nodup := by
    rw [IndexRun.rows, List.map_append, hparents, hchildren, List.nodup_append]
    refine ⟨List.nodup_range.map ?_, List.nodup_range.map ?_, ?_⟩
    · intro i j h
      simpa using h
    · intro i j h
      simpa using h
    · intro a ha b hb
      rcases List.mem_map.mp ha with ⟨i, -, rfl⟩
      rcases List.mem_map.mp hb with ⟨j, -, rfl⟩
      omega
  rw [List.Nodup, List.pairwise_map] at hnodup
  refine hnodup.imp fun hne => ?_
  simp [Chunk.clashes, hne]

structure IndexBody (env : Env) (cfg : Settings) (E : Command -> Choice -> Prop) (t : Nat)
    (s : State) (d : Document) (content : Bytes) (out : Except Exception Unit) (y : State) :
    Prop where
  done : forall a, out = .ok a -> exists run : IndexRun, run.cfg = cfg ∧ run.content = content ∧
    run.Valid env PositiveChunkSize d ∧
    State.Inside t s (Session.about d (d.indexed run.text run.children.length)
      (Writes.ofChunks d.id (run.rows env d))) y
  failed : forall e, out = .error e -> IndexFailure env cfg E s d e ∧
    exists σ, State.Inside t s σ y

theorem IndexBody.error {content : Bytes} {e : Exception} {σ : Session}
    (he : IndexFailure env cfg E s d e) (hy : State.Inside t s σ y) :
    IndexBody env cfg E t s d content (.error e) y where
  done := by
    intro a h
    cases h
  failed := by
    intro e' h
    cases h
    exact ⟨he, σ, hy⟩

theorem finishes_indexContent (hE : Reliable E) (hcfg : PositiveChunkSize cfg)
    (hd : s.db.documents d.id = some d) (hstatus : d.status = .processing) {content : Bytes}
    (hcontent : s.storage d.storageKey = some content)
    (hx : State.Inside t s (Session.ofDocument d) x) :
    Finishes machine t E (indexContent env cfg d content)
      (IndexBody env cfg E t s d content) x := by
  have hsame : { d with status := .processing } = d := by
    rw [← hstatus]
  have hfound : State.Inside t s (Session.about d d {}) x := hx
  refine (finishes_assign_about hE hfound _).bind ?_ ?_
  · intro e y h
    cases h.1
  intro _ y h
  have hy : State.Inside t s (Session.about d { d with status := .processing } {}) y := h.2
  rw [hsame] at hy
  cases htext : Parsing.parseDocument env cfg d.filename content with
  | error e => exact .error (.unparsed hcontent htext) hy
  | ok text =>
      refine Finishes.bind (P := fun out z => out = .ok text ∧ z = y) ⟨rfl, rfl⟩ ?_ ?_
      · intro e z hz
        cases hz.1
      intro _ z hz
      cases hz.1
      cases hz.2
      dsimp only
      split
      · rename_i hempty
        exact .error (.empty hcontent htext (List.isEmpty_iff.mp hempty)) hy
      rename_i hparents
      by_cases hsize : 1 ≤ cfg.embeddingBatchSize
      swap
      · unfold embedTextsInBatches
        rw [if_pos (Nat.lt_of_not_le hsize)]
        exact .error (.unbatched (Nat.lt_of_not_le hsize)) hy
      refine (finishes_embedTextsInBatches hE _ _ hsize).bind ?_ ?_
      · intro e z hz
        cases hz.same
        exact .error (.unembedded (hz.fails e rfl)) hy
      intro vectors z hz
      cases hz.same
      have hvectors : vectors.length = (childPieces (Chunking.splitParentChildText text
          cfg.chunkSize cfg.chunkOverlap)).length :=
        (hz.vectors vectors rfl).trans (List.length_map ..)
      refine (finishes_deleteChunks hE hy d.id).bind ?_ ?_
      · intro e z hz
        cases hz.1
      intro _ y₁ h₁
      refine (finishes_flush_about hE hd h₁.2).bind ?_ ?_
      · intro e z hz
        cases hz.1
      intro _ y₂ h₂
      have hy₂ := h₂.2
      let run (firstParent firstChild : Nat) : IndexRun :=
        ⟨cfg, content, text, vectors, firstParent, firstChild⟩
      have hy₂' : State.Inside t s (Session.about d d (Writes.ofChunks d.id [])) y₂ := hy₂
      have hnone : (s.db.install (Writes.ofChunks d.id [])).chunks d.id = [] := by
        rw [Db.install_ofChunks, Function.update_self]
      refine (finishes_insertChunks hE hy₂' d.id _ ?_).bind ?_ ?_
      · intro n
        show ((s.db.install (Writes.ofChunks d.id [])).chunks d.id ++ _).Pairwise _
        rw [hnone]
        exact (List.pairwise_append.mp (run n 0).rows_distinct).1
      · intro e z hz
        rcases hz with ⟨n, hz, -⟩
        cases hz
      intro parentIds y₃ h₃
      rcases h₃ with ⟨firstParent, hids, hy₃⟩
      cases hids
      rw [if_neg (not_not_intro hvectors.symm)]
      have hy₃' : State.Inside t s (Session.about d d
          (Writes.ofChunks d.id ((run firstParent 0).parentRows env d))) y₃ := by
        have hparent := hy₃.replaceChunks
        change State.Inside t s (Session.about d d (Writes.ofChunks d.id
          ((s.db.install (Writes.ofChunks d.id [])).chunks d.id ++ _))) y₃ at hparent
        rw [hnone] at hparent
        exact hparent
      have hplaced : (s.db.install (Writes.ofChunks d.id
          ((run firstParent 0).parentRows env d))).chunks d.id =
          (run firstParent 0).parentRows env d := by
        rw [Db.install_ofChunks, Function.update_self]
      refine (finishes_insertChunks hE hy₃' d.id _ ?_).bind ?_ ?_
      · intro n
        show ((s.db.install (Writes.ofChunks d.id _)).chunks d.id ++ _).Pairwise _
        rw [hplaced]
        exact (run firstParent n).rows_distinct
      · intro e z hz
        rcases hz with ⟨n, hz, -⟩
        cases hz
      intro childIds y₄ h₄
      rcases h₄ with ⟨firstChild, -, hy₄⟩
      have hy₄' : State.Inside t s (Session.about d d
          (Writes.ofChunks d.id ((run firstParent firstChild).rows env d))) y₄ := by
        have hchild := hy₄.replaceChunks
        change State.Inside t s (Session.about d d (Writes.ofChunks d.id
          ((s.db.install (Writes.ofChunks d.id _)).chunks d.id ++ _))) y₄ at hchild
        rw [hplaced] at hchild
        exact hchild
      refine (finishes_assign_about hE hy₄' _).mono fun out z hz => ?_
      constructor
      · intro _ _
        refine ⟨run firstParent firstChild, rfl, rfl, ⟨hcfg, htext, ?_, hvectors⟩, hz.2⟩
        intro hnil
        exact hparents (List.isEmpty_iff.mpr hnil)
      · intro e he
        cases hz.1.symm.trans he

/-!
# The three transactions

The claim, the run and the record of a failure.
-/

theorem finishes_claim (hE : Reliable E) (hs : s.Idle) (hd : s.db.documents d.id = some d)
    (hn : d.id < s.nextId) (hlive : d.deleted = 0) (hpending : d.status = .pending)
    {request : Option Nat} (hrequest : forall v, v ∈ request -> v = d.indexVersion) :
    Finishes machine t E
      (Action.transaction (Tasks.claimNote d.id) (claimIndex d.id request))
      (fun out y => out = .ok (.claimed, some d.indexVersion) ∧ y.broker = s.broker ∧
        exists now, s.Updates d.id { d.claimed with updatedTime := some now }
          (s.db.chunks d.id) y) s := by
  apply finishes_transaction hE hs
  intro x hx
  refine (finishes_getLiveForUpdate hE hx hd hlive).bind ?_ ?_
  · intro e y h
    cases h.1
  intro found y h
  cases h.1
  have hcurrent : ¬ (request.any fun v => d.indexVersion ≠ v) = true := by
    intro hstale
    rcases (Option.any_eq_true ..).mp hstale with ⟨v, hv, hne⟩
    exact of_decide_eq_true hne (hrequest v hv).symm
  dsimp only
  rw [if_neg hcurrent, hpending]
  have hfound : State.Inside t s (Session.about d d {}) y := h.2
  refine (finishes_assign_about hE hfound _).bind ?_ ?_
  · intro e z hz
    cases hz.1
  intro _ z hz
  refine ⟨s, _, hz.2, Session.about_flushable hd, ?_⟩
  intro n clock y' hle hy'
  refine ⟨rfl, hy'.broker, clock d.id, ?_⟩
  have hne : d.claimed ≠ d := by
    intro heq
    have hstatus := congrArg Document.status heq
    rw [hpending] at hstatus
    cases hstatus
  rw [← Document.write_over d d.claimed (clock d.id) rfl rfl]
  apply Session.about_committed hd (Nat.lt_of_lt_of_le hn hle) hne rfl rfl rfl rfl ?_ hy'
  rw [Function.update_eq_self]
  rfl

def IndexOutcome (env : Env) (cfg : Settings) (E : Command -> Choice -> Prop) (s : State)
    (d : Document) (out : Except Exception IndexResult) (y : State) : Prop :=
  y.broker = s.broker ∧
    ((exists r, out = .ok r ∧ exists (run : IndexRun) (now : Nat), run.cfg = cfg ∧
        s.storage d.storageKey = some run.content ∧ run.Valid env PositiveChunkSize d ∧
        s.Updates d.id
          { d.indexed run.text run.children.length with updatedTime := some now }
          (run.rows env d) y) ∨
      exists e, out = .error e ∧ IndexFailure env cfg E s d e ∧ s.Leaves s.db y)

theorem finishes_indexClaimed (hE : Reliable E) (hcfg : PositiveChunkSize cfg) (hs : s.Idle)
    (hd : s.db.documents d.id = some d) (hn : d.id < s.nextId) (hlive : d.deleted = 0)
    (hstatus : d.status = .processing) :
    Finishes machine t E
      (Action.transaction (Tasks.indexNote d.id)
        (indexClaimedDocument env cfg d.id d.indexVersion))
      (IndexOutcome env cfg E s d) s := by
  apply finishes_transaction hE hs
  intro x hx
  refine (finishes_getLiveForUpdate hE hx hd hlive).bind ?_ ?_
  · intro e y h
    cases h.1
  intro found y h
  cases h.1
  dsimp only
  rw [if_neg (not_not_intro rfl), if_neg (not_not_intro hstatus)]
  refine (finishes_getObject hE d.storageKey).bind ?_ ?_
  · intro e z hz
    rcases hz with ⟨rfl, -, hfails⟩
    refine ⟨s, _, h.2, ?_⟩
    intro y' hy'
    refine ⟨hy'.broker, .inr ⟨e, rfl, .unread ?_, hy'⟩⟩
    have hread := hfails e rfl
    unfold State.ReadFails at hread ⊢
    rw [h.2.storage] at hread
    exact hread
  intro content z hz
  rcases hz with ⟨rfl, hobject, -⟩
  have hcontent : s.storage d.storageKey = some content := by
    rw [← h.2.storage]
    exact hobject content rfl
  refine (finishes_indexContent hE hcfg hd hstatus hcontent h.2).bind ?_ ?_
  · intro e w hw
    rcases hw.failed e rfl with ⟨hfails, σ, hw⟩
    refine ⟨s, σ, hw, ?_⟩
    intro y' hy'
    exact ⟨hy'.broker, .inr ⟨e, rfl, hfails, hy'⟩⟩
  intro _ w hw
  rcases hw.done () rfl with ⟨run, hrun, rfl, hvalid, hw⟩
  refine ⟨s, _, hw, Session.about_flushable hd, ?_⟩
  intro n clock y' hle hy'
  refine ⟨hy'.broker, .inl ⟨_, rfl, run, clock d.id, hrun, hcontent, hvalid, ?_⟩⟩
  have hne : d.indexed run.text run.children.length ≠ d := by
    intro heq
    have hready := congrArg Document.status heq
    rw [hstatus] at hready
    cases hready
  rw [← Document.write_over d (d.indexed run.text run.children.length) (clock d.id) rfl rfl]
  exact Session.about_committed hd (Nat.lt_of_lt_of_le hn hle) hne rfl rfl rfl rfl
    (Db.install_ofChunks s.db d.id (run.rows env d)) hy'

theorem finishes_markIndexFailure (hE : Reliable E) (hs : s.Idle)
    (hd : s.db.documents d.id = some d) (hn : d.id < s.nextId) (hlive : d.deleted = 0)
    (hprocessing : d.status = .processing) {status : DocumentStatus}
    (hstatus : status = .pending ∨ status = .failed) (message : Text) :
    Finishes machine t E
      (Action.transaction (Tasks.failureNote d.id d.indexVersion)
        (markIndexFailure d.id d.indexVersion status message))
      (fun out y => (exists marked, out = .ok marked) ∧ y.broker = s.broker ∧
        exists now, s.Updates d.id
          { d.failed status (message.take 512) with updatedTime := some now }
          (s.db.chunks d.id) y) s := by
  have hallowed : ¬ (status ≠ .pending ∧ status ≠ .failed) := by
    intro hother
    cases hstatus with
    | inl hpending => exact hother.1 hpending
    | inr hfailed => exact hother.2 hfailed
  apply finishes_transaction hE hs
  intro x hx
  unfold markIndexFailure
  rw [if_neg hallowed]
  refine (finishes_getLiveForUpdate hE hx hd hlive).bind ?_ ?_
  · intro e y h
    cases h.1
  intro found y h
  cases h.1
  have hopen : ¬ (d.status = .ready ∨ d.status = .deleting) := by
    rw [hprocessing]
    intro hdone
    cases hdone with
    | inl hready => cases hready
    | inr hdeleting => cases hdeleting
  dsimp only
  rw [if_neg (not_not_intro rfl), if_neg hopen]
  have hfound : State.Inside t s (Session.about d d {}) y := h.2
  refine (finishes_assign_about hE hfound _).bind ?_ ?_
  · intro e z hz
    cases hz.1
  intro _ z hz
  refine ⟨s, _, hz.2, Session.about_flushable hd, ?_⟩
  intro n clock y' hle hy'
  refine ⟨⟨true, rfl⟩, hy'.broker, clock d.id, ?_⟩
  have hne : d.failed status (message.take 512) ≠ d := by
    intro heq
    have hsame := congrArg Document.status heq
    rw [hprocessing] at hsame
    cases hstatus with
    | inl hpending =>
        rw [hpending] at hsame
        cases hsame
    | inr hfailed =>
        rw [hfailed] at hsame
        cases hsame
  rw [← Document.write_over d (d.failed status (message.take 512)) (clock d.id) rfl rfl]
  apply Session.about_committed hd (Nat.lt_of_lt_of_le hn hle) hne rfl rfl rfl rfl ?_ hy'
  rw [Function.update_eq_self]
  rfl

/-!
# The whole task

What fails the run of the claimed row fails the run of the document, and the transaction that
was taken back leaves nothing.
-/

theorem State.Updates.trans {i : Nat} {row row' : Document} {chunks chunks' : List Chunk}
    {z : State} (h : s.Updates i row chunks y) (h' : y.Updates i row' chunks' z) :
    s.Updates i row' chunks' z where
  idle := h'.idle
  documents := by rw [h'.documents, h.documents, Function.update_idem]
  chunks := by rw [h'.chunks, h.chunks, Function.update_idem]
  knowledgeBases := h'.knowledgeBases.trans h.knowledgeBases
  profiles := h'.profiles.trans h.profiles
  events := h'.events.trans h.events
  storage := h'.storage.trans h.storage
  nextId := Nat.le_trans h.nextId h'.nextId

theorem State.Updates.leaves {i : Nat} {row : Document} {chunks : List Chunk} {z : State}
    (h : s.Updates i row chunks y) (h' : y.Leaves y.db z) : s.Updates i row chunks z where
  idle := h'.idle
  documents := by rw [h'.db, h.documents]
  chunks := by rw [h'.db, h.chunks]
  knowledgeBases := by rw [h'.db, h.knowledgeBases]
  profiles := by rw [h'.db, h.profiles]
  events := by rw [h'.db, h.events]
  storage := h'.storage.trans h.storage
  nextId := Nat.le_trans h.nextId h'.nextId

theorem State.Updates.send {i : Nat} {row : Document} {chunks : List Chunk}
    (h : s.Updates i row chunks y) (broker : List Message) :
    s.Updates i row chunks { y with broker := broker } :=
  ⟨⟨h.idle.sessions, h.idle.locks⟩, h.documents, h.chunks, h.knowledgeBases, h.profiles,
    h.events, h.storage, h.nextId⟩

def indexAgain (d : Document) (request : Option Nat) : Message :=
  .indexDocument (.int d.id) ((request.map fun v => Json.int v).getD .null)

/-- How an index task on a pending document may end. -/
inductive IndexSettled (env : Env) (cfg : Settings) (E : Command -> Choice -> Prop) (s : State)
    (d : Document) (request : Option Nat) (retries : Nat) : Except Exception Unit -> State -> Prop
    where
  /-- the document is ready, with the chunks of this run -/
  | indexed {y : State} (run : IndexRun) (now : Nat) (hcfg : run.cfg = cfg)
      (hcontent : s.storage d.storageKey = some run.content)
      (hvalid : run.Valid env PositiveChunkSize d) (hbroker : y.broker = s.broker)
      (hrow : s.Updates d.id
        { d.indexed run.text run.children.length with updatedTime := some now }
        (run.rows env d) y) : IndexSettled env cfg E s d request retries (.ok ()) y
  /-- the document waits for another run, which has been asked for -/
  | requeued {y : State} (e : Exception) (now : Nat) (hfails : IndexFailure env cfg E s d e)
      (hretryable : Failures.isRetryableIndexError e = true) (hmore : retries < cfg.indexMaxRetries)
      (hbroker : y.broker = s.broker ++ [indexAgain d request])
      (hrow : s.Updates d.id
        { d.failed .pending ((Failures.sanitizeIndexError e).take 512) with
          updatedTime := some now } (s.db.chunks d.id) y) :
      IndexSettled env cfg E s d request retries (.ok ()) y
  /-- the document waits for another run, and the broker has refused the request -/
  | refused {y : State} (e refusal : Exception) (now : Nat)
      (hfails : IndexFailure env cfg E s d e)
      (hretryable : Failures.isRetryableIndexError e = true) (hmore : retries < cfg.indexMaxRetries)
      (hrefused : E (.send (indexAgain d request)) (.fail refusal))
      (hbroker : y.broker = s.broker)
      (hrow : s.Updates d.id
        { d.failed .pending ((Failures.sanitizeIndexError e).take 512) with
          updatedTime := some now } (s.db.chunks d.id) y) :
      IndexSettled env cfg E s d request retries (.error refusal) y
  /-- the document has failed for good -/
  | failed {y : State} (e : Exception) (now : Nat) (hfails : IndexFailure env cfg E s d e)
      (hfinal : Failures.isRetryableIndexError e = true -> cfg.indexMaxRetries ≤ retries)
      (hbroker : y.broker = s.broker)
      (hrow : s.Updates d.id
        { d.failed .failed ((Failures.sanitizeIndexError e).take 512) with
          updatedTime := some now } (s.db.chunks d.id) y) :
      IndexSettled env cfg E s d request retries
        (if Failures.isRetryableIndexError e then .error e else .ok ()) y

theorem IndexFailure.of_claimed {now : Nat} {e : Exception} (hstorage : y.storage = s.storage)
    (h : IndexFailure env cfg E y { d.claimed with updatedTime := some now } e) :
    IndexFailure env cfg E s d e := by
  cases h with
  | unread hread =>
      apply IndexFailure.unread
      unfold State.ReadFails at hread ⊢
      rw [hstorage] at hread
      exact hread
  | unparsed hcontent hparse =>
      rw [hstorage] at hcontent
      exact .unparsed hcontent hparse
  | empty hcontent hparse hnone =>
      rw [hstorage] at hcontent
      exact .empty hcontent hparse hnone
  | unbatched hsize => exact .unbatched hsize
  | unembedded hfails => exact .unembedded hfails

/-- An index task alone on a pending document, at any state of the database. -/
theorem finishes_indexDocument (hE : Reliable E) (hcfg : PositiveChunkSize cfg) (hs : s.Idle)
    (hd : s.db.documents d.id = some d) (hn : d.id < s.nextId) (hlive : d.deleted = 0)
    (hpending : d.status = .pending) {request : Option Nat}
    (hrequest : forall v, v ∈ request -> v = d.indexVersion) (retries : Nat) :
    Finishes machine t E (Tasks.indexDocument env cfg d.id request retries)
      (IndexSettled env cfg E s d request retries) s := by
  refine (finishes_claim hE hs hd hn hlive hpending hrequest).bind ?_ ?_
  · intro e y h
    cases h.1
  intro result y h
  rcases h with ⟨hresult, hbroker, claimedAt, hclaimed⟩
  cases hresult
  dsimp only
  -- the row as the claim has left it
  let row : Document := { d.claimed with updatedTime := some claimedAt }
  have hrow : y.db.documents row.id = some row := by
    rw [hclaimed.documents]
    exact Function.update_self ..
  have hchunks : y.db.chunks row.id = s.db.chunks d.id := by
    rw [hclaimed.chunks]
    exact Function.update_self ..
  have hbound : row.id < y.nextId := Nat.lt_of_lt_of_le hn hclaimed.nextId
  have hrun : Finishes machine t E
      (Action.transaction (Tasks.indexNote d.id)
        (indexClaimedDocument env cfg d.id d.indexVersion))
      (IndexOutcome env cfg E y row) y :=
    finishes_indexClaimed hE hcfg hclaimed.idle hrow hbound hlive rfl
  refine hrun.outcome.bind ?_ ?_
  · intro e z hz
    rcases hz with ⟨r, hr, -⟩
    cases hr
  intro outcome z hz
  rcases hz with ⟨r, hr, hbroker', hz⟩
  cases hr
  rcases hz with ⟨r, rfl, run, now, hsettings, hcontent, hvalid, hdone⟩ | ⟨e, rfl, hfails, hback⟩
  · refine .indexed run now hsettings ?_ ⟨hvalid.allowed, hvalid.parsed, hvalid.parents,
      hvalid.vectors⟩ (hbroker'.trans hbroker) (hclaimed.trans hdone)
    rw [← hclaimed.storage]
    exact hcontent
  · have hfailure : IndexFailure env cfg E s d e := hfails.of_claimed hclaimed.storage
    let retryable := Failures.isRetryableIndexError e
    let again := retryable && decide (retries < cfg.indexMaxRetries)
    let status := if again then DocumentStatus.pending else .failed
    have hstatus : status = .pending ∨ status = .failed := by
      by_cases hagain : again
      · exact .inl (if_pos hagain)
      · exact .inr (if_neg hagain)
    have hback' := hclaimed.leaves hback
    have hrow' : z.db.documents row.id = some row := by
      rw [hback.db]
      exact hrow
    have hmark : Finishes machine t E
        (Action.transaction (Tasks.failureNote d.id d.indexVersion)
          (markIndexFailure d.id d.indexVersion status (Failures.sanitizeIndexError e)))
        (fun out w => (exists marked, out = .ok marked) ∧ w.broker = z.broker ∧
          exists now, z.Updates row.id
            { row.failed status ((Failures.sanitizeIndexError e).take 512) with
              updatedTime := some now } (z.db.chunks row.id) w) z :=
      finishes_markIndexFailure hE hback.idle hrow' (Nat.lt_of_lt_of_le hbound hback.nextId)
        hlive rfl hstatus _
    refine hmark.bind ?_ ?_
    · intro e' w hw
      rcases hw.1 with ⟨marked, hmarked⟩
      cases hmarked
    intro marked w hw
    rcases hw with ⟨-, hbroker'', now, hmarked⟩
    rw [hback.db, hchunks] at hmarked
    have hfinal := hback'.trans hmarked
    have hsame : w.broker = s.broker := (hbroker''.trans hbroker').trans hbroker
    by_cases hagain : again
    · rcases (Bool.and_eq_true_iff ..).mp hagain with ⟨hretryable, hmore⟩
      have hpending' : status = .pending := if_pos hagain
      rw [hpending'] at hfinal
      show Finishes machine t E (if again then _ else _) _ w
      rw [if_pos hagain]
      refine (finishes_send hE (indexAgain d request)).mono fun out v hv => ?_
      rcases hv with ⟨rfl, rfl⟩ | ⟨refusal, hrefused, rfl, rfl⟩
      · refine .requeued e now hfailure hretryable (of_decide_eq_true hmore) ?_ (hfinal.send _)
        rw [← hsame]
      · exact .refused e refusal now hfailure hretryable (of_decide_eq_true hmore) hrefused
          hsame hfinal
    · have hfailed : status = .failed := if_neg hagain
      rw [hfailed] at hfinal
      have hlast : retryable = true -> cfg.indexMaxRetries ≤ retries := by
        intro hretryable
        refine Nat.le_of_not_lt fun hmore => hagain ?_
        simp [again, hretryable, hmore]
      have hsettled : IndexSettled env cfg E s d request retries
          (if retryable then .error e else .ok ()) w := .failed e now hfailure hlast hsame hfinal
      show Finishes machine t E (if again then _ else if retryable then _ else _) _ w
      rw [if_neg hagain]
      by_cases hretryable : retryable = true
      · rw [if_pos hretryable] at hsettled ⊢
        exact hsettled
      · rw [if_neg hretryable] at hsettled ⊢
        exact hsettled

end

/--
Whatever storage, provider and broker do, an index task that runs alone on a pending document
comes to its end, and never leaves the document claimed.
-/
theorem index_run_settles {env : Env} {cfg : Settings} {E : Command -> Choice -> Prop}
    (hE : Reliable E) (hcfg : PositiveChunkSize cfg) {last : RagConfig}
    (hrun : System.Reaches (system env) (system env).anyRun initial last)
    (hquiet : last.shared.Quiet) {i : Nat} {d : Document}
    (hd : last.shared.db.documents i = some d) (hpending : d.status = .pending)
    {request : Option Nat} (hrequest : forall v, v ∈ request -> v = d.indexVersion)
    (retries t : Nat) :
    Finishes machine t E (Tasks.indexDocument env cfg i request retries)
      (IndexSettled env cfg E last.shared d request retries) last.shared := by
  rcases document_of_reaches hrun hd with ⟨rfl, hbound, hlive⟩
  exact finishes_indexDocument hE hcfg (idle_of_quiet hrun hquiet) hd hbound hlive hpending
    hrequest retries

/-!
# A sample run

The database and the clock answer, and everything else may fail in any way.
-/

namespace Sample

def anyAnswer (c : Command) : Choice -> Prop
  | .fail _ => c.outside = true ∧ c ≠ .now
  | .proceed _ _ => True

theorem anyAnswer_reliable : Reliable anyAnswer where
  answers := fun _ => ⟨.proceed 0 [], trivial⟩
  fails := fun h => h

end Sample

/-- The document of the sample upload. -/
theorem index_run_settles_upload : exists (last : RagConfig) (d : Document),
    last.shared.db.documents 3 = some d ∧
      Finishes machine 2 Sample.anyAnswer
        (Tasks.indexDocument Sample.env Sample.settings 3 (some 1) 0)
        (IndexSettled Sample.env Sample.settings Sample.anyAnswer last.shared d (some 1) 0)
        last.shared := by
  rcases exists_quiet Sample.env Sample.upload 2
    (fun last : RagConfig => (last.shared.db.documents 3).any (fun d =>
      d.status = .pending ∧ d.indexVersion = 1) = true) (by decide) (by decide +kernel) with
    ⟨last, hrun, hquiet, hrow⟩
  rcases (Option.any_eq_true ..).mp hrow with ⟨d, hd, hcond⟩
  rcases of_decide_eq_true hcond with ⟨hpending, hversion⟩
  refine ⟨last, d, hd, index_run_settles Sample.anyAnswer_reliable (by decide) hrun hquiet hd
    hpending ?_ 0 2⟩
  intro v hv
  rw [hversion]
  exact (Option.mem_some.mp hv).symm

end RagService
