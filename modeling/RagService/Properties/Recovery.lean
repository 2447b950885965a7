import RagService.Foundation.Sorting
import RagService.Properties.IndexRuns

/-!
# Recovery

The repair task finds the documents that a lost worker or a lost message has left behind and
asks for their runs again.  Delivered alone, with storage, broker and provider at work, the
messages that it sends bring such a document to its end: it becomes ready, or it is gone.
-/

namespace RagService

open Interleaving RagService.Action DocumentService

/-- Storage, broker and provider work, and the provider answers with vectors of the right size. -/
structure Healthy (E : Command -> Choice -> Prop) : Prop extends Reliable E where
  works : forall {c e}, ¬ E c (.fail e)
  embeds : forall {dimensions batch now vectors},
    E (.embed dimensions batch) (.proceed now vectors) ->
    vectors.length = batch.length ∧ forall v, v ∈ vectors -> v.length = dimensions

def staleMessage : Text :=
  "索引任务超时，已重新排队".toList

def State.stale (s : State) (before limit : Nat) : List Document :=
  (((scan s.db.documents s.nextId).filter fun d =>
    (d.status = .pending ∨ d.status = .processing) ∧ d.deleted = 0 ∧
      d.lastActivity < before).insertionSort Document.activeBefore).take limit

def State.deletingIds (s : State) : List Nat :=
  s.db.documentIdsByStatus s.nextId .deleting

def repairMessages (rows : List Document) (ids : List Nat) : List Message :=
  rows.map (fun d => .indexDocument (.int d.id) (.int d.indexVersion)) ++
    ids.map fun i => .deleteDocument (.int i)

/-- Stale documents are pending again, and nothing else is written. -/
structure State.Recovers (s : State) (rows : List Document) (y : State) : Prop where
  idle : y.Idle
  recovered : forall d, d ∈ rows ->
    exists time, y.db.documents d.id = some (d.recovered staleMessage time)
  others : forall i, (forall d, d ∈ rows -> d.id ≠ i) -> y.db.documents i = s.db.documents i
  chunks : y.db.chunks = s.db.chunks
  storage : y.storage = s.storage
  nextId : s.nextId ≤ y.nextId

section

variable {t : Nat} {s x y : State} {σ : Session} {E : Command -> Choice -> Prop}

/-!
# The transaction of a repair task

A repair task resets the stale documents in one transaction, whose locking read finds them all
when it is alone, and then asks for the runs of all that it has found.
-/

structure Session.Resetting (σ : Session) (rows rest : List Document) (time : Nat) : Prop
    extends Session.Recovering σ rows rest staleMessage time where
  flushed : forall i e, σ.documents i = some e -> e.flushed = e.loaded
  all : forall d, d ∈ rows -> exists e, σ.documents d.id = some e

theorem Session.Resetting.start (rows : List Document) (time : Nat) :
    ({ documents := loadEntries Document.id (fun _ => none) rows } : Session).Resetting
      rows rows time where
  toRecovering := .start rows staleMessage time
  flushed := by
    intro i e he
    have hload : loadEntries Document.id (fun _ => none) rows i = some e := he
    rcases loadEntries_cases hload with hold | ⟨-, d, -, -, rfl⟩
    · cases hold
    · rfl
  all := (Session.Recovering.start rows staleMessage time).mapped

theorem Session.Resetting.step {rows rest : List Document} {d : Document} {time : Nat}
    {e : Entry Document} (h : σ.Resetting rows (d :: rest) time)
    (he : σ.documents d.id = some e) :
    ({ σ with
      documents :=
        Function.update σ.documents d.id
          (some { e with current := e.current.recovered staleMessage time }) } :
      Session).Resetting rows rest time where
  toRecovering := h.toRecovering.step he
  flushed := by
    intro i e' he'
    by_cases hi : i = d.id
    · subst i
      simp only [Function.update_self, Option.some.injEq] at he'
      rw [← he']
      exact h.flushed d.id e he
    · simp only [Function.update_of_ne hi] at he'
      exact h.flushed i e' he'
  all := by
    intro d' hd'
    by_cases hi : d'.id = d.id
    · exact ⟨_, by rw [hi]; exact Function.update_self _ _ _⟩
    · rcases h.all d' hd' with ⟨e', he'⟩
      exact ⟨e', (Function.update_of_ne hi _ _).trans he'⟩

theorem scan_of_bounded {ρ : Type} {table : Nat -> Option ρ} {n m : Nat}
    (hbound : forall i row, table i = some row -> i < n) (h : n ≤ m) :
    scan table m = scan table n := by
  induction h with
  | refl => rfl
  | @step k h ih =>
      have hnone : table k = none := by
        rw [Option.eq_none_iff_forall_ne_some]
        intro row hrow
        exact absurd (hbound k row hrow) (Nat.not_lt_of_le h)
      rw [← ih, scan, scan, List.range_succ, List.filterMap_append, List.filterMap_cons_none hnone,
        List.filterMap_nil, List.append_nil]

theorem finishes_lock_stale (hE : Reliable E) (hx : State.Inside t s {} x)
    (hbound : forall i d, s.db.documents i = some d -> i < s.nextId) (before limit : Nat) :
    Finishes machine t E (Action.lock (.stale before limit))
      (fun out y => out = .ok (s.stale before limit) ∧ State.Inside t s
        { documents := loadEntries Document.id (fun _ => none) (s.stale before limit) } y) x := by
  apply finishes_perform hE hx rfl
  intro now
  have hrows : LockQuery.rows x t (.stale before limit) = some (s.stale before limit) := by
    simp only [LockQuery.rows, hx.db, scan_of_bounded hbound hx.nextId, hx.lockable, and_true,
      State.stale]
  refine ⟨_, .ok (s.stale before limit), ?_, rfl,
    (hx.acquire ((s.stale before limit).map fun d => .document d.id)).setSession _⟩
  simp only [State.perform, hrows]

theorem finishes_getDeletingDocumentIds (hE : Reliable E) (hx : State.Inside t s σ x)
    (hwrites : σ.writes = {}) (hbound : forall i d, s.db.documents i = some d -> i < s.nextId) :
    Finishes machine t E getDeletingDocumentIds
      (fun out y => y = x ∧ out = .ok s.deletingIds) x := by
  apply finishes_perform hE hx rfl
  intro now
  refine ⟨x, .ok s.deletingIds, ?_, rfl, rfl⟩
  have hids : (x.db.install σ.writes).documentIdsByStatus x.nextId .deleting = s.deletingIds := by
    have hinstall : (x.db.install σ.writes).documents = s.db.documents := by
      rw [hx.db, hwrites]
      rfl
    simp only [Db.documentIdsByStatus, hinstall, scan_of_bounded hbound hx.nextId,
      State.deletingIds]
  simp only [State.perform, Query.answer, hids]

theorem Session.Resetting.recovers {rows : List Document} {time n : Nat} {clock : Nat -> Nat}
    (h : σ.Resetting rows [] time)
    (hrows : forall d, d ∈ rows -> s.db.documents d.id = some d ∧ d.id < n)
    (hy : s.Leaves (s.db.install (σ.flush s.db (dirtyIds σ.documents n) clock).writes) y) :
    s.Recovers rows y where
  idle := hy.idle
  recovered := by
    intro d hd
    rcases h.all d hd with ⟨e, he⟩
    rcases h.entries d.id e he with ⟨⟨hloaded, hid⟩, ⟨-, d', hd', -⟩ | hcurrent⟩
    · cases hd'
    have hsame : e.loaded = d := by
      have hrow := (hrows e.loaded hloaded).1
      rw [hid, (hrows d hd).1, Option.some.injEq] at hrow
      exact hrow.symm
    rw [hy.db]
    by_cases hchanged : e.current = e.flushed
    · -- the row is already as the repair task would leave it
      have hclean : d.id ∉ dirtyIds σ.documents n := by
        intro hmem
        rcases (mem_dirtyIds.mp hmem).2 with ⟨e', he', hne⟩
        rw [he] at he'
        cases he'
        exact hne hchanged
      rw [h.flushed d.id e he, hsame] at hchanged
      rw [hsame, hchanged] at hcurrent
      refine ⟨time, ?_⟩
      rw [← hcurrent]
      simp [Db.install, Session.flush, Session.flushedRows, hclean, h.writes, (hrows d hd).1]
    · have hdirty : d.id ∈ dirtyIds σ.documents n :=
        mem_dirtyIds.mpr ⟨(hrows d hd).2, e, he, hchanged⟩
      have hwrite : (s.db.install (σ.flush s.db (dirtyIds σ.documents n) clock).writes).documents
          d.id = some (Document.write d (d.recovered staleMessage time) d (clock d.id)) := by
        simp [Db.install, Session.flush, Session.flushedRows, hdirty, he, (hrows d hd).1, hsame,
          hcurrent]
      rw [hwrite]
      by_cases htime : (d.recovered staleMessage time).updatedTime = d.updatedTime
      · refine ⟨clock d.id, ?_⟩
        rw [Document.write_over d (d.recovered staleMessage time) (clock d.id) rfl htime]
        rfl
      · refine ⟨time, ?_⟩
        rw [Document.write_touched d (d.recovered staleMessage time) (clock d.id) rfl htime]
  others := by
    intro i hi
    have hnone : σ.documents i = none := by
      rw [Option.eq_none_iff_forall_ne_some]
      intro e he
      rcases (h.entries i e he).1 with ⟨hloaded, hid⟩
      exact hi e.loaded hloaded hid
    have hclean : i ∉ dirtyIds σ.documents n := by
      intro hmem
      rcases (mem_dirtyIds.mp hmem).2 with ⟨e, he, -⟩
      rw [hnone] at he
      cases he
    rw [hy.db]
    simp [Db.install, Session.flush, Session.flushedRows, hclean, h.writes]
  chunks := by
    rw [hy.db]
    funext i
    simp [Db.install, Session.flush, h.writes]
  storage := hy.storage
  nextId := hy.nextId

theorem mem_stale {d : Document} {before limit : Nat} (h : d ∈ s.stale before limit) :
    exists i, s.db.documents i = some d := by
  have hmem := (List.mem_insertionSort _).mp (List.mem_of_mem_take h)
  rcases mem_scan.mp (List.mem_filter.mp hmem).1 with ⟨i, -, hi⟩
  exact ⟨i, hi⟩

theorem stale_filter {d : Document} {before limit : Nat} (h : d ∈ s.stale before limit) :
    (d.status = .pending ∨ d.status = .processing) ∧ d.deleted = 0 ∧ d.lastActivity < before := by
  have hmem := (List.mem_insertionSort _).mp (List.mem_of_mem_take h)
  exact of_decide_eq_true (List.mem_filter.mp hmem).2

structure State.Keyed (s : State) : Prop where
  id : forall i d, s.db.documents i = some d -> d.id = i
  bound : forall i d, s.db.documents i = some d -> i < s.nextId

theorem finishes_recover (hE : Reliable E) (hs : s.Idle) (hkeyed : s.Keyed)
    (before limit : Nat) :
    Finishes machine t E
      (Action.transaction (fun result : List (Nat × Nat) × List Nat =>
          Note.staleRecovered (result.1.map Prod.fst)) (do
        let recovered ← recoverStaleIndexes before limit
        let deletingDocumentIds ← getDeletingDocumentIds
        return (recovered, deletingDocumentIds)))
      (fun out y => out = .ok ((s.stale before limit).map fun d => (d.id, d.indexVersion),
          s.deletingIds) ∧ y.broker = s.broker ∧ s.Recovers (s.stale before limit) y) s := by
  have hrows : forall d, d ∈ s.stale before limit ->
      s.db.documents d.id = some d ∧ d.id < s.nextId := by
    intro d hd
    rcases mem_stale hd with ⟨i, hi⟩
    rw [hkeyed.id i d hi]
    exact ⟨hi, hkeyed.bound i d hi⟩
  apply finishes_transaction hE hs
  intro x hx
  refine Finishes.bind (P := fun out y => out = .ok ((s.stale before limit).map fun d =>
      (d.id, d.indexVersion)) ∧ exists σ time, σ.Resetting (s.stale before limit) [] time ∧
        State.Inside t s σ y) ?_ ?_ ?_
  · unfold recoverStaleIndexes
    refine (finishes_lock_stale hE hx hkeyed.bound before limit).bind ?_ ?_
    · intro e y h
      cases h.1
    intro rows y h
    cases h.1
    refine (finishes_now hE).bind ?_ ?_
    · intro e z hz
      rcases hz.2 with ⟨time, vectors, -, htime⟩
      cases htime
    intro time z hz
    cases hz.1
    have hloop : Finishes machine t E
        (Program.forEach (s.stale before limit) fun document =>
          Action.assign document.id fun d => { d with
            status := .pending
            errorMessage := some staleMessage
            updatedTime := some time })
        (fun out y => out = .ok () ∧ exists σ : Session,
          σ.Resetting (s.stale before limit) [] time ∧ State.Inside t s σ y) y := by
      apply finishes_forEach fun rest y => exists σ : Session,
        σ.Resetting (s.stale before limit) rest time ∧ State.Inside t s σ y
      · intro d rest y hy
        rcases hy with ⟨σ, hσ, hy⟩
        rcases hσ.mapped d List.mem_cons_self with ⟨e, he⟩
        refine (finishes_assign hE hy he _).mono fun out z hz => ?_
        exact ⟨hz.1, _, hσ.step he, hz.2⟩
      · exact ⟨_, .start _ time, h.2⟩
    refine hloop.bind ?_ ?_
    · intro e z hz
      cases hz.1
    · intro _ z hz
      rcases hz.2 with ⟨σ, hσ, hz⟩
      exact ⟨rfl, σ, time, hσ, hz⟩
  · intro e y h
    cases h.1
  intro recovered y h
  rcases h with ⟨hok, σ, time, hσ, hy⟩
  cases hok
  refine (finishes_getDeletingDocumentIds hE hy hσ.writes hkeyed.bound).bind ?_ ?_
  · intro e z hz
    cases hz.2
  intro ids z hz
  cases hz.1
  cases hz.2
  refine ⟨s, σ, hy, ⟨?_, ?_⟩, ?_⟩
  · intro i e he
    rcases (hσ.entries i e he).1 with ⟨hloaded, rfl⟩
    rw [(hrows e.loaded hloaded).1]
    exact Option.some_ne_none _
  · intro i e he
    rw [hσ.knowledgeBases i] at he
    cases he
  · intro n clock y' hn hy'
    refine ⟨rfl, hy'.broker, hσ.recovers ?_ hy'⟩
    intro d hd
    exact ⟨(hrows d hd).1, Nat.lt_of_lt_of_le (hrows d hd).2 hn⟩

theorem finishes_sendAll {β : Type} (hE : Healthy E) (items : List β) (f : β -> Message) :
    Finishes machine t E (Program.forEach items fun item => Action.send (f item))
      (fun out y => out = .ok () ∧ y = { x with broker := x.broker ++ items.map f }) x := by
  induction items generalizing x with
  | nil =>
      refine ⟨rfl, ?_⟩
      rw [List.map_nil, List.append_nil]
  | cons item rest ih =>
      refine (finishes_send hE.toReliable (f item)).bind ?_ ?_
      · intro e y h
        rcases h with ⟨hok, -⟩ | ⟨e', he', -⟩
        · cases hok
        · exact absurd he' hE.works
      · intro _ y h
        rcases h with ⟨-, rfl⟩ | ⟨e', he', -⟩
        · refine ih.mono fun out z hz => ?_
          refine ⟨hz.1, ?_⟩
          rw [hz.2, List.map_cons, List.append_assoc]
          rfl
        · exact absurd he' hE.works

theorem State.Recovers.send {rows : List Document} (h : s.Recovers rows y)
    (broker : List Message) : s.Recovers rows { y with broker := broker } :=
  ⟨⟨h.idle.sessions, h.idle.locks⟩, h.recovered, h.others, h.chunks, h.storage, h.nextId⟩

/-- A repair task resets the stale documents and asks for the runs of all that it has found. -/
theorem finishes_repair {cfg : Settings} (hE : Healthy E) (hs : s.Idle) (hkeyed : s.Keyed) :
    Finishes machine t E (Tasks.repairStuckDocument cfg)
      (fun out y => out = .ok () ∧ exists time vectors, E .now (.proceed time vectors) ∧
        s.Recovers (s.stale (time - cfg.indexStaleSeconds) 100) y ∧
        y.broker = s.broker ++
          repairMessages (s.stale (time - cfg.indexStaleSeconds) 100) s.deletingIds) s := by
  refine (finishes_now hE.toReliable).bind ?_ ?_
  · intro e x hx
    rcases hx.2 with ⟨time, vectors, -, htime⟩
    cases htime
  intro time x hx
  rcases hx with ⟨rfl, time', vectors, hclock, htime⟩
  cases htime
  refine (finishes_recover hE.toReliable hs hkeyed (time - cfg.indexStaleSeconds) 100).bind ?_ ?_
  · intro e y hy
    cases hy.1
  intro result y hy
  rcases hy with ⟨hresult, hbroker, hrecovers⟩
  cases hresult
  dsimp only
  refine (finishes_sendAll hE _ _).bind ?_ ?_
  · intro e z hz
    cases hz.1
  intro _ z hz
  rw [hz.2]
  refine (finishes_sendAll hE _ _).mono fun out w hw => ?_
  refine ⟨hw.1, time, vectors, hclock, ?_, ?_⟩
  · rw [hw.2]
    exact (hrecovers.send _).send _
  · rw [hw.2]
    simp only [hbroker, repairMessages, List.map_map, List.append_assoc]
    rfl

/-!
# Stuck documents

A document that has not been active for long, with few others before it, is found.  Nothing
fails an index run where everything is at work and the object can be indexed.
-/

theorem mem_stale_of_few {i before : Nat} {d : Document} (hkeyed : s.Keyed)
    (hd : s.db.documents i = some d) (hlive : d.deleted = 0)
    (hstuck : d.status = .pending ∨ d.status = .processing) (hold : d.lastActivity < before)
    {limit : Nat}
    (hfew : ((scan s.db.documents s.nextId).countP fun e => e.activeBefore d) ≤ limit) :
    d ∈ s.stale before limit := by
  have htotal : Std.Total Document.activeBefore := by
    constructor
    intro a b
    unfold Document.activeBefore
    omega
  have htrans : IsTrans Document Document.activeBefore := by
    constructor
    intro a b c hab hbc
    unfold Document.activeBefore at hab hbc ⊢
    omega
  apply Sorting.mem_take_insertionSort
  · rw [List.mem_filter]
    exact ⟨mem_scan.mpr ⟨i, hkeyed.bound i d hd, hd⟩, decide_eq_true ⟨hstuck, hlive, hold⟩⟩
  · exact Nat.le_trans (List.Sublist.countP_le List.filter_sublist) hfew

theorem keyed_of_reaches {env : Env} {last : RagConfig}
    (hrun : System.Reaches (system env) (system env).anyRun initial last) :
    last.shared.Keyed where
  id := fun i d hd => (document_of_reaches hrun hd).1
  bound := by
    intro i d hd
    rcases document_of_reaches hrun hd with ⟨rfl, hbound, -⟩
    exact hbound

theorem Healthy.not_indexFailure {env : Env} {cfg : Settings} {d : Document} {content : Bytes}
    {text : Text} {e : Exception} (hE : Healthy E) (hbatch : 1 ≤ cfg.embeddingBatchSize)
    (hcontent : s.storage d.storageKey = some content)
    (hparse : Parsing.parseDocument env cfg d.filename content = .ok text)
    (htext : Chunking.splitParentChildText text cfg.chunkSize cfg.chunkOverlap ≠ []) :
    ¬ IndexFailure env cfg E s d e := by
  intro h
  cases h with
  | unread hread =>
      rcases hread with hfail | ⟨hnone, -⟩
      · exact hE.works hfail
      · rw [hcontent] at hnone
        cases hnone
  | unparsed hcontent' hparse' =>
      rw [hcontent] at hcontent'
      cases hcontent'
      rw [hparse] at hparse'
      cases hparse'
  | empty hcontent' hparse' hnone =>
      rw [hcontent] at hcontent'
      cases hcontent'
      rw [hparse] at hparse'
      cases hparse'
      exact htext hnone
  | unbatched hsize => exact Nat.not_lt_of_le hbatch hsize
  | unembedded hfails =>
      rcases hfails with ⟨batch, hfail | ⟨now, vectors, hch, hcheck, -⟩⟩
      · exact hE.works hfail
      · exact hcheck (hE.embeds hch)

/-- The document is ready, with the chunks of a run on this content. -/
def State.Indexed (env : Env) (cfg : Settings) (d : Document) (content : Bytes) (y : State) :
    Prop :=
  exists (run : IndexRun) (row : Document), run.cfg = cfg ∧ run.content = content ∧
    run.Valid env PositiveChunkSize d ∧ y.db.documents d.id = some row ∧ row.status = .ready ∧
    row.indexVersion = d.indexVersion ∧ row.chunkCount = run.children.length ∧
    y.db.chunks d.id = run.rows env d

theorem finishes_indexReady {env : Env} {cfg : Settings} {d : Document} {content : Bytes}
    {text : Text} {request : Option Nat} (hE : Healthy E) (hcfg : PositiveChunkSize cfg)
    (hbatch : 1 ≤ cfg.embeddingBatchSize) (hs : s.Idle) (hd : s.db.documents d.id = some d)
    (hn : d.id < s.nextId) (hlive : d.deleted = 0) (hpending : d.status = .pending)
    (hrequest : forall v, v ∈ request -> v = d.indexVersion)
    (hcontent : s.storage d.storageKey = some content)
    (hparse : Parsing.parseDocument env cfg d.filename content = .ok text)
    (htext : Chunking.splitParentChildText text cfg.chunkSize cfg.chunkOverlap ≠ []) :
    Finishes machine t E (Tasks.indexDocument env cfg d.id request 0)
      (fun out y => out = .ok () ∧ y.Idle ∧ y.Indexed env cfg d content) s := by
  refine (finishes_indexDocument hE.toReliable hcfg hs hd hn hlive hpending hrequest 0).mono
    fun out y h => ?_
  cases h with
  | indexed run now hsettings hread hvalid _ hdone =>
      have hready : y.db.documents d.id = some
          { d.indexed run.text run.children.length with updatedTime := some now } := by
        rw [hdone.documents]
        exact Function.update_self ..
      refine ⟨rfl, hdone.idle, run, _, hsettings, ?_, hvalid, hready, rfl, rfl, rfl, ?_⟩
      · exact Option.some.inj (hread.symm.trans hcontent)
      · rw [hdone.chunks]
        exact Function.update_self ..
  | requeued e now hfails =>
      exact absurd hfails (hE.not_indexFailure hbatch hcontent hparse htext)
  | refused e refusal now hfails =>
      exact absurd hfails (hE.not_indexFailure hbatch hcontent hparse htext)
  | failed e now hfails => exact absurd hfails (hE.not_indexFailure hbatch hcontent hparse htext)

end

/--
A document that is left pending or processing is found by the repair task once it is stale,
and the message that the repair task sends for it brings it to ready.
-/
theorem stuck_document_recovers {env : Env} {cfg : Settings} {E : Command -> Choice -> Prop}
    (hE : Healthy E) (hcfg : PositiveChunkSize cfg) (hbatch : 1 ≤ cfg.embeddingBatchSize)
    {last : RagConfig} (hrun : System.Reaches (system env) (system env).anyRun initial last)
    (hquiet : last.shared.Quiet) {i : Nat} {d : Document}
    (hd : last.shared.db.documents i = some d)
    (hstuck : d.status = .pending ∨ d.status = .processing)
    (hold : forall time vectors, E .now (.proceed time vectors) ->
      d.lastActivity + cfg.indexStaleSeconds < time)
    (hfew : ((scan last.shared.db.documents last.shared.nextId).countP fun e =>
      e.activeBefore d) ≤ 100)
    {content : Bytes} {text : Text} (hcontent : last.shared.storage d.storageKey = some content)
    (hparse : Parsing.parseDocument env cfg d.filename content = .ok text)
    (htext : Chunking.splitParentChildText text cfg.chunkSize cfg.chunkOverlap ≠ []) (t u : Nat) :
    Finishes machine t E (Tasks.repairStuckDocument cfg)
      (fun out y => out = .ok () ∧ y.Idle ∧ exists sent, y.broker = last.shared.broker ++ sent ∧
        .indexDocument (.int i) (.int d.indexVersion) ∈ sent ∧
        Finishes machine u E (Tasks.indexDocument env cfg i (some d.indexVersion) 0)
          (fun out z => out = .ok () ∧ z.Idle ∧ z.Indexed env cfg d content) y)
      last.shared := by
  rcases document_of_reaches hrun hd with ⟨rfl, hbound, hlive⟩
  have hkeyed := keyed_of_reaches hrun
  refine (finishes_repair hE (idle_of_quiet hrun hquiet) hkeyed).mono fun out y h => ?_
  rcases h with ⟨hok, time, vectors, hclock, hrecovers, hbroker⟩
  have hbefore : d.lastActivity < time - cfg.indexStaleSeconds := by
    have hlate := hold time vectors hclock
    omega
  have hstale := mem_stale_of_few hkeyed hd hlive hstuck hbefore hfew
  refine ⟨hok, hrecovers.idle, _, hbroker, ?_, ?_⟩
  · exact List.mem_append_left _ (List.mem_map.mpr ⟨d, hstale, rfl⟩)
  rcases hrecovers.recovered d hstale with ⟨now, hrow⟩
  have hstored : y.storage d.storageKey = some content := by
    rw [hrecovers.storage]
    exact hcontent
  refine (finishes_indexReady (d := d.recovered staleMessage now) hE hcfg hbatch
    hrecovers.idle hrow (Nat.lt_of_lt_of_le hbound hrecovers.nextId) hlive rfl ?_ hstored hparse
    htext).mono fun out z hz => ?_
  · intro v hv
    exact (Option.mem_some.mp hv).symm
  · rcases hz with ⟨hok, hidle, run, row, hsettings, hread, hvalid, hrest⟩
    exact ⟨hok, hidle, run, row, hsettings, hread,
      ⟨hvalid.allowed, hvalid.parsed, hvalid.parents, hvalid.vectors⟩, hrest⟩

/-!
# Sample runs

The worker of document 3 dies after it has claimed the row.
-/

namespace Sample

def atWork : Command -> Choice -> Prop
  | .embed dimensions batch, .proceed _ vectors =>
      vectors.length = batch.length ∧ forall v, v ∈ vectors -> v.length = dimensions
  | .now, .proceed time _ => 1000 ≤ time
  | _, .proceed _ _ => True
  | _, .fail _ => False

theorem atWork_healthy : Healthy atWork where
  answers := by
    intro c
    cases c with
    | embed dimensions batch =>
        refine ⟨.proceed 0 (List.replicate batch.length (List.replicate dimensions 0)), ?_, ?_⟩
        · exact List.length_replicate
        · intro v hv
          rw [List.eq_of_mem_replicate hv]
          exact List.length_replicate
    | now => exact ⟨.proceed 1000 [], Nat.le_refl _⟩
    | _ => exact ⟨.proceed 0 [], trivial⟩
  fails := by
    intro c e h
    cases c <;> exact h.elim
  works := by
    intro c e h
    cases c <;> exact h.elim
  embeds := fun h => h

def crashed : List (Label Op Choice) :=
  upload ++ start 2 (.indexDocument settings 3 (some 1) 0) 7 ++ [.crash 2]

end Sample

/-- The row of a worker that has died is claimed for ever, until the repair task finds it. -/
theorem stuck_document_recovers_crashed : exists (last : RagConfig) (d : Document),
    last.shared.db.documents 3 = some d ∧ d.status = .processing ∧
      Finishes machine 3 Sample.atWork (Tasks.repairStuckDocument Sample.settings)
        (fun out y => out = .ok () ∧ y.Idle ∧
          exists sent, y.broker = last.shared.broker ++ sent ∧
            .indexDocument (.int 3) (.int d.indexVersion) ∈ sent ∧
            Finishes machine 4 Sample.atWork
              (Tasks.indexDocument Sample.env Sample.settings 3 (some d.indexVersion) 0)
              (fun out z => out = .ok () ∧ z.Idle ∧
                z.Indexed Sample.env Sample.settings d Sample.content) y)
        last.shared := by
  rcases exists_quiet Sample.env Sample.crashed 3
    (fun last : RagConfig => (last.shared.db.documents 3).any (fun d =>
      d.status = .processing ∧ d.filename = "a.txt".toList ∧ d.lastActivity = 0 ∧
        last.shared.storage d.storageKey = some Sample.content ∧
        ((scan last.shared.db.documents last.shared.nextId).countP fun e =>
          e.activeBefore d) ≤ 100) = true) (by decide) (by decide +kernel) with
    ⟨last, hrun, hquiet, hrow⟩
  rcases (Option.any_eq_true ..).mp hrow with ⟨d, hd, hcond⟩
  rcases of_decide_eq_true hcond with ⟨hstatus, hfile, hactive, hcontent, hfew⟩
  have hparse : Parsing.parseDocument Sample.env Sample.settings d.filename Sample.content =
      .ok "a".toList := by
    rw [hfile]
    rfl
  refine ⟨last, d, hd, hstatus, stuck_document_recovers Sample.atWork_healthy (by decide)
    (by decide) hrun hquiet hd (.inr hstatus) ?_ hfew hcontent hparse (by decide +kernel) 3 4⟩
  intro time vectors hclock
  rw [hactive]
  have hlate : 1000 ≤ time := hclock
  show 0 + 900 < time
  omega

end RagService
