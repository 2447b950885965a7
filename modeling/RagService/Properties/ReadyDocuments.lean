import RagService.Properties.ChunkSets

/-!
# Ready documents

A document that is ready has the chunks of its index version, as many as it counts.
A retry that read the row while it was pending breaks this: its update leaves the
status column alone and moves the index version of a row that has become ready.
-/

namespace RagService

open Interleaving Interleaving.Discipline

/-- A ready document has the chunks of its index version, as many as it counts. -/
def Db.ReadyIndexed (db : Db) : Prop :=
  forall i d, db.documents i = some d -> d.deleted = 0 -> d.status = .ready ->
    (exists c, c ∈ db.chunks i ∧ c.isParent = false) ∧
      (forall c, c ∈ db.chunks i -> c.indexVersion = d.indexVersion) ∧
      ((db.chunks i).filter fun c => !c.isParent).length = d.chunkCount

/-!
# One commit

A row that a step other than an index run or a retry leaves ready was ready before; and a retry
that leaves a ready row ready had loaded it as pending.
-/

theorem Document.Step.ready {note : Note} {i : Nat} {base row : Document}
    (h : Document.Step note i base row) (hindexed : note ≠ .documentIndexed i)
    (hretried : forall event, note ≠ .documentRetried i event) (hready : row.status = .ready) :
    base.status = .ready ∧ row.indexVersion = base.indexVersion ∧
      row.chunkCount = base.chunkCount := by
  have hkeeps : forall loaded : Document,
      writeColumn loaded.status .deleting base.status = .ready -> base.status = .ready := by
    intro loaded hrow
    rcases writeColumn_cases loaded.status .deleting base.status with ⟨-, hold⟩ | ⟨-, hnew⟩
    · exact hold.symm.trans hrow
    · exact absurd (hnew.symm.trans hrow) (by decide)
  cases h with
  | knowledgeBaseDeleted loaded base now =>
      exact ⟨hkeeps loaded hready, writeColumn_self _ _, writeColumn_self _ _⟩
  | deleteRequested event loaded base now =>
      exact ⟨hkeeps loaded hready, writeColumn_self _ _, writeColumn_self _ _⟩
  | retried event profileId loaded base now => exact absurd rfl (hretried event)
  | indexed base text count now hstatus => exact absurd rfl hindexed
  | claimed base now hstatus =>
      simp [Document.write, Document.claimed, writeColumn_loaded] at hready
  | failed base status message now hstatus hnot hdeleting =>
      simp only [Document.write, Document.failed, writeColumn_loaded] at hready
      rcases hstatus with rfl | rfl <;> cases hready
  | recovered base message time now hid hstatus =>
      simp [Document.write, Document.recovered, writeColumn_loaded] at hready

theorem Document.write_retried_ready {loaded base : Document} {profileId now : Nat}
    (h : (Document.write loaded (loaded.retried profileId) base now).status = .ready) :
    loaded.status = .pending ∧ base.status = .ready := by
  rcases writeColumn_cases loaded.status .pending base.status with ⟨hloaded, hold⟩ | ⟨-, hnew⟩
  · exact ⟨hloaded.symm, hold.symm.trans h⟩
  · exact absurd (hnew.symm.trans h) (by decide)

/--
The retry did not overtake an index run: had it loaded a pending row that is ready
now, it writes the version that the row has.
-/
def NotOvertaken (loaded base : Document) : Prop :=
  loaded.status = .pending -> base.status = .ready ->
    base.indexVersion = loaded.indexVersion + 1

instance (loaded base : Document) : Decidable (NotOvertaken loaded base) :=
  inferInstanceAs (Decidable (_ -> _ -> _))

section

variable {env : Env} {s : State} {t : Nat} {σ : Session} {note : Note}

theorem IndexRun.Valid.readyIndexed {base : Document} {run : IndexRun} {now : Nat}
    (hvalid : run.Valid env PositiveChunkSize base) :
    (exists c, c ∈ run.rows env base ∧ c.isParent = false) ∧
      (forall c, c ∈ run.rows env base -> c.indexVersion =
        (Document.write base (base.indexed run.text run.children.length) base now).indexVersion) ∧
      ((run.rows env base).filter fun c => !c.isParent).length =
        (Document.write base (base.indexed run.text run.children.length) base now).chunkCount := by
  have hset := hvalid.chunkSet hvalid.allowed
  refine ⟨?_, fun c hc => ?_, ?_⟩
  · rcases List.exists_mem_of_length_pos hset.child with ⟨c, hc⟩
    exact ⟨c, List.mem_append_right _ hc, hset.childKind c hc⟩
  · rw [(row_of_mem hc).1]
    exact (writeColumn_self _ _).symm
  · have hparents : (run.parentRows env base).filter (fun c => !c.isParent) = [] := by
      rw [List.filter_eq_nil_iff]
      intro c hc
      simp [hset.parentKind c hc]
    have hchildren : (run.childRows env base).filter (fun c => !c.isParent) =
        run.childRows env base := by
      rw [List.filter_eq_self]
      intro c hc
      simp [hset.childKind c hc]
    have hcount : (Document.write base (base.indexed run.text run.children.length)
        base now).chunkCount = run.children.length := by
      rw [Document.write]
      exact writeColumn_loaded _ _
    rw [IndexRun.rows, List.filter_append, hparents, hchildren, List.nil_append,
      hvalid.length_childRows, hcount]

theorem Session.Effect.readyIndexed (hinv : s.Inv PositiveChunkSize)
    (hσ : s.sessions t = some σ) (hclean : σ.Clean)
    (heffect : σ.Effect env PositiveChunkSize s t note)
    (hretry : forall d event e base, note = .documentRetried d event ->
      σ.documents d = some e -> s.db.documents d = some base -> NotOvertaken e.loaded base)
    (h : s.db.ReadyIndexed) : (s.db.install σ.writes).ReadyIndexed := by
  have hok := (hinv.session t σ hσ).documents
  intro i d hd hlive hready
  rcases heffect.chunks_cases hok hclean i with
    ⟨hindexed, hchunks⟩ | ⟨-, -, hnone⟩ | ⟨-, base, run, now, -, hvalid, hrows, hrow⟩
  · rw [hchunks]
    by_cases hretried : exists event, note = .documentRetried i event
    · rcases hretried with ⟨event, rfl⟩
      rcases heffect.retried hok hclean with ⟨e, profileId, base, now, he, hbase, hrow, -⟩
      rw [hd, Option.some.injEq] at hrow
      subst hrow
      rcases Document.write_retried_ready hready with ⟨hpending, hbaseReady⟩
      have hversion := hretry i event e base rfl he hbase hpending hbaseReady
      have hcount : (Document.write e.loaded (e.loaded.retried profileId) base now).chunkCount =
          base.chunkCount := writeColumn_self _ _
      rw [Document.write_retried_indexVersion, ← hversion, hcount]
      exact h i base hbase (hinv.coherent.document i base hbase).2 hbaseReady
    · rcases heffect.document_cases hok hclean hd with
        hold | ⟨event, -, hinserts⟩ | ⟨base, hbase, hstep⟩
      · exact h i d hold hlive hready
      · rcases hok.inserted i d hinserts with ⟨-, -, -, -, hstatus, -⟩
        rw [hready] at hstatus
        cases hstatus
      · rcases hstep.ready hindexed (fun event hnote => hretried ⟨event, hnote⟩) hready with
          ⟨hbaseReady, hversion, hcount⟩
        rw [hversion, hcount]
        exact h i base hbase (hinv.coherent.document i base hbase).2 hbaseReady
  · rw [hnone] at hd
    cases hd
  · rw [hrow, Option.some.injEq] at hd
    rw [hrows, ← hd]
    exact hvalid.readyIndexed

end

/-!
# Whole runs
-/

theorem ready_documents_indexed {env : Env} {last : RagConfig}
    (hrun : System.Reaches (system env) (retryRuns env PositiveChunkSize NotOvertaken) initial
      last) : last.shared.db.ReadyIndexed := by
  refine commits_preserve (fun _ h => h) (fun s => s.db.ReadyIndexed) ?_ ?_ initial_sound
    (fun i d hd => by cases hd) hrun
  · intro s s' hdb _ h
    rw [hdb]
    exact h
  · intro cfg t note now vectors σ hinv hσ hclean heffect hsteps h
    refine heffect.readyIndexed hinv hσ hclean ?_ h
    intro d event e base heq he hbase
    subst heq
    exact retryMeets_commit hsteps hσ he hbase

/-!
# Sample runs

A retry after the index run of a document, and one that has read the row before the run claims
it.
-/

/-- A retry after the index run of a document, and the run that it asks for. -/
theorem ready_documents_indexed_retried : exists last : RagConfig,
    (last.shared.db.documents 3).map (fun d => (d.status, d.indexVersion)) =
        some (.ready, 2) ∧ last.shared.db.ReadyIndexed := by
  rcases System.exists_reaches (retryRuns Sample.env PositiveChunkSize NotOvertaken)
    initial (Sample.upload ++ Sample.index 3 1 ++ Sample.retry 2 14 ++ Sample.index 4 2)
    (fun last : RagConfig => (last.shared.db.documents 3).map
      (fun d => (d.status, d.indexVersion)) = some (.ready, 2)) (by decide +kernel) with
    ⟨last, hrun, hrow⟩
  exact ⟨last, hrow, ready_documents_indexed hrun⟩

/--
A retry has read the pending row when the index run of version 1 claims it.  In the end
the row is ready at version 2, and its chunks are those of version 1.
-/
theorem ready_documents_indexed_fails : exists last,
    System.Reaches (system Sample.env) (system Sample.env).anyRun initial last ∧
      ¬ last.shared.db.ReadyIndexed := by
  rcases System.exists_reaches (system Sample.env).anyRun initial
    (Sample.upload ++ Sample.retry 2 3 ++ Sample.index 3 1 ++ Sample.go 2 11)
    (fun last : RagConfig => (last.shared.db.documents 3).any
        (fun d => d.deleted = 0 ∧ d.status = .ready ∧ d.indexVersion = 2) = true ∧
      (last.shared.db.chunks 3).any (fun c => c.indexVersion = 1) = true)
    (by decide +kernel) with ⟨last, hrun, hrow, hchunk⟩
  refine ⟨last, hrun, fun h => ?_⟩
  rcases (Option.any_eq_true ..).mp hrow with ⟨d, hd, hcond⟩
  rcases of_decide_eq_true hcond with ⟨hlive, hready, hversion⟩
  rcases List.any_eq_true.mp hchunk with ⟨c, hc, hone⟩
  have heq := (h 3 d hd hlive hready).2.1 c hc
  rw [of_decide_eq_true hone, hversion] at heq
  cases heq

end RagService
