import RagService.Properties.Deletion

/-!
# Deleted knowledge bases

The deletion of a knowledge base marks the documents it has read.  Uploads and retries
check the knowledge base when they start and not when they commit, so they may add a
document to one that is deleted meanwhile.
-/

namespace RagService

open Interleaving Interleaving.Discipline

/-- No row of this knowledge base is marked as deleted. -/
def State.Live (s : State) (k : Nat) : Prop :=
  forall kb, kb ∈ s.db.knowledgeBases k -> kb.deleted = 0

/-- The documents of deleted knowledge bases are being deleted. -/
def Db.BasesCleared (db : Db) : Prop :=
  forall k kb i d, db.knowledgeBases k = some kb -> kb.deleted ≠ 0 ->
    db.documents i = some d -> d.knowledgeBaseId = k -> d.status = .deleting

/-!
# Conditions

An upload has to commit into a live knowledge base, and a deletion has to have read all its
documents.
-/

/--
The transaction has read every document of the knowledge base, and one that it read as
being deleted still is.
-/
def Session.Covers (σ : Session) (s : State) (k : Nat) : Prop :=
  forall i, i < s.nextId -> forall d, d ∈ s.db.documents i -> d.knowledgeBaseId = k ->
    (σ.documents i).any (fun e => e.loaded.status = .deleting -> d.status = .deleting) = true

def Command.creates : Command -> Choice -> Option Nat
  | .commit (.documentCreated i _), .proceed _ _ => some i
  | _, _ => none

def Command.clears : Command -> Choice -> Option Nat
  | .commit (.knowledgeBaseDeleted k), .proceed _ _ => some k
  | _, _ => none

/-- An upload commits into a knowledge base that is not deleted. -/
def CreatesInLive (s : State) (t : Nat) (c : Command) (ch : Choice) : Prop :=
  forall i, i ∈ c.creates ch -> forall σ, σ ∈ s.sessions t ->
    forall x, x ∈ σ.writes.documents i -> forall row, row ∈ x -> s.Live row.knowledgeBaseId

/-- A knowledge base is deleted with all its documents. -/
def ClearsAll (s : State) (t : Nat) (c : Command) (ch : Choice) : Prop :=
  forall k, k ∈ c.clears ch -> forall σ, σ ∈ s.sessions t -> σ.Covers s k

/-- A retry makes a document pending that is being deleted only in a live knowledge base. -/
def RevivesInLive (s : State) (loaded base : Document) : Prop :=
  LeavesDeleting loaded base ∨ s.Live base.knowledgeBaseId

def baseRuns (env : Env) : System.Condition (system env) where
  starts := fun _ => True
  steps := fun cfg t c ch => (CreatesInLive cfg.shared t c ch ∧ ClearsAll cfg.shared t c ch) ∧
    retryMeets (RevivesInLive cfg.shared) cfg.shared t c ch

instance (s : State) (k : Nat) : Decidable (s.Live k) :=
  inferInstanceAs (Decidable (forall kb, kb ∈ s.db.knowledgeBases k -> kb.deleted = 0))

instance (σ : Session) (s : State) (k : Nat) : Decidable (σ.Covers s k) :=
  inferInstanceAs (Decidable (forall i, i < s.nextId -> forall d, d ∈ s.db.documents i ->
    d.knowledgeBaseId = k ->
      (σ.documents i).any (fun e => e.loaded.status = .deleting -> d.status = .deleting) = true))

instance (s : State) (t : Nat) (c : Command) (ch : Choice) :
    Decidable (CreatesInLive s t c ch) :=
  inferInstanceAs (Decidable (forall i, i ∈ c.creates ch -> forall σ, σ ∈ s.sessions t ->
    forall x, x ∈ σ.writes.documents i -> forall row, row ∈ x -> s.Live row.knowledgeBaseId))

instance (s : State) (t : Nat) (c : Command) (ch : Choice) : Decidable (ClearsAll s t c ch) :=
  inferInstanceAs (Decidable (forall k, k ∈ c.clears ch -> forall σ, σ ∈ s.sessions t ->
    σ.Covers s k))

instance (s : State) (loaded base : Document) : Decidable (RevivesInLive s loaded base) :=
  inferInstanceAs (Decidable (_ ∨ _))

instance (env : Env) : DecidablePred (baseRuns env).starts :=
  fun _ => .isTrue trivial

instance (env : Env) (cfg : RagConfig) (t : Nat) (c : interface.Command)
    (ch : (system env).Choice) : Decidable ((baseRuns env).steps cfg t c ch) :=
  @instDecidableAnd _ _
    (@instDecidableAnd _ _ (instDecidableCreatesInLive cfg.shared t c ch)
      (instDecidableClearsAll cfg.shared t c ch))
    (retryMeetsDecidable (RevivesInLive cfg.shared) cfg.shared t c ch)

/-!
# One commit

Only the deletion of a knowledge base assigns the column that marks it, and it marks the
documents that the transaction has read.
-/

section

variable {env : Env} {allowed : Settings -> Prop} {s : State} {t : Nat} {σ : Session}
variable {note : Note}

theorem Session.Effect.keepsDeleted (heffect : σ.Effect env allowed s t note)
    (hnote : forall k, note ≠ .knowledgeBaseDeleted k) : σ.KeepsDeleted := by
  cases note with
  | knowledgeBaseDeleted k => exact absurd rfl (hnote k)
  | knowledgeBaseCreated _ | knowledgeBaseUpdated _ | unchanged => exact heffect.2.2.2
  | documentCreated _ _ => exact heffect.2.2.2.2.1
  | documentRetried _ _ => exact heffect.2.2.1
  | documentDeleteRequested _ _ => exact heffect.2.2.1
  | indexClaimed _ _ => exact heffect.2.2.2.2
  | documentIndexed _ => exact heffect.2.2.2
  | failureRecorded _ _ => exact heffect.2.2.2.2
  | staleRecovered _ => exact heffect.2.2.2.2
  | documentRemoved _ => exact heffect.2.2.2.2.2.2
  | eventsDispatched _ => exact heffect.2.2.1

/-- Where a committed knowledge base comes from after a commit. -/
theorem Session.Effect.knowledgeBase_cases (hok : KnowledgeBasesOk s t σ) (hclean : σ.Clean)
    (heffect : σ.Effect env allowed s t note) {k : Nat} {kb : KnowledgeBase}
    (hkb : (s.db.install σ.writes).knowledgeBases k = some kb) :
    kb.deleted = 0 ∨
      (exists base, s.db.knowledgeBases k = some base ∧ base.deleted = kb.deleted) ∨
      note = .knowledgeBaseDeleted k := by
  cases hx : σ.writes.knowledgeBases k with
  | none =>
      rw [Db.install_knowledgeBases_of_none hx] at hkb
      exact .inr (.inl ⟨kb, hkb, rfl⟩)
  | some row =>
      rw [Db.install_knowledgeBases_of_some hx, Option.some.injEq] at hkb
      subst hkb
      cases he : σ.knowledgeBases k with
      | none => exact .inl (hok.inserted k row he hx)
      | some e =>
          by_cases hdeleted : exists i, note = .knowledgeBaseDeleted i
          · rcases hdeleted with ⟨i, rfl⟩
            rcases heffect with ⟨-, hothers, -⟩
            by_cases hk : k = i
            · exact .inr (.inr (by rw [hk]))
            · rw [hothers k hk] at he
              cases he
          · have hkeeps := heffect.keepsDeleted (fun i hi => hdeleted ⟨i, hi⟩) k e he
            rcases hok.updated k e row he hx with ⟨base, hbase, hrow⟩
            rw [hclean.knowledgeBases k e he] at hrow
            refine .inr (.inl ⟨base, hbase, ?_⟩)
            rw [hrow, KnowledgeBase.write, hkeeps, writeColumn_self]

theorem Session.Effect.marked (hinv : s.Inv allowed) (hσ : s.sessions t = some σ)
    (hclean : σ.Clean) {k : Nat} (heffect : σ.Effect env allowed s t (.knowledgeBaseDeleted k))
    {i : Nat} {e : Entry Document} {base d : Document} (he : σ.documents i = some e)
    (hbase : s.db.documents i = some base)
    (hread : e.loaded.status = .deleting -> base.status = .deleting)
    (hd : (s.db.install σ.writes).documents i = some d) : d.status = .deleting := by
  by_cases hloaded : e.loaded.status = .deleting
  · by_contra hstatus
    rcases heffect.revived hinv hσ hclean hbase (hread hloaded) hd hstatus with
      ⟨event, e', hnote, -⟩
    cases hnote
  · rcases heffect with ⟨-, -, -, hentries, -⟩
    rcases hentries i e he with ⟨-, hcurrent, -⟩
    have hne : e.current ≠ e.loaded := by
      intro heq
      rw [hcurrent] at heq
      exact hloaded (congrArg Document.status heq).symm
    rcases (hinv.session t σ hσ).documents.row_of_changed hclean he hne with
      ⟨base', now, -, hrow⟩
    rw [Db.install_documents_of_some hrow, Option.some.injEq] at hd
    rw [← hd, hcurrent]
    exact writeColumn_of_ne _ (Ne.symm hloaded)

theorem Session.Effect.basesCleared (hinv : s.Inv allowed) (hσ : s.sessions t = some σ)
    (hclean : σ.Clean) (heffect : σ.Effect env allowed s t note)
    (hcreate : forall i event row, note = .documentCreated i event ->
      σ.writes.documents i = some (some row) -> s.Live row.knowledgeBaseId)
    (hclear : forall k, note = .knowledgeBaseDeleted k -> σ.Covers s k)
    (hretry : forall d event e base, note = .documentRetried d event ->
      σ.documents d = some e -> s.db.documents d = some base -> RevivesInLive s e.loaded base)
    (h : s.db.BasesCleared) : (s.db.install σ.writes).BasesCleared := by
  intro k kb i d hkb hdeleted hd hof
  have hok := hinv.session t σ hσ
  -- the document before the commit, where there was one
  have hbefore : (exists event, note = .documentCreated i event ∧ σ.Inserts i d) ∨
      exists base, s.db.documents i = some base ∧ base.knowledgeBaseId = k := by
    rcases heffect.document_cases hok.documents hclean hd with
      hold | hcreated | ⟨base, hbase, hstep⟩
    · exact .inr ⟨d, hold, hof⟩
    · exact .inl hcreated
    · refine .inr ⟨base, hbase, ?_⟩
      rw [← hof]
      exact (Document.knowledgeBaseId_of_identity hstep.identity).symm
  rcases heffect.knowledgeBase_cases hok.knowledgeBases hclean hkb with
    hzero | ⟨base, hbase, hsame⟩ | rfl
  · exact absurd hzero hdeleted
  · have hdead : ¬ s.Live k := by
      intro hlive
      rw [← hsame] at hdeleted
      exact hdeleted (hlive base hbase)
    rcases hbefore with ⟨event, hnote, hinserts⟩ | ⟨old, hold, holdOf⟩
    · rw [← hof] at hdead
      exact absurd (hcreate i event d hnote hinserts.2) hdead
    · have hdeleting := h k base i old hbase (by rw [hsame]; exact hdeleted) hold holdOf
      by_contra hstatus
      rcases heffect.revived hinv hσ hclean hold hdeleting hd hstatus with
        ⟨event, e, hnote, he, hnot⟩
      rcases hretry i event e old hnote he hold with hleaves | hlive
      · exact hnot hleaves
      · rw [holdOf] at hlive
        exact hdead hlive
  · rcases hbefore with ⟨event, hnote, -⟩ | ⟨old, hold, holdOf⟩
    · cases hnote
    · have hcovers := hclear k rfl i (hinv.bounded i (hinv.known i old hold)) old hold holdOf
      rcases (Option.any_eq_true ..).mp hcovers with ⟨e, he, hread⟩
      exact heffect.marked hinv hσ hclean he hold (of_decide_eq_true hread) hd

end

/-!
# Whole runs
-/

theorem deleted_base_leaves_no_document {env : Env} {last : RagConfig} {k i : Nat}
    {kb : KnowledgeBase} {d : Document}
    (hrun : System.Reaches (system env) (baseRuns env) initial last)
    (hkb : last.shared.db.knowledgeBases k = some kb) (hdeleted : kb.deleted ≠ 0)
    (hd : last.shared.db.documents i = some d) (hof : d.knowledgeBaseId = k) :
    d.status = .deleting ∧ last.shared.db.RequestsDelete i := by
  have hstarts : forall op, (baseRuns env).starts op -> op.Allowed fun _ => True :=
    fun _ _ _ _ => trivial
  have hcleared : last.shared.db.BasesCleared := by
    refine commits_preserve hstarts (fun s => s.db.BasesCleared) ?_ ?_ initial_sound ?_ hrun
    · intro s s' hdb _ h
      rw [hdb]
      exact h
    · intro cfg t note now vectors σ hinv hσ hclean heffect h' h
      rcases h' with ⟨⟨hcreates, hclears⟩, hretries⟩
      refine heffect.basesCleared hinv hσ hclean ?_ ?_ ?_ h
      · intro i event row heq hrow
        subst heq
        exact hcreates i rfl σ hσ (some row) hrow row rfl
      · intro k heq
        subst heq
        exact hclears k rfl σ hσ
      · intro d event e base heq he hbase
        subst heq
        exact retryMeets_commit hretries hσ he hbase
    · intro k kb i d hkb
      cases hkb
  have hinv : last.shared.Inv fun _ => True := (reaches_sound hstarts hrun).inv
  have hdeleting := hcleared k kb i d hkb hdeleted hd hof
  exact ⟨hdeleting, hinv.coherent.deleteRequested i d hd hdeleting⟩

/-!
# Sample runs

A knowledge base is deleted before, after or during an upload into it.
-/

namespace Sample

def deleteBase (t n : Nat) : List (Label Op Choice) :=
  start t (.deleteKnowledgeBase 1 1 false) n

def authorized : List (Label Op Choice) :=
  start 0 (.createKnowledgeBase 1 "kb".toList none false) 7 ++
    start 1 (.createDocument settings 1 1 false "a.txt".toList content none) 2

end Sample

/-- A knowledge base is deleted with its document. -/
theorem deleted_base_leaves_no_document_uploaded : exists last : RagConfig, exists d,
    last.shared.db.documents 3 = some d ∧ d.status = .deleting ∧
      last.shared.db.RequestsDelete 3 := by
  rcases System.exists_reaches (baseRuns Sample.env) initial
    (Sample.upload ++ Sample.deleteBase 2 14)
    (fun last : RagConfig =>
      (last.shared.db.knowledgeBases 1).any (fun kb => kb.deleted ≠ 0) = true ∧
        (last.shared.db.documents 3).any (fun d => d.knowledgeBaseId = 1) = true)
    (by decide +kernel) with ⟨last, hrun, hkb, hd⟩
  rcases (Option.any_eq_true ..).mp hkb with ⟨kb, hkb, hdeleted⟩
  rcases (Option.any_eq_true ..).mp hd with ⟨d, hd, hof⟩
  exact ⟨last, d, hd, deleted_base_leaves_no_document hrun hkb (of_decide_eq_true hdeleted) hd
    (of_decide_eq_true hof)⟩

/-- The knowledge base is deleted between the check and the commit of an upload. -/
theorem deleted_base_leaves_no_document_fails : exists last : RagConfig,
    System.Reaches (system Sample.env) (system Sample.env).anyRun initial last ∧
      last.shared.Quiet ∧
      (exists kb, last.shared.db.knowledgeBases 1 = some kb ∧ kb.deleted ≠ 0) ∧
      exists d, last.shared.db.documents 3 = some d ∧ d.deleted = 0 ∧ d.knowledgeBaseId = 1 ∧
        d.status = .pending := by
  rcases exists_quiet Sample.env
    (Sample.authorized ++ Sample.deleteBase 2 8 ++ Sample.go 1 15) 3
    (fun last : RagConfig =>
      (last.shared.db.knowledgeBases 1).any (fun kb => kb.deleted ≠ 0) = true ∧
        (last.shared.db.documents 3).any (fun d =>
          d.deleted = 0 ∧ d.knowledgeBaseId = 1 ∧ d.status = .pending) = true)
    (by decide) (by decide +kernel) with ⟨last, hrun, hquiet, hkb, hd⟩
  rcases (Option.any_eq_true ..).mp hkb with ⟨kb, hkb, hdeleted⟩
  rcases (Option.any_eq_true ..).mp hd with ⟨d, hd, hcond⟩
  exact ⟨last, hrun, hquiet, ⟨kb, hkb, of_decide_eq_true hdeleted⟩, d, hd,
    of_decide_eq_true hcond⟩

end RagService
