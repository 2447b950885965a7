import RagService.Properties.ChunkSets

/-!
# Deletion is final

Once a document is being deleted it stays so until it is removed, unless a retry that
read the row at another status writes `PENDING` over it.
-/

namespace RagService

open Interleaving Interleaving.Discipline

/-- The document is being deleted, or `delete_document` has removed it. -/
def State.Leaving (s : State) (i : Nat) : Prop :=
  (exists d, s.db.documents i = some d ∧ d.status = .deleting) ∨
    (s.db.documents i = none ∧ exists c, c ∈ s.history ∧ c.note = .documentRemoved i)

/-!
# One commit

A step other than a retry leaves a row that is being deleted so, and a commit that makes a
document live again is a retry that read it at another status.
-/

theorem Document.Step.of_deleting {note : Note} {i : Nat} {base row : Document}
    (h : Document.Step note i base row) (hretried : forall event, note ≠ .documentRetried i event)
    (hdeleting : base.status = .deleting) : row.status = .deleting := by
  have hkeeps : forall loaded : Document,
      writeColumn loaded.status .deleting base.status = .deleting := by
    intro loaded
    rcases writeColumn_cases loaded.status .deleting base.status with ⟨-, hold⟩ | ⟨-, hnew⟩
    · exact hold.trans hdeleting
    · exact hnew
  cases h with
  | knowledgeBaseDeleted loaded base now => exact hkeeps loaded
  | deleteRequested event loaded base now => exact hkeeps loaded
  | retried event profileId loaded base now => exact absurd rfl (hretried event)
  | claimed base now hstatus =>
      rw [hdeleting] at hstatus
      cases hstatus
  | indexed base text count now hstatus =>
      rw [hdeleting] at hstatus
      cases hstatus
  | failed base status message now hstatus hready hnot => exact absurd hdeleting hnot
  | recovered base message time now hid hstatus =>
      rw [hdeleting] at hstatus
      rcases hstatus with h | h <;> cases h

/-- A retry writes over a row that is being deleted only without its status column. -/
def LeavesDeleting (loaded base : Document) : Prop :=
  base.status = .deleting -> loaded.status = .pending

instance (loaded base : Document) : Decidable (LeavesDeleting loaded base) :=
  inferInstanceAs (Decidable (_ -> _))

section

variable {env : Env} {allowed : Settings -> Prop} {s : State} {t : Nat} {σ : Session}
variable {note : Note}

theorem Session.Effect.revived (hinv : s.Inv allowed) (hσ : s.sessions t = some σ)
    (hclean : σ.Clean) (heffect : σ.Effect env allowed s t note) {i : Nat} {base d : Document}
    (hbase : s.db.documents i = some base) (hdeleting : base.status = .deleting)
    (hd : (s.db.install σ.writes).documents i = some d) (hstatus : d.status ≠ .deleting) :
    exists event e, note = .documentRetried i event ∧ σ.documents i = some e ∧
      ¬ LeavesDeleting e.loaded base := by
  have hok := (hinv.session t σ hσ).documents
  rcases heffect.document_cases hok hclean hd with
    hold | ⟨event, -, hinserts⟩ | ⟨base', hbase', hstep⟩
  · rw [hbase, Option.some.injEq] at hold
    rw [← hold] at hstatus
    exact absurd hdeleting hstatus
  · exact absurd (hinv.known i base hbase) (hok.inserted i d hinserts).1
  · rw [hbase, Option.some.injEq] at hbase'
    subst hbase'
    by_cases hretried : exists event, note = .documentRetried i event
    · rcases hretried with ⟨event, rfl⟩
      rcases heffect.retried hok hclean with
        ⟨e, profileId, base', now, he, hbase', hrow, -⟩
      rw [hbase, Option.some.injEq] at hbase'
      subst hbase'
      rw [hd, Option.some.injEq] at hrow
      refine ⟨event, e, rfl, he, fun hleaves => hstatus ?_⟩
      have hcolumn : d.status = writeColumn e.loaded.status .pending base.status := by
        rw [hrow]
        rfl
      rw [hcolumn, hleaves hdeleting, writeColumn_self]
      exact hdeleting
    · have hstill := hstep.of_deleting (fun event hnote => hretried ⟨event, hnote⟩) hdeleting
      exact absurd hstill hstatus

theorem Session.Effect.leaving (hinv : s.Inv allowed) (hσ : s.sessions t = some σ)
    (hclean : σ.Clean) (heffect : σ.Effect env allowed s t note)
    (hretry : forall d event e base, note = .documentRetried d event ->
      σ.documents d = some e -> s.db.documents d = some base -> LeavesDeleting e.loaded base)
    {i : Nat} (hknown : s.Known i) (h : s.Leaving i) : (s.commit t note σ).Leaving i := by
  have hok := (hinv.session t σ hσ).documents
  cases hd : (s.db.install σ.writes).documents i with
  | none =>
      refine .inr ⟨hd, ?_⟩
      rcases h with ⟨base, hbase, -⟩ | ⟨-, c, hc, hnote⟩
      · rcases heffect.removed hok hclean hbase hd with ⟨rfl, -⟩
        exact ⟨_, List.mem_append_right _ (List.mem_singleton_self _), rfl⟩
      · exact ⟨c, List.mem_append_left _ hc, hnote⟩
  | some d =>
      refine .inl ⟨d, hd, ?_⟩
      rcases h with ⟨base, hbase, hdeleting⟩ | ⟨hnone, -⟩
      · by_contra hstatus
        rcases heffect.revived hinv hσ hclean hbase hdeleting hd hstatus with
          ⟨event, e, hnote, he, hnot⟩
        exact hnot (hretry i event e base hnote he hbase)
      · rcases heffect.document_cases hok hclean hd with
          hold | ⟨event, -, hinserts⟩ | ⟨base, hbase, -⟩
        · rw [hold] at hnone
          cases hnone
        · exact absurd hknown (hok.inserted i d hinserts).1
        · rw [hbase] at hnone
          cases hnone

end

/-!
# Whole runs
-/

theorem deleting_is_final {env : Env} {mid last : RagConfig} {i : Nat} {d : Document}
    (hfirst : System.Reaches (system env) (retryRuns env (fun _ => True) LeavesDeleting) initial
      mid) (hd : mid.shared.db.documents i = some d) (hdeleting : d.status = .deleting)
    (hlast : System.Reaches (system env) (retryRuns env (fun _ => True) LeavesDeleting) mid last) :
    last.shared.Leaving i := by
  have hsound : Discipline.Sound (S := system env) (discipline env fun _ => True) mid :=
    reaches_sound (fun _ h => h) hfirst
  refine (commits_preserve (fun _ h => h) (fun s => s.Known i ∧ s.Leaving i) ?_ ?_ hsound
    ⟨hsound.inv.known i d hd, .inl ⟨d, hd, hdeleting⟩⟩ hlast).2
  · intro s s' hdb hhistory h
    rcases h with ⟨hknown, h⟩
    unfold State.Known State.Leaving at *
    rw [hdb, hhistory]
    exact ⟨hknown, h⟩
  · intro cfg t note now vectors σ hinv hσ hclean heffect hsteps h
    rcases h with ⟨hknown, h⟩
    refine ⟨State.known_commit.mpr (.inl hknown), heffect.leaving hinv hσ hclean ?_ hknown h⟩
    intro d event e base heq he hbase
    subst heq
    exact retryMeets_commit hsteps hσ he hbase

/-!
# Sample runs

The deletion of an uploaded document meets its retry.
-/

def Sample.requestDelete (t n : Nat) : List (Label Op Choice) :=
  start t (.requestDelete 1 3 1 false) n

def Sample.isDeleting (cfg : RagConfig) : Prop :=
  (cfg.shared.db.documents 3).any (fun d => d.status = .deleting) = true

instance : DecidablePred Sample.isDeleting :=
  fun cfg => inferInstanceAs (Decidable ((cfg.shared.db.documents 3).any
    (fun d => d.status = .deleting) = true))

theorem deleting_is_final_removed : exists last : RagConfig,
    last.shared.db.documents 3 = none ∧ last.shared.Leaving 3 := by
  rcases System.exists_reaches_twice (retryRuns Sample.env (fun _ => True) LeavesDeleting)
    initial (Sample.upload ++ Sample.requestDelete 2 12) (Sample.start 3 (.deleteDocument 3) 8)
    Sample.isDeleting (fun last : RagConfig => last.shared.db.documents 3 = none)
    (by decide +kernel) with ⟨mid, last, hfirst, hmid, hlast, hnone⟩
  rcases (Option.any_eq_true ..).mp hmid with ⟨d, hd, hstatus⟩
  exact ⟨last, hnone, deleting_is_final hfirst hd (of_decide_eq_true hstatus) hlast⟩

/-- A retry of a document that is being deleted makes it pending again. -/
theorem deleting_is_final_fails : exists mid last : RagConfig,
    System.Reaches (system Sample.env) (system Sample.env).anyRun initial mid ∧
      (exists d, mid.shared.db.documents 3 = some d ∧ d.status = .deleting) ∧
      System.Reaches (system Sample.env) (system Sample.env).anyRun mid last ∧
      exists d, last.shared.db.documents 3 = some d ∧ d.deleted = 0 ∧ d.status = .pending := by
  rcases System.exists_reaches_twice (system Sample.env).anyRun
    initial (Sample.upload ++ Sample.requestDelete 2 12)
    (Sample.retry 3 14)
    Sample.isDeleting
    (fun last : RagConfig => (last.shared.db.documents 3).any
      (fun d => d.deleted = 0 ∧ d.status = .pending) = true)
    (by decide +kernel) with ⟨mid, last, hfirst, hmid, hlast, hpending⟩
  rcases (Option.any_eq_true ..).mp hmid with ⟨d, hd, hstatus⟩
  rcases (Option.any_eq_true ..).mp hpending with ⟨d', hd', hcond⟩
  exact ⟨mid, last, hfirst, ⟨d, hd, of_decide_eq_true hstatus⟩, hlast, d', hd',
    of_decide_eq_true hcond⟩

end RagService
