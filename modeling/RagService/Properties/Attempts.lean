import RagService.Properties.Retries

/-!
# Index attempts

An index task claims its document in one transaction and records a failure in another.
The record is guarded by the version and the status of the row, which tell its own
claim from a later one as long as no stale recovery resets a row whose attempt goes on.
-/

namespace RagService

open Interleaving Interleaving.Discipline

/-!
# Claims in the history

The history tells the most recent claim of a document, and whose claim a recorded failure
belongs to.
-/

def Note.claims (d : Nat) : Note -> Bool
  | .indexClaimed i _ => i = d
  | _ => false

def lastClaim (d : Nat) (history : List Commit) : Option Commit :=
  (history.filter fun c => c.note.claims d).getLast?

def ClaimOf (t d v : Nat) (history : List Commit) : Prop :=
  exists c, lastClaim d history = some c ∧ c.thread = t ∧ c.note = .indexClaimed d v

/-- What holds of the failures that attempts have recorded. -/
structure AttemptLaw (history : List Commit) : Prop where
  /-- no other attempt has claimed the document since the claim of the recording one -/
  own : forall before c after d v, history = before ++ c :: after ->
    c.note = .failureRecorded d v -> ClaimOf c.thread d v before
  /-- a failed document becomes pending only at a higher version -/
  failed : forall c, c ∈ history -> forall d base row, c.before.documents d = some base ->
    c.after.documents d = some row -> base.status = .failed -> row.status = .pending ->
      base.indexVersion < row.indexVersion

theorem lastClaim_append_of_not {d : Nat} {history : List Commit} {c : Commit}
    (h : c.note.claims d = false) : lastClaim d (history ++ [c]) = lastClaim d history := by
  simp [lastClaim, List.filter_append, h]

theorem lastClaim_append_of_claims {d : Nat} {history : List Commit} {c : Commit}
    (h : c.note.claims d = true) : lastClaim d (history ++ [c]) = some c := by
  simp [lastClaim, List.filter_append, h]

/-!
# Open attempts

An attempt is open from the claim of a thread until its next commit.  While recovery spares
open attempts, the last claim of the document is that of the attempt; a step that commits
nothing opens none.
-/

def running (cfg : RagConfig) (t : Nat) : Bool :=
  match cfg.threads t with
  | some ⟨_, .call _ _⟩ => true
  | _ => false

/-- The thread has claimed the document and committed nothing since. -/
def Attempting (cfg : RagConfig) (t d v : Nat) : Prop :=
  running cfg t = true ∧ cfg.shared.notes t = [.indexClaimed d v]

instance (cfg : RagConfig) (t d v : Nat) : Decidable (Attempting cfg t d v) :=
  inferInstanceAs (Decidable (_ ∧ _))

/-- The documents that a stale recovery resets. -/
def Command.recovers : Command -> Choice -> Option (List Nat)
  | .commit (.staleRecovered ids), .proceed _ _ => some ids
  | _, _ => none

/-- A stale recovery resets no document whose attempt goes on. -/
def SparesAttempts (cfg : RagConfig) (c : Command) (ch : Choice) : Prop :=
  forall ids, ids ∈ c.recovers ch -> forall d, d ∈ ids ->
    forall base, base ∈ cfg.shared.db.documents d -> base.status = .processing ->
      forall claim, claim ∈ cfg.shared.history ->
        ¬ Attempting cfg claim.thread d base.indexVersion

instance (cfg : RagConfig) (c : Command) (ch : Choice) : Decidable (SparesAttempts cfg c ch) :=
  inferInstanceAs (Decidable (forall ids, ids ∈ c.recovers ch -> forall d, d ∈ ids ->
    forall base, base ∈ cfg.shared.db.documents d -> base.status = .processing ->
      forall claim, claim ∈ cfg.shared.history ->
        ¬ Attempting cfg claim.thread d base.indexVersion))

def sparingRuns (env : Env) : System.Condition (system env) where
  starts := fun _ => True
  steps := fun cfg t c ch => SparesAttempts cfg c ch ∧ retryMeets UpToDate cfg.shared t c ch

structure AttemptsInv (cfg : RagConfig) : Prop where
  unstarted : forall t, cfg.threads t = none -> cfg.shared.notes t = []
  known : forall c, c ∈ cfg.shared.history -> forall d v, c.note = .indexClaimed d v ->
    cfg.shared.Known d
  version : forall t d v row, Attempting cfg t d v -> cfg.shared.db.documents d = some row ->
    v ≤ row.indexVersion
  status : forall t d v row, Attempting cfg t d v -> cfg.shared.db.documents d = some row ->
    row.indexVersion = v -> row.status = .processing ∨ row.status = .deleting
  single : forall t u d v, Attempting cfg t d v -> Attempting cfg u d v -> t = u
  last : forall t d v row, Attempting cfg t d v -> cfg.shared.db.documents d = some row ->
    row.indexVersion = v -> ClaimOf t d v cfg.shared.history
  law : AttemptLaw cfg.shared.history

section

variable {env : Env} {allowed : Settings -> Prop} {cfg cfg' : RagConfig} {t u d v : Nat}

theorem Attempting.claim (h : Attempting cfg t d v) :
    exists c, c ∈ cfg.shared.history ∧ c.thread = t ∧ c.note = .indexClaimed d v := by
  have hmem : Note.indexClaimed d v ∈ cfg.shared.notes t := by
    rw [h.2]
    exact List.mem_singleton_self _
  rcases List.mem_map.mp hmem with ⟨c, hc, hnote⟩
  rcases List.mem_filter.mp hc with ⟨hhistory, hthread⟩
  exact ⟨c, hhistory, of_decide_eq_true hthread, hnote⟩

theorem AttemptsInv.known_of_attempting (h : AttemptsInv cfg) (ha : Attempting cfg t d v) :
    cfg.shared.Known d := by
  rcases ha.claim with ⟨c, hc, -, hnote⟩
  exact h.known c hc d v hnote

theorem AttemptsInv.congr (h : AttemptsInv cfg) (hdb : cfg'.shared.db = cfg.shared.db)
    (hhistory : cfg'.shared.history = cfg.shared.history)
    (hthreads : forall u, cfg'.threads u = none -> cfg.threads u = none)
    (hrunning : forall u, running cfg' u = true -> cfg.shared.notes u ≠ [] ->
      running cfg u = true) : AttemptsInv cfg' := by
  have hnotes : forall u, cfg'.shared.notes u = cfg.shared.notes u :=
    fun u => State.notes_congr hhistory
  have hold : forall u d v, Attempting cfg' u d v -> Attempting cfg u d v := by
    intro u d v h
    rcases h with ⟨hrun, hclaim⟩
    rw [hnotes] at hclaim
    refine ⟨hrunning u hrun ?_, hclaim⟩
    rw [hclaim]
    exact List.cons_ne_nil _ _
  constructor
  · intro u hu
    rw [hnotes]
    exact h.unstarted u (hthreads u hu)
  · intro c hc d v hnote
    rw [hhistory] at hc
    simpa only [State.Known, hhistory] using h.known c hc d v hnote
  · intro u d v row ha hrow
    rw [hdb] at hrow
    exact h.version u d v row (hold u d v ha) hrow
  · intro u d v row ha hrow
    rw [hdb] at hrow
    exact h.status u d v row (hold u d v ha) hrow
  · intro u w d v ha ha'
    exact h.single u w d v (hold u d v ha) (hold w d v ha')
  · intro u d v row ha hrow hversion
    rw [hdb] at hrow
    rw [hhistory]
    exact h.last u d v row (hold u d v ha) hrow hversion
  · rw [hhistory]
    exact h.law

/-!
# One commit

After a commit an attempt was open before, or the commit is its claim.  The failure that a
commit records is that of its own claim, and only a retry makes a failed document pending.
-/

variable {σ : Session} {note : Note} {op : Op} {p : Action Unit}

/-- After a commit, an attempt was open before, or the commit is its claim. -/
theorem attempting_commit
    (ha : Attempting ⟨cfg.shared.commit t note σ,
      Function.update cfg.threads t (some ⟨op, p⟩)⟩ u d v) :
    (u ≠ t ∧ Attempting cfg u d v) ∨ (u = t ∧ note = .indexClaimed d v) := by
  rcases ha with ⟨hrunning, hnotes⟩
  by_cases hu : u = t
  · subst u
    rw [State.notes_commit_self] at hnotes
    have hlast := congrArg List.getLast? hnotes
    rw [List.getLast?_append, List.getLast?_singleton, List.getLast?_singleton,
      Option.some_or, Option.some.injEq] at hlast
    exact .inr ⟨rfl, hlast⟩
  · rw [State.notes_commit_other hu] at hnotes
    simp only [running, Function.update_of_ne hu] at hrunning
    exact .inl ⟨hu, hrunning, hnotes⟩

theorem Session.Effect.claimed {s : State} (hdocuments : DocumentsOk s t σ) (hclean : σ.Clean)
    (heffect : σ.Effect env allowed s t (.indexClaimed d v)) :
    exists base row, s.db.documents d = some base ∧ base.status = .pending ∧
      base.indexVersion = v ∧ (s.db.install σ.writes).documents d = some row ∧
      row.status = .processing ∧ row.indexVersion = v := by
  rcases heffect with ⟨⟨loaded, hholds, hstatus, hversion⟩, -⟩
  have hne : loaded.claimed ≠ loaded := by
    intro heq
    have hclaimed := congrArg Document.status heq
    rw [hstatus] at hclaimed
    cases hclaimed
  rcases hholds.toFocus.row hdocuments hclean hne with ⟨base, now, hbase, hrow⟩
  rw [hholds.committed, Option.some.injEq] at hbase
  subst hbase
  refine ⟨loaded, _, hholds.committed, hstatus, hversion, hrow, ?_, ?_⟩
  · exact writeColumn_loaded _ _
  · exact (writeColumn_self _ _).trans hversion

theorem AttemptsInv.row (h : AttemptsInv cfg) (hinv : cfg.shared.Inv allowed)
    (hσ : cfg.shared.sessions t = some σ) (hclean : σ.Clean)
    (heffect : σ.Effect env allowed cfg.shared t note) (hrunning : running cfg t = true)
    (hretry : forall d event e base, note = .documentRetried d event ->
      σ.documents d = some e -> cfg.shared.db.documents d = some base -> UpToDate e.loaded base)
    (hspares : forall ids d base, note = .staleRecovered ids -> d ∈ ids ->
      cfg.shared.db.documents d = some base -> base.status = .processing ->
        forall u, ¬ Attempting cfg u d base.indexVersion)
    (hu : u ≠ t) (ha : Attempting cfg u d v) {row : Document}
    (hrow : (cfg.shared.db.install σ.writes).documents d = some row) :
    v ≤ row.indexVersion ∧ (row.indexVersion = v ->
      (row.status = .processing ∨ row.status = .deleting) ∧ note.claims d = false ∧
        exists base, cfg.shared.db.documents d = some base ∧ base.indexVersion = v) := by
  have hok := (hinv.session t σ hσ).documents
  by_cases hretried : exists event, note = .documentRetried d event
  · rcases hretried with ⟨event, rfl⟩
    rcases heffect.retried hok hclean with ⟨e, profileId, base, now, he, hbase, hnew, -⟩
    rw [hrow, Option.some.injEq] at hnew
    have hupToDate := hretry d event e base rfl he hbase
    have hversion := h.version u d v base ha hbase
    have hle : v < row.indexVersion := by
      rw [hnew, Document.write_retried_indexVersion]
      exact Nat.lt_succ_of_le (Nat.le_trans hversion hupToDate)
    exact ⟨Nat.le_of_lt hle, fun heq => absurd heq.symm (Nat.ne_of_lt hle)⟩
  rcases heffect.document_cases hok hclean hrow with
    hsame | ⟨event, -, hinserts⟩ | ⟨base, hbase, hstep⟩
  · refine ⟨h.version u d v row ha hsame, fun hversion =>
      ⟨h.status u d v row ha hsame hversion, ?_, row, hsame, hversion⟩⟩
    -- a claim would have changed the row
    cases note with
    | indexClaimed i w =>
        simp only [Note.claims, decide_eq_false_iff_not]
        intro heq
        subst heq
        rcases heffect.claimed hok hclean with ⟨base, row', hbase, hpending, -⟩
        rw [hsame, Option.some.injEq] at hbase
        subst hbase
        rcases h.status u i v row ha hsame hversion with hstatus | hstatus <;>
          rw [hpending] at hstatus <;> cases hstatus
    | _ => rfl
  · exact absurd (h.known_of_attempting ha) (hok.inserted d row hinserts).1
  · have hversion := hstep.indexVersion fun event hnote => hretried ⟨event, hnote⟩
    rw [hversion]
    refine ⟨h.version u d v base ha hbase, fun heq => ?_⟩
    have hstatus := h.status u d v base ha hbase heq
    have hkeeps : forall loaded : Document,
        writeColumn loaded.status .deleting base.status = .processing ∨
          writeColumn loaded.status .deleting base.status = .deleting := by
      intro loaded
      rcases writeColumn_cases loaded.status .deleting base.status with ⟨-, hold⟩ | ⟨-, hnew⟩
      · rw [hold]
        exact hstatus
      · exact .inr hnew
    -- the step is not one that only the attempt itself may take
    have hother : cfg.shared.notes t ≠ [.indexClaimed d base.indexVersion] := by
      intro hnotes
      rw [heq] at hnotes
      exact hu (h.single u t d v ha ⟨hrunning, hnotes⟩)
    cases hstep with
    | knowledgeBaseDeleted loaded base now => exact ⟨hkeeps loaded, rfl, base, hbase, heq⟩
    | deleteRequested event loaded base now => exact ⟨hkeeps loaded, rfl, base, hbase, heq⟩
    | retried event profileId loaded base now => exact absurd ⟨event, rfl⟩ hretried
    | claimed base now hpending =>
        rw [hpending] at hstatus
        rcases hstatus with h | h <;> cases h
    | indexed base text count now hprocessing =>
        rcases heffect with ⟨⟨loaded, run, hholds, -, hnotes, -⟩, -⟩
        rw [hholds.committed, Option.some.injEq] at hbase
        subst hbase
        exact absurd hnotes hother
    | failed base status message now hfailed hready hdeleting =>
        exact absurd heffect.2.1 hother
    | recovered base message time now hid hstale =>
        rcases hstale with hpending | hprocessing
        · rw [hpending] at hstatus
          rcases hstatus with h | h <;> cases h
        · refine absurd ha ?_
          rw [← heq]
          exact hspares _ d base rfl hid hbase hprocessing u

theorem AttemptsInv.own (h : AttemptsInv cfg)
    (heffect : σ.Effect env allowed cfg.shared t (.failureRecorded d v))
    (hrunning : running cfg t = true) : ClaimOf t d v cfg.shared.history := by
  rcases heffect with ⟨⟨loaded, status, message, hholds, -, hversion, -⟩, hnotes, -⟩
  exact h.last t d v loaded ⟨hrunning, hnotes⟩ hholds.committed hversion

theorem AttemptsInv.failed (h : AttemptsInv cfg) (hinv : cfg.shared.Inv allowed)
    (hσ : cfg.shared.sessions t = some σ) (hclean : σ.Clean)
    (heffect : σ.Effect env allowed cfg.shared t note) (hrunning : running cfg t = true)
    (hretry : forall d event e base, note = .documentRetried d event ->
      σ.documents d = some e -> cfg.shared.db.documents d = some base -> UpToDate e.loaded base)
    {base row : Document} (hbase : cfg.shared.db.documents d = some base)
    (hrow : (cfg.shared.db.install σ.writes).documents d = some row)
    (hfailed : base.status = .failed) (hpending : row.status = .pending) :
    base.indexVersion < row.indexVersion := by
  have hok := (hinv.session t σ hσ).documents
  by_cases hretried : exists event, note = .documentRetried d event
  · rcases hretried with ⟨event, rfl⟩
    rcases heffect.retried hok hclean with ⟨e, profileId, base', now, he, hbase', hnew, -⟩
    rw [hbase, Option.some.injEq] at hbase'
    subst hbase'
    rw [hrow, Option.some.injEq] at hnew
    rw [hnew, Document.write_retried_indexVersion]
    exact Nat.lt_succ_of_le (hretry d event e base rfl he hbase)
  rcases heffect.document_cases hok hclean hrow with
    hsame | ⟨event, -, hinserts⟩ | ⟨base', hbase', hstep⟩
  · rw [hbase, Option.some.injEq] at hsame
    rw [hsame, hpending] at hfailed
    cases hfailed
  · exact absurd (hinv.known d base hbase) (hok.inserted d row hinserts).1
  · rw [hbase, Option.some.injEq] at hbase'
    subst hbase'
    have hkeeps : forall loaded : Document,
        writeColumn loaded.status .deleting base.status ≠ .pending := by
      intro loaded
      rcases writeColumn_cases loaded.status .deleting base.status with ⟨-, hold⟩ | ⟨-, hnew⟩
      · rw [hold, hfailed]
        decide
      · rw [hnew]
        decide
    cases hstep with
    | knowledgeBaseDeleted loaded base now => exact absurd hpending (hkeeps loaded)
    | deleteRequested event loaded base now => exact absurd hpending (hkeeps loaded)
    | retried event profileId loaded base now => exact absurd ⟨event, rfl⟩ hretried
    | claimed base now hstatus =>
        rw [hfailed] at hstatus
        cases hstatus
    | indexed base text count now hstatus =>
        rw [hfailed] at hstatus
        cases hstatus
    | failed base status message now hstatus hready hdeleting =>
        -- the row of an open attempt has not failed
        rcases heffect with ⟨-, hnotes, -⟩
        rcases h.status t d _ base ⟨hrunning, hnotes⟩ hbase rfl with h | h <;>
          rw [hfailed] at h <;> cases h
    | recovered base message time now hid hstatus =>
        rw [hfailed] at hstatus
        rcases hstatus with h | h <;> cases h

/-- The history after a commit obeys the law if the new commit does. -/
theorem AttemptLaw.append {history : List Commit} {c : Commit} (h : AttemptLaw history)
    (hown : forall d v, c.note = .failureRecorded d v -> ClaimOf c.thread d v history)
    (hfailed : forall d base row, c.before.documents d = some base ->
      c.after.documents d = some row -> base.status = .failed -> row.status = .pending ->
        base.indexVersion < row.indexVersion) : AttemptLaw (history ++ [c]) where
  own := by
    intro before c' after d v hsplit hnote
    rcases List.eq_nil_or_concat after with rfl | ⟨after', last, rfl⟩
    · rcases List.append_inj' hsplit rfl with ⟨rfl, hlast⟩
      rw [List.cons.injEq] at hlast
      rw [← hlast.1] at hnote ⊢
      exact hown d v hnote
    · have hconcat : history ++ [c] = (before ++ c' :: after') ++ [last] := by
        rw [hsplit]
        simp
      exact h.own before c' after' d v (List.append_inj' hconcat rfl).1 hnote
  failed := by
    intro c' hc'
    rcases List.mem_append.mp hc' with hold | hnew
    · exact h.failed c' hold
    · rw [List.mem_singleton] at hnew
      rw [hnew]
      exact hfailed

theorem AttemptsInv.commit (h : AttemptsInv cfg) (hinv : cfg.shared.Inv allowed)
    (hσ : cfg.shared.sessions t = some σ) (hclean : σ.Clean)
    (heffect : σ.Effect env allowed cfg.shared t note) (hrunning : running cfg t = true)
    (hretry : forall d event e base, note = .documentRetried d event ->
      σ.documents d = some e -> cfg.shared.db.documents d = some base -> UpToDate e.loaded base)
    (hspares : forall ids d base, note = .staleRecovered ids -> d ∈ ids ->
      cfg.shared.db.documents d = some base -> base.status = .processing ->
        forall u, ¬ Attempting cfg u d base.indexVersion) :
    AttemptsInv ⟨cfg.shared.commit t note σ,
      Function.update cfg.threads t (some ⟨op, p⟩)⟩ := by
  have hok := (hinv.session t σ hσ).documents
  -- the row of an attempt that was open before
  have hold : forall {u d v row}, u ≠ t -> Attempting cfg u d v ->
      (cfg.shared.db.install σ.writes).documents d = some row ->
      v ≤ row.indexVersion ∧ (row.indexVersion = v ->
        (row.status = .processing ∨ row.status = .deleting) ∧ note.claims d = false ∧
          exists base, cfg.shared.db.documents d = some base ∧ base.indexVersion = v) :=
    fun hu ha hrow => h.row hinv hσ hclean heffect hrunning hretry hspares hu ha hrow
  have hclaimed : forall {d v row}, note = .indexClaimed d v ->
      (cfg.shared.db.install σ.writes).documents d = some row ->
      row.status = .processing ∧ row.indexVersion = v := by
    intro d v row heq hrow
    subst heq
    rcases heffect.claimed hok hclean with ⟨base, row', -, -, -, hrow', hstatus, hversion⟩
    rw [hrow, Option.some.injEq] at hrow'
    rw [hrow']
    exact ⟨hstatus, hversion⟩
  -- a claim finds no attempt open at its version
  have hfirst : forall {u d v}, Attempting cfg u d v -> note ≠ .indexClaimed d v := by
    intro u d v ha heq
    subst heq
    rcases heffect.claimed hok hclean with ⟨base, row', hbase, hpending, hversion, -⟩
    rcases h.status u d v base ha hbase hversion with hstatus | hstatus <;>
      rw [hpending] at hstatus <;> cases hstatus
  constructor
  · intro u hu
    have hut : u ≠ t := by
      intro heq
      subst heq
      simp at hu
    simp only [Function.update_of_ne hut] at hu
    exact (State.notes_commit_other hut).trans (h.unstarted u hu)
  · intro c hc d v hnote
    rcases List.mem_append.mp hc with hc | hc
    · exact State.known_commit.mpr (.inl (h.known c hc d v hnote))
    · rw [List.mem_singleton] at hc
      subst hc
      obtain rfl : note = .indexClaimed d v := hnote
      rcases heffect.claimed hok hclean with ⟨base, row, -, -, -, hrow, -⟩
      refine State.known_commit.mpr (.inr ?_)
      rw [hrow]
      exact Option.some_ne_none row
  · intro u d v row ha hrow
    rcases attempting_commit ha with ⟨hu, ha⟩ | ⟨rfl, hnote⟩
    · exact (hold hu ha hrow).1
    · exact Nat.le_of_eq (hclaimed hnote hrow).2.symm
  · intro u d v row ha hrow hversion
    rcases attempting_commit ha with ⟨hu, ha⟩ | ⟨rfl, hnote⟩
    · exact ((hold hu ha hrow).2 hversion).1
    · exact .inl (hclaimed hnote hrow).1
  · intro u w d v ha ha'
    rcases attempting_commit ha with ⟨hu, hopen⟩ | ⟨hu, hnote⟩
    · rcases attempting_commit ha' with ⟨hw, hopen'⟩ | ⟨hw, hnote'⟩
      · exact h.single u w d v hopen hopen'
      · exact absurd hnote' (hfirst hopen)
    · rcases attempting_commit ha' with ⟨hw, hopen'⟩ | ⟨hw, hnote'⟩
      · exact absurd hnote (hfirst hopen')
      · rw [hu, hw]
  · intro u d v row ha hrow hversion
    change ClaimOf u d v (cfg.shared.history ++
      [⟨t, note, cfg.shared.db, cfg.shared.db.install σ.writes⟩])
    unfold ClaimOf
    rcases attempting_commit ha with ⟨hu, ha⟩ | ⟨rfl, rfl⟩
    · rcases (hold hu ha hrow).2 hversion with ⟨-, hclaims, base, hbase, hsame⟩
      rw [lastClaim_append_of_not hclaims]
      exact h.last u d v base ha hbase hsame
    · rw [lastClaim_append_of_claims (by simp [Note.claims])]
      exact ⟨_, rfl, rfl, rfl⟩
  · refine h.law.append ?_ ?_
    · intro d v heq
      subst heq
      exact h.own heffect hrunning
    · intro d base row hbase hrow
      exact h.failed hinv hσ hclean heffect hrunning hretry hbase hrow

end

/-!
# Whole runs

The open attempts and the history keep to the law along every run in which recovery spares open
attempts.
-/

theorem attempts_record_own_claim {env : Env} {last : RagConfig}
    (hrun : System.Reaches (system env) (sparingRuns env) initial last) :
    AttemptLaw last.shared.history := by
  have hbody : forall t op s, (sparingRuns env).starts op ->
      (discipline env fun _ => True).fresh t s ->
        (discipline env fun _ => True).SafeToRun t ((system env).body op) s :=
    fun t op s _ => body_safe fun _ _ => trivial
  refine (sound_reaches hbody AttemptsInv ?_ ?_ ?_ initial_sound ?_ hrun).2.law
  · intro cfg t op h hfree
    -- a thread that starts has committed nothing
    refine h.congr rfl rfl (fun u hu => ?_) (fun u hrunning hnotes => ?_)
    · by_cases hut : u = t
      · rw [hut]
        exact hfree
      · simpa only [Function.update_of_ne hut] using hu
    · by_cases hut : u = t
      · rw [hut] at hnotes
        exact absurd (h.unstarted t hfree) hnotes
      · simpa only [running, Function.update_of_ne hut] using hrunning
  · intro cfg t op c k ch s' r hinv hthread hguard hsteps h hexec
    change exec t c ch cfg.shared = some (s', r) at hexec
    change guard env (fun _ => True) cfg.shared t c ch at hguard
    have hrunning : running cfg t = true := by
      simp [running, hthread]
    -- what is left when the command commits nothing
    have hcongr : forall s₁ : State, s₁.db = cfg.shared.db ->
        s₁.history = cfg.shared.history ->
          AttemptsInv ⟨s₁, Function.update cfg.threads t (some ⟨op, k r⟩)⟩ := by
      intro s₁ hdb hhistory
      refine h.congr hdb hhistory (fun u hu => ?_) (fun u hu _ => ?_)
      · by_cases hut : u = t
        · rw [hut] at hu
          simp at hu
        · simpa only [Function.update_of_ne hut] using hu
      · by_cases hut : u = t
        · rw [hut]
          exact hrunning
        · simpa only [running, Function.update_of_ne hut] using hu
    cases ch with
    | fail e =>
        cases r with
        | error e' =>
            rw [exec_error hexec]
            exact hcongr _ rfl rfl
        | ok a => cases c <;> cases hexec
    | proceed now vectors =>
        rcases exec_cases hinv hguard hexec with
          rfl | ⟨note, σ, rfl, hσ, hclean, heffect, rfl⟩ | ⟨-, rfl⟩ |
          ⟨hdb, hhistory, -⟩ | ⟨rs, n, σ', hrs, hn, rfl, hok⟩
        · exact hcongr _ rfl rfl
        · refine h.commit hinv hσ hclean heffect hrunning ?_ ?_
          · intro d event e base heq he hbase
            subst heq
            exact retryMeets_commit hsteps.2 hσ he hbase
          · intro ids d base heq hd hbase hprocessing u ha
            subst heq
            rcases ha.claim with ⟨claim, hclaim, rfl, -⟩
            exact hsteps.1 ids rfl d hd base hbase hprocessing claim hclaim ha
        · exact hcongr _ rfl rfl
        · exact hcongr _ hdb hhistory
        · exact hcongr _ rfl rfl
  · intro cfg t th hinv h hthread
    refine h.congr rfl rfl (fun u hu => ?_) (fun u hu _ => ?_)
    · by_cases hut : u = t
      · rw [hut] at hu
        simp at hu
      · simpa only [Function.update_of_ne hut] using hu
    · by_cases hut : u = t
      · rw [hut] at hu
        simp [running] at hu
      · simpa only [running, Function.update_of_ne hut] using hu
  · constructor
    · intro t _
      rfl
    · intro c hc
      cases hc
    · intro t d v row h
      rcases h with ⟨hrunning, -⟩
      cases hrunning
    · intro t d v row h
      rcases h with ⟨hrunning, -⟩
      cases hrunning
    · intro t u d v h
      rcases h with ⟨hrunning, -⟩
      cases hrunning
    · intro t d v row h
      rcases h with ⟨hrunning, -⟩
      cases hrunning
    · refine ⟨fun before c after d v hsplit => ?_, fun c hc => by cases hc⟩
      simp [initial, State.empty] at hsplit

/-!
# Sample runs

Index tasks of document 3 at version 1, with repairs and retries in between.
-/

namespace Sample

def later (t n : Nat) : List (Label Op Choice) :=
  List.replicate n (.step t (.proceed 1000 [[1]]))

def raise (t : Nat) (e : Exception) : List (Label Op Choice) :=
  [.step t (.fail e)]

def claim (t : Nat) : List (Label Op Choice) :=
  start t (.indexDocument settings 3 (some 1) 0) 7

def unreadable (t : Nat) (e : Exception) : List (Label Op Choice) :=
  later t 2 ++ raise t e ++ later t 1

end Sample

instance (env : Env) : DecidablePred (sparingRuns env).starts :=
  fun _ => .isTrue trivial

instance (env : Env) (cfg : RagConfig) (t : Nat) (c : interface.Command)
    (ch : (system env).Choice) : Decidable ((sparingRuns env).steps cfg t c ch) :=
  @instDecidableAnd _ _ (instDecidableSparesAttempts cfg c ch)
    (retryMeetsDecidable UpToDate cfg.shared t c ch)

/-- An attempt records its failure, and a retry makes the document pending again. -/
theorem attempts_record_own_claim_retried : exists last : RagConfig,
    last.shared.history.map Commit.note =
        [.knowledgeBaseCreated 1, .documentCreated 3 4, .indexClaimed 3 1,
          .failureRecorded 3 1, .documentRetried 3 5] ∧
      AttemptLaw last.shared.history := by
  rcases System.exists_reaches (sparingRuns Sample.env) initial
    (Sample.upload ++ Sample.claim 2 ++ Sample.unreadable 2 .fileNotFound ++ Sample.later 2 7 ++
      Sample.retry 3 14)
    (fun last : RagConfig => last.shared.history.map Commit.note =
      [.knowledgeBaseCreated 1, .documentCreated 3 4, .indexClaimed 3 1,
        .failureRecorded 3 1, .documentRetried 3 5]) (by decide +kernel) with
    ⟨last, hrun, hnotes⟩
  exact ⟨last, hnotes, attempts_record_own_claim hrun⟩

/--
Recovery resets the row of an attempt that is late, and a second attempt claims it.  The
second fails for good, then the first records its own failure, which is one to retry:
the failed document is pending again at the same version.
-/
theorem attempts_record_own_claim_fails : exists last : RagConfig,
    System.Reaches (system Sample.env) (system Sample.env).anyRun initial last ∧
      ¬ AttemptLaw last.shared.history := by
  rcases System.exists_reaches (system Sample.env).anyRun initial
    (Sample.upload ++ Sample.claim 2 ++
      (.start 3 (.repairStuckDocument Sample.settings) :: Sample.later 3 11) ++
      Sample.claim 4 ++ Sample.unreadable 2 .os ++ Sample.unreadable 4 .fileNotFound ++
      Sample.later 4 7 ++ Sample.later 2 7)
    (fun last : RagConfig => last.shared.history.any (fun c =>
      (c.before.documents 3).any (fun d => d.status = .failed ∧ d.indexVersion = 1) ∧
        (c.after.documents 3).any (fun d => d.status = .pending ∧ d.indexVersion = 1)) = true)
    (by decide +kernel) with ⟨last, hrun, hcommit⟩
  rcases List.any_eq_true.mp hcommit with ⟨c, hc, hcond⟩
  rcases of_decide_eq_true hcond with ⟨hbefore, hafter⟩
  rcases (Option.any_eq_true ..).mp hbefore with ⟨base, hbase, hbaseCond⟩
  rcases (Option.any_eq_true ..).mp hafter with ⟨row, hrow, hrowCond⟩
  rcases of_decide_eq_true hbaseCond with ⟨hfailed, hone⟩
  rcases of_decide_eq_true hrowCond with ⟨hpending, hone'⟩
  refine ⟨last, hrun, fun h => ?_⟩
  have hlt := h.failed c hc 3 base row hbase hrow hfailed hpending
  rw [hone, hone'] at hlt
  exact Nat.lt_irrefl 1 hlt

end RagService
