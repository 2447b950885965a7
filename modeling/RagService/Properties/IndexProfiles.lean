import RagService.Properties.ChunkSets

/-!
# Index profiles

A document gets its index profile with the upload or the retry, and its chunks from a
worker with settings of its own.  The profile describes the chunks where these agree.
-/

namespace RagService

open Interleaving Interleaving.Discipline IndexProfileService

/-- The stored payload of the profile that a document refers to. -/
def Db.profilePayload (db : Db) (row : Document) : Option IndexProfilePayload :=
  (row.indexProfileId.bind db.profiles).map IndexProfile.payload

/-- The commit that produced the current chunks of a document. -/
def State.lastIndexing (s : State) (d : Nat) : Option Commit :=
  s.history.reverse.find? fun c => c.note = .documentIndexed d

/-- The settings of the worker that runs as a thread. -/
def indexSettings (cfg : RagConfig) (t : Nat) : Option Settings :=
  match cfg.threads t with
  | some ⟨.indexDocument settings _ _ _, _⟩ => some settings
  | _ => none

/--
The profile of a document that is ready has the payload of the settings with which its
current chunks were produced.
-/
def State.Described (s : State) (settingsOf : Nat -> Option Settings) : Prop :=
  forall d row, s.db.documents d = some row -> row.status = .ready ->
    exists c settings, s.lastIndexing d = some c ∧ c.after.chunks d = s.db.chunks d ∧
      settingsOf c.thread = some settings ∧
      s.db.profilePayload row = some (buildIndexProfilePayload settings)

/-!
# Conditions

A worker commits its chunks with the settings that the profile of the row describes, and a
retry that leaves a row ready does not change its profile.
-/

def Command.indexes : Command -> Choice -> Option Nat
  | .commit (.documentIndexed d), .proceed _ _ => some d
  | _, _ => none

def IndexedAsDescribed (cfg : RagConfig) (t : Nat) (c : Command) (ch : Choice) : Prop :=
  forall d, d ∈ c.indexes ch -> forall row, row ∈ cfg.shared.db.documents d ->
    exists settings, settings ∈ indexSettings cfg t ∧
      cfg.shared.db.profilePayload row = some (buildIndexProfilePayload settings)

def KeepsProfile (e : Entry Document) (base : Document) : Prop :=
  e.loaded.status = .pending -> base.status = .ready ->
    writeColumn e.loaded.indexProfileId e.current.indexProfileId base.indexProfileId =
      base.indexProfileId

def RetryKeepsProfile (s : State) (t : Nat) (c : Command) (ch : Choice) : Prop :=
  forall d, d ∈ c.retries ch -> forall σ, σ ∈ s.sessions t ->
    forall e, e ∈ σ.documents d -> forall base, base ∈ s.db.documents d -> KeepsProfile e base

def profileRuns (env : Env) : System.Condition (system env) where
  starts := fun _ => True
  steps := fun cfg t c ch =>
    IndexedAsDescribed cfg t c ch ∧ RetryKeepsProfile cfg.shared t c ch

instance (cfg : RagConfig) (t : Nat) (c : Command) (ch : Choice) :
    Decidable (IndexedAsDescribed cfg t c ch) :=
  inferInstanceAs (Decidable (forall d, d ∈ c.indexes ch ->
    forall row, row ∈ cfg.shared.db.documents d -> exists settings, settings ∈ indexSettings cfg t ∧
      cfg.shared.db.profilePayload row = some (buildIndexProfilePayload settings)))

instance (e : Entry Document) (base : Document) : Decidable (KeepsProfile e base) :=
  inferInstanceAs (Decidable (_ -> _ -> _))

instance (s : State) (t : Nat) (c : Command) (ch : Choice) :
    Decidable (RetryKeepsProfile s t c ch) :=
  inferInstanceAs (Decidable (forall d, d ∈ c.retries ch -> forall σ, σ ∈ s.sessions t ->
    forall e, e ∈ σ.documents d -> forall base, base ∈ s.db.documents d -> KeepsProfile e base))

instance (env : Env) : DecidablePred (profileRuns env).starts :=
  fun _ => .isTrue trivial

instance (env : Env) (cfg : RagConfig) (t : Nat) (c : interface.Command)
    (ch : (system env).Choice) : Decidable ((profileRuns env).steps cfg t c ch) :=
  @instDecidableAnd _ _ (instDecidableIndexedAsDescribed cfg t c ch)
    (instDecidableRetryKeepsProfile cfg.shared t c ch)

/-!
# Profiles stay as they are

The rows of the profile table have keys that were drawn once.  A statement leaves the pending
profiles alone, or adds one under the next key.
-/

structure State.ProfilesFresh (s : State) : Prop where
  committed : forall i, s.db.profiles i ≠ none -> i < s.nextId
  pending : forall t σ, s.sessions t = some σ -> forall i, σ.writes.profiles i ≠ none ->
    i < s.nextId ∧ s.db.profiles i = none
  own : forall t σ u τ, s.sessions t = some σ -> s.sessions u = some τ -> t ≠ u ->
    forall i, σ.writes.profiles i ≠ none -> τ.writes.profiles i = none

section

variable {s s' : State} {t : Nat} {σ σ' : Session} {c : Command}

theorem Session.Step.profiles {rs : List Resource} {n : Nat}
    (h : Session.Step s t σ c rs n σ') {i : Nat} (hi : σ'.writes.profiles i ≠ none) :
    σ.writes.profiles i ≠ none ∨ i = s.nextId ∧ n = s.nextId + 1 := by
  cases h with
  | insert row now hkey hlock hfree =>
      cases row with
      | profile row =>
          by_cases hid : i = s.nextId
          · exact .inr ⟨hid, rfl⟩
          · left
            simpa [NewRow.place, Function.update_of_ne hid] using hi
      | knowledgeBase row => exact .inl hi
      | document row => exact .inl hi
      | event row => exact .inl hi
  | loadKnowledgeBase | load | lock | lockEvents | assign | assignKnowledgeBase | update
  | updateKnowledgeBase | updateEvent | remove | deleteChunks | insertChunks => exact .inl hi

theorem State.ProfilesFresh.close (h : s.ProfilesFresh) (t : Nat) : (s.close t).ProfilesFresh := by
  have hopen : forall u τ, (s.close t).sessions u = some τ -> s.sessions u = some τ := by
    intro u τ hτ
    by_cases hu : u = t
    · subst hu
      simp [State.close] at hτ
    · simpa [State.close, Function.update_of_ne hu] using hτ
  constructor
  · exact h.committed
  · intro u τ hτ
    exact h.pending u τ (hopen u τ hτ)
  · intro u τ v υ hτ hυ
    exact h.own u τ v υ (hopen u τ hτ) (hopen v υ hυ)

theorem State.ProfilesFresh.work (h : s.ProfilesFresh) {rs : List Resource} {n : Nat}
    (hle : s.nextId ≤ n)
    (hprofiles : forall i, σ'.writes.profiles i ≠ none ->
      (exists σ, s.sessions t = some σ ∧ σ.writes.profiles i ≠ none) ∨
        i = s.nextId ∧ n = s.nextId + 1) :
    (s.work t rs n σ').ProfilesFresh := by
  have hself : (s.work t rs n σ').sessions t = some σ' := by
    simp [State.work, State.setSession]
  have hother : forall u, u ≠ t -> (s.work t rs n σ').sessions u = s.sessions u := by
    intro u hu
    simp [State.work, State.setSession, State.acquire, Function.update_of_ne hu]
  -- no other session has a profile that this one has
  have hdisjoint : forall u τ, u ≠ t -> s.sessions u = some τ -> forall i,
      σ'.writes.profiles i ≠ none -> τ.writes.profiles i = none := by
    intro u τ hu hτ i hi
    cases hprofiles i hi with
    | inl hold =>
        rcases hold with ⟨σ, hσ, hi⟩
        exact h.own t σ u τ hσ hτ (Ne.symm hu) i hi
    | inr hnew =>
        by_contra hne
        exact absurd (h.pending u τ hτ i hne).1 (by rw [hnew.1]; exact Nat.lt_irrefl _)
  constructor
  · intro i hi
    exact Nat.lt_of_lt_of_le (h.committed i hi) hle
  · intro u τ hτ i hi
    by_cases hu : u = t
    · subst hu
      rw [hself, Option.some.injEq] at hτ
      subst hτ
      cases hprofiles i hi with
      | inl hold =>
          rcases hold with ⟨σ, hσ, hi⟩
          have hbefore := h.pending u σ hσ i hi
          exact ⟨Nat.lt_of_lt_of_le hbefore.1 hle, hbefore.2⟩
      | inr hnew =>
          constructor
          · change i < n
            rw [hnew.1, hnew.2]
            exact Nat.lt_succ_self _
          · change s.db.profiles i = none
            by_contra hne
            exact absurd (h.committed i hne) (by rw [hnew.1]; exact Nat.lt_irrefl _)
    · rw [hother u hu] at hτ
      have hbefore := h.pending u τ hτ i hi
      exact ⟨Nat.lt_of_lt_of_le hbefore.1 hle, hbefore.2⟩
  · intro u τ v υ hτ hυ huv i hi
    by_cases hu : u = t
    · subst hu
      rw [hself, Option.some.injEq] at hτ
      subst hτ
      rw [hother v (Ne.symm huv)] at hυ
      exact hdisjoint v υ (Ne.symm huv) hυ i hi
    · rw [hother u hu] at hτ
      by_cases hv : v = t
      · subst hv
        rw [hself, Option.some.injEq] at hυ
        subst hυ
        by_contra hne
        exact hi (hdisjoint u τ hu hτ i hne)
      · rw [hother v hv] at hυ
        exact h.own u τ v υ hτ hυ huv i hi

theorem Db.install_profiles_of_none {db : Db} {w : Writes} {i : Nat} (h : w.profiles i = none) :
    (db.install w).profiles i = db.profiles i := by
  simp [Db.install, h]

theorem State.ProfilesFresh.install (h : s.ProfilesFresh) (hσ : s.sessions t = some σ) {i : Nat}
    {p : IndexProfile} (hp : s.db.profiles i = some p) :
    (s.db.install σ.writes).profiles i = some p := by
  rw [Db.install_profiles_of_none, hp]
  by_contra hne
  have hnone := (h.pending t σ hσ i hne).2
  rw [hp] at hnone
  cases hnone

theorem State.ProfilesFresh.commit (h : s.ProfilesFresh) (hσ : s.sessions t = some σ)
    (note : Note) : (s.commit t note σ).ProfilesFresh := by
  have hclose := h.close t
  have hcases : forall i, (s.db.install σ.writes).profiles i ≠ none ->
      s.db.profiles i ≠ none ∨ σ.writes.profiles i ≠ none := by
    intro i hi
    by_cases hw : σ.writes.profiles i = none
    · rw [Db.install_profiles_of_none hw] at hi
      exact .inl hi
    · exact .inr hw
  constructor
  · intro i hi
    cases hcases i hi with
    | inl hold => exact h.committed i hold
    | inr hnew => exact (h.pending t σ hσ i hnew).1
  · intro u τ hτ i hi
    have hbefore := hclose.pending u τ hτ i hi
    refine ⟨hbefore.1, ?_⟩
    have hu : t ≠ u := by
      intro heq
      subst heq
      simp [State.commit, State.close] at hτ
    have hsession : s.sessions u = some τ := by
      simpa [State.commit, State.close, Function.update_of_ne (Ne.symm hu)] using hτ
    have hnone : σ.writes.profiles i = none := h.own u τ t σ hsession hσ (Ne.symm hu) i hi
    change (s.db.install σ.writes).profiles i = none
    rw [Db.install_profiles_of_none hnone]
    exact hbefore.2
  · exact hclose.own

theorem State.ProfilesFresh.step (h : s.ProfilesFresh)
    (hids : forall i d, s.db.documents i = some d -> d.id = i) (hstep : State.Step s t c s') :
    s'.ProfilesFresh := by
  cases hstep with
  | nothing => exact h
  | begin hnone => exact h.work (Nat.le_refl _) fun i hi => absurd rfl hi
  | commit note σ hσ => exact h.commit hσ note
  | rollback => exact h.close t
  | statement σ rs n σ' hσ hstep =>
      apply h.work (hstep.lockable hids).2
      intro i hi
      cases hstep.profiles hi with
      | inl hold => exact .inl ⟨σ, hσ, hold⟩
      | inr hnew => exact .inr hnew
  | putObject key content => exact ⟨h.committed, h.pending, h.own⟩
  | deleteObject key => exact ⟨h.committed, h.pending, h.own⟩
  | send m => exact ⟨h.committed, h.pending, h.own⟩

end

/-!
# One commit

A row that stays ready keeps its profile, except with a retry.  Where another status is
assigned, a row is ready only if it was and stays as it was.
-/

section

variable {env : Env} {allowed : Settings -> Prop} {s : State} {t : Nat} {σ : Session}
variable {note : Note} {settingsOf : Nat -> Option Settings}

theorem ready_of_writeColumn {loaded current base : DocumentStatus}
    (h : writeColumn loaded current base = .ready) (hne : current ≠ .ready) :
    current = loaded ∧ base = .ready := by
  rcases writeColumn_cases loaded current base with ⟨hsame, heq⟩ | ⟨-, heq⟩
  · exact ⟨hsame, heq.symm.trans h⟩
  · exact absurd (heq.symm.trans h) hne

theorem Document.Step.profile {i : Nat} {base row : Document} (h : Document.Step note i base row)
    (hretry : forall event, note ≠ .documentRetried i event)
    (hindexed : note ≠ .documentIndexed i) (hready : row.status = .ready) :
    base.status = .ready ∧ row.indexProfileId = base.indexProfileId := by
  cases h with
  | retried event profileId loaded base now => exact absurd rfl (hretry event)
  | indexed base text count now hstatus => exact absurd rfl hindexed
  | failed base status message now hstatus hready' hdeleting =>
      have hne : status ≠ .ready := by
        rcases hstatus with rfl | rfl <;> decide
      exact ⟨(ready_of_writeColumn hready hne).2, writeColumn_self _ _⟩
  | knowledgeBaseDeleted | deleteRequested =>
      have hne : DocumentStatus.deleting ≠ .ready := by decide
      exact ⟨(ready_of_writeColumn hready hne).2, writeColumn_self _ _⟩
  | claimed base now hstatus =>
      have hne : DocumentStatus.processing ≠ .ready := by decide
      exact ⟨(ready_of_writeColumn hready hne).2, writeColumn_self _ _⟩
  | recovered base message time now hid hstatus =>
      have hne : DocumentStatus.pending ≠ .ready := by decide
      exact ⟨(ready_of_writeColumn hready hne).2, writeColumn_self _ _⟩

theorem State.lastIndexing_commit (s : State) (t : Nat) (note : Note) (σ : Session) (d : Nat) :
    (s.commit t note σ).lastIndexing d =
      if note = .documentIndexed d then some ⟨t, note, s.db, s.db.install σ.writes⟩
      else s.lastIndexing d := by
  unfold State.lastIndexing State.commit
  rw [List.reverse_append, List.reverse_singleton, List.singleton_append, List.find?_cons]
  by_cases hnote : note = .documentIndexed d
  · simp [hnote]
  · simp [hnote]

theorem State.Described.commit (h : s.Described settingsOf) (hfresh : s.ProfilesFresh)
    (hinv : s.Inv allowed) (hσ : s.sessions t = some σ) (hclean : σ.Clean)
    (heffect : σ.Effect env allowed s t note)
    (hindex : forall d row, note = .documentIndexed d -> s.db.documents d = some row ->
      exists settings, settingsOf t = some settings ∧
        s.db.profilePayload row = some (buildIndexProfilePayload settings))
    (hretry : forall d event e base, note = .documentRetried d event ->
      σ.documents d = some e -> s.db.documents d = some base -> KeepsProfile e base) :
    (s.commit t note σ).Described settingsOf := by
  have hok := hinv.session t σ hσ
  -- a profile that a row refers to is the same after the commit
  have hpayload : forall {row row' : Document} {payload}, row'.indexProfileId = row.indexProfileId ->
      s.db.profilePayload row = some payload ->
      (s.db.install σ.writes).profilePayload row' = some payload := by
    intro row row' payload hid hrow
    rcases Option.map_eq_some_iff.mp hrow with ⟨p, hp, hpayload⟩
    rcases Option.bind_eq_some_iff.mp hp with ⟨i, hi, hp⟩
    unfold Db.profilePayload
    rw [hid, hi, Option.bind_some, hfresh.install hσ hp, Option.map_some, hpayload]
  intro d row hrow hready
  change (s.db.install σ.writes).documents d = some row at hrow
  rw [State.lastIndexing_commit]
  rcases heffect.chunks_cases hok.documents hclean d with
    ⟨hnote, hchunks⟩ | ⟨-, -, hnone⟩ | ⟨rfl, base, run, now, hbase, -, -, hnew⟩
  · -- the chunks are those of an earlier run
    rw [if_neg hnote]
    -- it is enough that the row was ready with the same profile before
    have hbefore : forall base, s.db.documents d = some base -> base.status = .ready ->
        row.indexProfileId = base.indexProfileId ->
        exists c settings, s.lastIndexing d = some c ∧
          c.after.chunks d = (s.db.install σ.writes).chunks d ∧
          settingsOf c.thread = some settings ∧
          (s.db.install σ.writes).profilePayload row =
            some (buildIndexProfilePayload settings) := by
      intro base hbase hstatus hid
      rcases h d base hbase hstatus with ⟨c, settings, hc, hafter, hthread, hdescribed⟩
      exact ⟨c, settings, hc, hafter.trans hchunks.symm, hthread, hpayload hid hdescribed⟩
    by_cases hretried : exists event, note = .documentRetried d event
    · rcases hretried with ⟨event, rfl⟩
      rcases heffect with ⟨⟨loaded, profileId, hfocus, -⟩, -⟩
      rcases hfocus.entry with ⟨flushed, he⟩
      rcases hfocus.row hok.documents hclean (Document.retried_ne loaded profileId) with
        ⟨base, now, hbase, hnew⟩
      rw [hrow, Option.some.injEq] at hnew
      subst hnew
      have hne : DocumentStatus.pending ≠ .ready := by decide
      have hpending := ready_of_writeColumn hready hne
      exact hbefore base hbase hpending.2
        (hretry d event _ base rfl he hbase hpending.1.symm hpending.2)
    · rcases heffect.document_cases hok.documents hclean hrow with
        hsame | ⟨event, -, hinserts⟩ | ⟨base, hbase, hstep⟩
      · exact hbefore row hsame hready rfl
      · have hstatus := (hok.documents.inserted d row hinserts).2.2.2.2.1
        rw [hready] at hstatus
        cases hstatus
      · have hprofile := hstep.profile (fun event heq => hretried ⟨event, heq⟩) hnote hready
        exact hbefore base hbase hprofile.1 hprofile.2
  · rw [hrow] at hnone
    cases hnone
  · rw [if_pos rfl]
    rcases hindex d base rfl hbase with ⟨settings, hthread, hdescribed⟩
    refine ⟨_, settings, rfl, rfl, hthread, hpayload ?_ hdescribed⟩
    rw [hrow, Option.some.injEq] at hnew
    rw [hnew]
    exact writeColumn_self _ _

end

/-!
# Whole runs
-/

theorem indexSettings_of_sameOp {cfg last : RagConfig} {t : Nat} {settings : Settings}
    (hop : System.SameOp cfg last t) (h : indexSettings cfg t = some settings) :
    indexSettings last t = some settings := by
  unfold indexSettings at h
  split at h
  · rename_i settings' documentId indexVersion retries program hthread
    rcases hop _ hthread with ⟨⟨op, program'⟩, hlast, hsame⟩
    change op = _ at hsame
    subst hsame
    unfold indexSettings
    rw [hlast]
    exact h
  · cases h

theorem ready_profiles_describe {env : Env} {last : RagConfig}
    (hrun : System.Reaches (system env) (profileRuns env) initial last) :
    last.shared.Described (indexSettings last) := by
  have hstarts : forall op, ((profileRuns env).withOps last).starts op ->
      op.Allowed fun _ => True := fun _ _ _ _ => trivial
  have hkept : last.shared.ProfilesFresh ∧ last.shared.Described (indexSettings last) := by
    refine commands_preserve hstarts
      (fun s => s.ProfilesFresh ∧ s.Described (indexSettings last)) ?_ ?_ initial_sound ?_
      hrun.withOps
    · intro cfg t c now vectors s' hinv hguard h h' hstep
      rcases h with ⟨⟨hindexed, hretries⟩, hop⟩
      rcases h' with ⟨hfresh, h⟩
      refine ⟨hfresh.step (fun i d hd => (hinv.coherent.document i d hd).1) hstep, ?_⟩
      cases hstep with
      | commit note σ hσ =>
          rcases hguard.2 σ hσ with ⟨hclean, heffect⟩
          apply h.commit hfresh hinv hσ hclean heffect
          · intro d row heq hrow
            subst heq
            rcases hindexed d rfl row hrow with ⟨settings, hsettings, hpayload⟩
            exact ⟨settings, indexSettings_of_sameOp hop hsettings, hpayload⟩
          · intro d event e base heq he hbase
            subst heq
            exact hretries d rfl σ hσ e he base hbase
      | nothing | begin | rollback | statement | putObject | deleteObject | send => exact h
    · intro s t h
      rcases h with ⟨hfresh, h⟩
      exact ⟨hfresh.close t, h⟩
    · constructor
      · constructor
        · intro i hi
          exact absurd rfl hi
        · intro t σ hσ
          cases hσ
        · intro t σ u τ hσ
          cases hσ
      · intro d row hrow
        cases hrow
  exact hkept.2

/-!
# Sample runs

A worker with the settings of the upload, and one that has been started again with smaller
chunks.
-/

namespace Sample

def smallChunks : Settings :=
  { settings with chunkSize := 300 }

end Sample

/-- A document that is indexed with the settings it was uploaded with. -/
theorem ready_profiles_describe_uploaded : exists last : RagConfig,
    (exists row, last.shared.db.documents 3 = some row ∧ row.status = .ready) ∧
      last.shared.Described (indexSettings last) := by
  rcases System.exists_reaches (profileRuns Sample.env) initial
    (Sample.upload ++ Sample.index 2 1)
    (fun last : RagConfig =>
      (last.shared.db.documents 3).any (fun row => row.status = .ready) = true)
    (by decide +kernel) with ⟨last, hrun, hready⟩
  rcases (Option.any_eq_true ..).mp hready with ⟨row, hrow, hstatus⟩
  exact ⟨last, ⟨row, hrow, of_decide_eq_true hstatus⟩, ready_profiles_describe hrun⟩

/-- Chunks of 300 characters under a profile that says 600. -/
theorem ready_profiles_describe_fails : exists last : RagConfig,
    System.Reaches (system Sample.env) (system Sample.env).anyRun initial last ∧
      ¬ last.shared.Described (indexSettings last) := by
  rcases System.exists_reaches (system Sample.env).anyRun initial
    (Sample.upload ++ Sample.start 2 (.indexDocument Sample.smallChunks 3 (some 1) 0) 22)
    (fun last : RagConfig => (last.shared.db.documents 3).any (fun row =>
      row.status = .ready ∧
        last.shared.db.profilePayload row = some (buildIndexProfilePayload Sample.settings) ∧
        (last.shared.lastIndexing 3).any (fun c =>
          (indexSettings last c.thread).map Settings.chunkSize = some 300) = true) = true)
    (by decide +kernel) with ⟨last, hrun, hready⟩
  rcases (Option.any_eq_true ..).mp hready with ⟨row, hrow, hcond⟩
  rcases of_decide_eq_true hcond with ⟨hstatus, hpayload, hindexing⟩
  rcases (Option.any_eq_true ..).mp hindexing with ⟨c, hc, hsize⟩
  refine ⟨last, hrun, fun h => ?_⟩
  rcases h 3 row hrow hstatus with ⟨c', settings, hc', -, hsettings, hdescribed⟩
  rw [hc, Option.some.injEq] at hc'
  subst hc'
  rw [hpayload, Option.some.injEq] at hdescribed
  have hdescribedSize := congrArg IndexProfilePayload.chunkSize hdescribed
  have hsize' := of_decide_eq_true hsize
  rw [hsettings, Option.map_some, Option.some.injEq] at hsize'
  change 600 = settings.chunkSize at hdescribedSize
  rw [hsize'] at hdescribedSize
  exact absurd hdescribedSize (by decide)

end RagService
