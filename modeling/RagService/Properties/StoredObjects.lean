import RagService.Properties.Deletion

/-!
# Stored objects

The object of a document is put into storage before its row is inserted, and unlinked
before its row is removed.  Storage takes no part in the transaction, so an upload of
the same content may find its object unlinked between its put and its insert.
-/

namespace RagService

open Interleaving Interleaving.Discipline

/-- The object of a document is in storage. -/
def State.Stored (s : State) (d : Document) : Prop :=
  s.storage d.storageKey ≠ none

structure State.ObjectsKept (s : State) : Prop where
  committed : forall i d, s.db.documents i = some d -> d.status ≠ .deleting -> s.Stored d
  inserted : forall t σ i d, s.sessions t = some σ -> σ.Inserts i d -> s.Stored d

/-!
# Conditions

A document is inserted, or revived by a retry, only while its object is in storage.
-/

def Command.insertsKey : Command -> Choice -> Option Text
  | .insert (.document row), .proceed _ _ => some row.storageKey
  | _, _ => none

/-- A document is inserted only while its object is in storage. -/
def InsertsStored (s : State) (c : Command) (ch : Choice) : Prop :=
  forall key, key ∈ c.insertsKey ch -> s.storage key ≠ none

/-- A retry makes a document pending that is being deleted only while it has its object. -/
def RevivesStored (s : State) (loaded base : Document) : Prop :=
  LeavesDeleting loaded base ∨ s.Stored base

def objectRuns (env : Env) : System.Condition (system env) where
  starts := fun _ => True
  steps := fun cfg t c ch => InsertsStored cfg.shared c ch ∧
    retryMeets (RevivesStored cfg.shared) cfg.shared t c ch

instance (s : State) (d : Document) : Decidable (s.Stored d) :=
  inferInstanceAs (Decidable (_ ≠ _))

instance (s : State) (c : Command) (ch : Choice) : Decidable (InsertsStored s c ch) :=
  inferInstanceAs (Decidable (forall key, key ∈ c.insertsKey ch -> s.storage key ≠ none))

instance (s : State) (loaded base : Document) : Decidable (RevivesStored s loaded base) :=
  inferInstanceAs (Decidable (_ ∨ _))

instance (env : Env) : DecidablePred (objectRuns env).starts :=
  fun _ => .isTrue trivial

instance (env : Env) (cfg : RagConfig) (t : Nat) (c : interface.Command)
    (ch : (system env).Choice) : Decidable ((objectRuns env).steps cfg t c ch) :=
  @instDecidableAnd _ _ (instDecidableInsertsStored cfg.shared c ch)
    (retryMeetsDecidable (RevivesStored cfg.shared) cfg.shared t c ch)

/-!
# One command

The new documents of a transaction are those that its inserts added, and the object that
`delete_document` unlinks is that of no other document.
-/

section

variable {env : Env} {allowed : Settings -> Prop} {s s' : State} {t : Nat} {σ σ' : Session}
variable {note : Note}

theorem loadEntries_none {ρ : Type} {key : ρ -> Nat} {entries : Nat -> Option (Entry ρ)}
    {rows : List ρ} {i : Nat} (h : loadEntries key entries rows i = none) : entries i = none := by
  unfold loadEntries at h
  exact (Option.or_eq_none_iff.mp h).1

theorem Session.Step.inserts {c : Command} {rs : List Resource} {n : Nat}
    (h : Session.Step s t σ c rs n σ') {i : Nat} {d : Document} (hd : σ'.Inserts i d) :
    σ.Inserts i d ∨ exists row, c = .insert (.document row) ∧ d.storageKey = row.storageKey := by
  cases h with
  | loadKnowledgeBase | lockEvents | assignKnowledgeBase | updateKnowledgeBase | updateEvent
    | deleteChunks | insertChunks => exact .inl hd
  | load | lock => exact .inl ⟨loadEntries_none hd.1, hd.2⟩
  | assign id f e he =>
      rcases hd with ⟨hnone, hrow⟩
      by_cases hi : i = id
      · subst i
        simp at hnone
      · simp only [Function.update_of_ne hi] at hnone
        exact .inl ⟨hnone, hrow⟩
  | update id now e base he hbase hlock =>
      rcases hd with ⟨hnone, hrow⟩
      by_cases hi : i = id
      · subst i
        simp at hnone
      · simp only [Function.update_of_ne hi] at hnone hrow
        exact .inl ⟨hnone, hrow⟩
  | insert row now hkey hlock hfree =>
      rcases hd with ⟨hnone, hrow⟩
      cases row with
      | knowledgeBase row | profile row | event row => exact .inl ⟨hnone, hrow⟩
      | document row =>
          simp only [NewRow.place] at hrow
          by_cases hi : i = s.nextId
          · subst i
            simp only [Function.update_self, Option.some.injEq] at hrow
            exact .inr ⟨row, rfl, by rw [← hrow]⟩
          · simp only [Function.update_of_ne hi] at hrow
            exact .inl ⟨hnone, hrow⟩
  | remove id base hbase hlock hkey =>
      rcases hd with ⟨hnone, hrow⟩
      by_cases hi : i = id
      · subst i
        simp at hrow
      · simp only [Function.update_of_ne hi] at hnone hrow
        exact .inl ⟨hnone, hrow⟩

theorem State.ObjectsKept.commit (h : s.ObjectsKept) (hinv : s.Inv allowed)
    (hσ : s.sessions t = some σ) (hclean : σ.Clean) (heffect : σ.Effect env allowed s t note)
    (hretry : forall d event e base, note = .documentRetried d event ->
      σ.documents d = some e -> s.db.documents d = some base -> RevivesStored s e.loaded base) :
    (s.commit t note σ).ObjectsKept := by
  have hok := (hinv.session t σ hσ).documents
  constructor
  · intro i d hd hstatus
    change (s.db.install σ.writes).documents i = some d at hd
    rcases heffect.document_cases hok hclean hd with
      hold | ⟨event, -, hinserts⟩ | ⟨base, hbase, hstep⟩
    · exact h.committed i d hold hstatus
    · exact h.inserted t σ i d hσ hinserts
    · have hkey : d.storageKey = base.storageKey :=
        Document.storageKey_of_identity hstep.identity
      have hstored : s.Stored base := by
        by_cases hdeleting : base.status = .deleting
        · rcases heffect.revived hinv hσ hclean hbase hdeleting hd hstatus with
            ⟨event, e, hnote, he, hnot⟩
          exact (hretry i event e base hnote he hbase).resolve_left hnot
        · exact h.committed i base hbase hdeleting
      change s.storage d.storageKey ≠ none
      rw [hkey]
      exact hstored
  · intro u τ i d hτ hinserts
    by_cases hu : u = t
    · subst u
      simp [State.commit, State.close] at hτ
    · refine h.inserted u τ i d ?_ hinserts
      simpa [State.commit, State.close, Function.update_of_ne hu] using hτ

/-- The object that `delete_document` unlinks is that of no other document. -/
theorem State.ObjectsKept.deleteObject (h : s.ObjectsKept) (hinv : s.Inv allowed) {key : Text}
    (hguard : Command.OutsideOk s t (.deleteObject key)) :
    State.ObjectsKept { s with storage := Function.update s.storage key none } := by
  rcases hguard with ⟨j, d', -, hd', hdeleting, rfl⟩
  constructor
  · intro i d hd hstatus
    have hne : d.storageKey ≠ d'.storageKey := by
      intro hkey
      have hij := hinv.coherent.storageKeys i j d d' hd hd' hkey
      subst hij
      rw [hd, Option.some.injEq] at hd'
      subst hd'
      exact hstatus hdeleting
    simp only [State.Stored, Function.update_of_ne hne]
    exact h.committed i d hd hstatus
  · intro u τ i d hτ hinserts
    have hne : d.storageKey ≠ d'.storageKey :=
      ((hinv.session u τ hτ).documents.inserted i d hinserts).2.2.2.2.2.2.2 j d' hd' |>.symm
    simp only [State.Stored, Function.update_of_ne hne]
    exact h.inserted u τ i d hτ hinserts

theorem State.ObjectsKept.putObject (h : s.ObjectsKept) (key : Text) (content : Bytes) :
    State.ObjectsKept { s with storage := Function.update s.storage key (some content) } := by
  have hstored : forall d, s.Stored d ->
      State.Stored { s with storage := Function.update s.storage key (some content) } d := by
    intro d hd
    unfold State.Stored at *
    by_cases hkey : d.storageKey = key
    · simp [hkey]
    · simpa only [Function.update_of_ne hkey] using hd
  exact ⟨fun i d hd hstatus => hstored d (h.committed i d hd hstatus),
    fun u τ i d hτ hinserts => hstored d (h.inserted u τ i d hτ hinserts)⟩

theorem State.ObjectsKept.statement (h : s.ObjectsKept) {c : Command} {rs : List Resource}
    {n : Nat} (hσ : s.sessions t = some σ) (hstep : Session.Step s t σ c rs n σ')
    (hinsert : forall row, c = .insert (.document row) -> s.storage row.storageKey ≠ none) :
    (s.work t rs n σ').ObjectsKept := by
  refine ⟨h.committed, fun u τ i d hτ hinserts => ?_⟩
  by_cases hu : u = t
  · subst u
    simp only [State.work, State.setSession, Function.update_self, Option.some.injEq] at hτ
    subst hτ
    rcases hstep.inserts hinserts with hold | ⟨row, hc, hkey⟩
    · exact h.inserted t σ i d hσ hold
    · change s.storage d.storageKey ≠ none
      rw [hkey]
      exact hinsert row hc
  · refine h.inserted u τ i d ?_ hinserts
    simpa [State.work, State.setSession, State.acquire, Function.update_of_ne hu] using hτ

theorem State.ObjectsKept.close (h : s.ObjectsKept) : (s.close t).ObjectsKept := by
  refine ⟨h.committed, fun u τ i d hτ hinserts => ?_⟩
  by_cases hu : u = t
  · subst u
    simp [State.close] at hτ
  · refine h.inserted u τ i d ?_ hinserts
    simpa [State.close, Function.update_of_ne hu] using hτ

end

/-!
# Whole runs
-/

theorem live_documents_stored {env : Env} {last : RagConfig} {i : Nat} {d : Document}
    (hrun : System.Reaches (system env) (objectRuns env) initial last)
    (hd : last.shared.db.documents i = some d) (hstatus : d.status ≠ .deleting) :
    exists content, last.shared.storage d.storageKey = some content := by
  have hstarts : forall op, (objectRuns env).starts op -> op.Allowed fun _ => True :=
    fun _ _ _ _ => trivial
  have hkept : last.shared.ObjectsKept := by
    refine commands_preserve hstarts State.ObjectsKept ?_ State.ObjectsKept.close initial_sound
      ?_ hrun
    · intro cfg t c now vectors s' hinv hguard hsteps h hstep
      cases hstep with
      | nothing => exact h
      | begin hnone =>
          refine ⟨h.committed, fun u τ i d hτ hinserts => ?_⟩
          by_cases hu : u = t
          · subst u
            simp only [State.work, State.setSession, Function.update_self,
              Option.some.injEq] at hτ
            subst hτ
            cases hinserts.2
          · refine h.inserted u τ i d ?_ hinserts
            simpa [State.work, State.setSession, State.acquire, Function.update_of_ne hu]
              using hτ
      | commit note σ hσ =>
          rcases hguard.2 σ hσ with ⟨hclean, heffect⟩
          refine h.commit hinv hσ hclean heffect ?_
          intro d event e base heq he hbase
          subst heq
          exact retryMeets_commit hsteps.2 hσ he hbase
      | rollback => exact h.close
      | statement σ rs n σ' hσ hstep =>
          refine h.statement hσ hstep ?_
          intro row heq
          subst heq
          exact hsteps.1 row.storageKey rfl
      | putObject key content => exact h.putObject key content
      | deleteObject key => exact h.deleteObject hinv hguard.1
      | send m => exact ⟨h.committed, h.inserted⟩
    · constructor
      · intro i d hd
        cases hd
      · intro t σ i d hσ
        cases hσ
  exact Option.ne_none_iff_exists'.mp (hkept.committed i d hd hstatus)

/-!
# Sample runs

User 1 uploads the content of document 3 again, while that document is being deleted or when it
is gone.
-/

namespace Sample

def reupload (t n : Nat) : List (Label Op Choice) :=
  start t (.createDocument settings 1 1 false "a.txt".toList content none) n

def deleting : List (Label Op Choice) :=
  upload ++ requestDelete 2 12 ++ start 3 (.deleteDocument 3) 2

end Sample

/-- The same content uploaded again after the delete task is done. -/
theorem live_documents_stored_again : exists last : RagConfig,
    exists d content, last.shared.db.documents 6 = some d ∧
      last.shared.storage d.storageKey = some content := by
  rcases System.exists_reaches (objectRuns Sample.env) initial
    (Sample.deleting ++ Sample.go 3 6 ++ Sample.reupload 4 14)
    (fun last : RagConfig => (last.shared.db.documents 6).any (fun d => d.status = .pending) = true)
    (by decide +kernel) with ⟨last, hrun, hpending⟩
  rcases (Option.any_eq_true ..).mp hpending with ⟨d, hd, hstatus⟩
  have hne : d.status ≠ .deleting := by
    rw [of_decide_eq_true hstatus]
    decide
  rcases live_documents_stored hrun hd hne with ⟨content, hcontent⟩
  exact ⟨last, d, content, hd, hcontent⟩

/-- The delete task unlinks the object between the put and the insert of an upload. -/
theorem live_documents_stored_fails : exists last : RagConfig,
    System.Reaches (system Sample.env) (system Sample.env).anyRun initial last ∧
      last.shared.Quiet ∧ exists d, last.shared.db.documents 6 = some d ∧ d.deleted = 0 ∧
        d.status ≠ .deleting ∧ last.shared.storage d.storageKey = none := by
  rcases exists_quiet Sample.env
    (Sample.deleting ++ Sample.reupload 4 3 ++ Sample.go 3 6 ++ Sample.go 4 11) 5
    (fun last : RagConfig => (last.shared.db.documents 6).any (fun d =>
      d.deleted = 0 ∧ d.status ≠ .deleting ∧ last.shared.storage d.storageKey = none) = true)
    (by decide) (by decide +kernel) with ⟨last, hrun, hquiet, hlost⟩
  rcases (Option.any_eq_true ..).mp hlost with ⟨d, hd, hcond⟩
  exact ⟨last, hrun, hquiet, d, hd, of_decide_eq_true hcond⟩

end RagService
