import RagService.Foundation.SoloRuns
import RagService.Properties.ChunkSets
import RagService.Service.Issued

/-!
# Uploads that fail

An upload puts its object into storage before the four statements that make the document
and before the commit.  Storage takes no part in the transaction and nothing removes the
object again, so a failure after the put leaves it behind.
-/

namespace RagService

open Interleaving IndexProfileService OutboxService

structure Upload where
  cfg : Settings
  knowledgeBaseId : Nat
  userId : Nat
  isAdmin : Bool
  filename : Text
  content : Bytes
  mimeType : Option Text

namespace Upload

def op (u : Upload) : Op :=
  .createDocument u.cfg u.knowledgeBaseId u.userId u.isAdmin u.filename u.content u.mimeType

def suffix (u : Upload) : Text :=
  ((Text.afterLast '.' u.filename).map Text.lowerAscii).getD []

def Accepted (u : Upload) : Prop :=
  u.suffix ∈ Parsing.supportedDocumentSuffixes ∧ u.content.length ≤ u.cfg.maxFileSize

instance (u : Upload) : Decidable u.Accepted :=
  inferInstanceAs (Decidable (_ ∧ _))

def storageKey (u : Upload) (env : Env) (kb : KnowledgeBase) : Text :=
  Text.decimal kb.id ++ ['/'] ++ env.sha256 u.content ++ ['.'] ++ u.suffix

def key (u : Upload) (env : Env) (db : Db) : Option Text :=
  if u.Accepted then
    (db.getAuthorized u.knowledgeBaseId u.userId u.isAdmin true).map (u.storageKey env)
  else none

end Upload

/-- If the upload commits nothing, the storage is as it was. -/
def LeavesNoTrace (env : Env) (t : Nat) (u : Upload) (s : State) : Prop :=
  forall out s', Ends machine t (u.op.body env) s out s' -> s'.history = s.history ->
    s'.storage = s.storage

/-!
# Every run of an upload

The programs of an upload before and after its put leave the storage alone.
-/

section

variable {s s' : State} {t : Nat} {c : Command} {ch : Choice} {r : Except Exception c.Result}

def Command.touchesStorage : Command -> Bool
  | putObject _ _ | deleteObject _ => true
  | _ => false

theorem storage_of_exec (h : exec t c ch s = some (s', r)) (hc : c.touchesStorage = false) :
    s'.storage = s.storage := by
  cases exec_step h with
  | putObject key content => cases hc
  | deleteObject key => cases hc
  | nothing | begin | commit | rollback | statement | send => rfl

abbrev Spares {α : Type} (p : Action α) : Prop :=
  Only (fun c => c.touchesStorage = false) p

theorem spares_issue {c : Command} (hc : c.touchesStorage = false) :
    Spares (Program.issue (I := interface) c) :=
  only_issue hc

theorem spares_atFlush : AtFlush fun c => c.touchesStorage = false :=
  ⟨rfl, fun _ => rfl, rfl, fun _ => rfl⟩

theorem ensures_of_spares {α : Type} {p : Action α} (hp : Spares p) {storage : Text -> Option Bytes}
    {s : State} (hs : s.storage = storage) :
    Ensures machine t p (fun _ s' => s'.storage = storage) s :=
  ensures_of_issues hp (fun _ _ _ _ _ hc hs hexec => (storage_of_exec hexec hc).trans hs) hs

/-!
# Before and after the put

Reading the knowledge base finds the row of the database, and after the put every statement and
the commit may fail; so may the lookup of the index profile, and then the object stays.
-/

/-- The statements of an upload after its put. -/
def Upload.register (u : Upload) (env : Env) (kb : KnowledgeBase) : Action (Nat × Nat) := do
  let profileId ← getOrCreateIndexProfile env u.cfg
  let id ← Action.add (.document
    { id := 0, knowledgeBaseId := kb.id, filename := u.filename, fileType := u.suffix,
      mimeType := u.mimeType, storageKey := u.storageKey env kb, fileSize := u.content.length,
      contentHash := env.sha256 u.content, parsedContent := none, status := .pending,
      errorMessage := none, chunkCount := 0, indexVersion := 1, indexProfileId := some profileId,
      createdTime := 0, updatedTime := none, deleted := 0 })
  let event ← enqueueDocumentIndex id 1
  return (id, event)

theorem Upload.create_accepted {u : Upload} (h : u.Accepted) (env : Env) :
    DocumentService.create env u.cfg u.knowledgeBaseId u.userId u.isAdmin u.filename u.content
        u.mimeType =
      (do
        let kb ← KnowledgeBaseService.get u.knowledgeBaseId u.userId u.isAdmin true
        Action.putObject (u.storageKey env kb) u.content
        u.register env kb) := by
  unfold DocumentService.create
  congr 1
  funext kb
  refine (if_neg (not_not_intro h.1)).trans ?_
  exact if_neg (Nat.not_lt_of_le h.2)

theorem Upload.create_refused {u : Upload} (h : ¬ u.Accepted) (env : Env) : exists e,
    DocumentService.create env u.cfg u.knowledgeBaseId u.userId u.isAdmin u.filename u.content
        u.mimeType =
      (do
        let _ ← KnowledgeBaseService.get u.knowledgeBaseId u.userId u.isAdmin true
        Action.raise e) := by
  unfold DocumentService.create
  by_cases hsuffix : u.suffix ∈ Parsing.supportedDocumentSuffixes
  · have hsize : u.cfg.maxFileSize < u.content.length :=
      Nat.lt_of_not_le fun hle => h ⟨hsuffix, hle⟩
    apply Exists.intro
    congr 1
    funext kb
    refine (if_neg (not_not_intro hsuffix)).trans ?_
    exact if_pos hsize
  · apply Exists.intro
    congr 1
    funext kb
    exact if_pos hsuffix

theorem Upload.spares_register (u : Upload) (env : Env) (kb : KnowledgeBase) :
    Spares (u.register env kb) := by
  apply Program.issues_bind
    (only_getOrCreateIndexProfile spares_atFlush (fun _ => rfl) (fun _ => rfl) env u.cfg)
  intro profileId _
  apply Program.issues_bind (only_add spares_atFlush rfl)
  intro id _
  apply Program.issues_bind
    (only_enqueue spares_atFlush (fun _ _ _ => rfl) (fun _ => rfl) _)
  intro event _
  trivial

theorem exec_loadKnowledgeBase {pk userId : Nat} {isAdmin write : Bool} {σ : Session}
    {r : Except Exception (Option KnowledgeBase)} (hσ : s.sessions t = some σ)
    (hwrites : σ.writes = {})
    (h : exec t (.loadKnowledgeBase pk userId isAdmin write) ch s = some (s', r)) :
    forall row, r = .ok row -> row = s.db.getAuthorized pk userId isAdmin write := by
  intro row hrow
  cases ch with
  | fail e =>
      cases h
      cases hrow
  | proceed now vectors =>
      simp only [exec, Command.outside, hσ, State.perform, hwrites] at h
      cases h
      cases hrow
      rfl

theorem get_finds {pk userId : Nat} {isAdmin write : Bool} {σ : Session}
    (hσ : s.sessions t = some σ) (hwrites : σ.writes = {}) :
    Ensures machine t (KnowledgeBaseService.get pk userId isAdmin write)
      (fun out s' => s'.storage = s.storage ∧
        forall kb, out = .ok kb -> s.db.getAuthorized pk userId isAdmin write = some kb) s := by
  apply ensures_bind
  apply ensures_issue
  intro ch s' r hexec
  have hstorage := storage_of_exec hexec rfl
  cases r with
  | error e => exact ⟨hstorage, fun kb hkb => by cases hkb⟩
  | ok row =>
      have hrow := exec_loadKnowledgeBase hσ hwrites hexec row rfl
      cases row with
      | none => exact ⟨hstorage, fun kb hkb => by cases hkb⟩
      | some kb =>
          refine ⟨hstorage, fun kb' hkb => ?_⟩
          cases hkb
          exact hrow.symm

def Upload.Stores (u : Upload) (env : Env) (s s' : State) : Prop :=
  s'.storage = s.storage ∨ exists key, key ∈ u.key env s.db ∧
    s'.storage = Function.update s.storage key (some u.content)

theorem exec_putObject {key : Text} {content : Bytes} {r : Except Exception Unit}
    (h : exec t (.putObject key content) ch s = some (s', r)) :
    s'.storage = Function.update s.storage key (some content) ∨ s'.storage = s.storage := by
  cases exec_step h with
  | putObject => exact .inl rfl
  | nothing => exact .inr rfl
  | statement σ rs n σ' hσ hstep => cases hstep

theorem Upload.create_stores (u : Upload) (env : Env) {σ : Session}
    (hσ : s.sessions t = some σ) (hwrites : σ.writes = {}) :
    Ensures machine t
      (DocumentService.create env u.cfg u.knowledgeBaseId u.userId u.isAdmin u.filename u.content
        u.mimeType)
      (fun _ s' => u.Stores env s s') s := by
  by_cases haccepted : u.Accepted
  · rw [Upload.create_accepted haccepted]
    apply ensures_bind
    refine ensures_mono (get_finds hσ hwrites) fun out s₁ h => ?_
    rcases h with ⟨hstorage, hfound⟩
    cases out with
    | error e => exact .inl hstorage
    | ok kb =>
        have hkey : u.key env s.db = some (u.storageKey env kb) := by
          rw [Upload.key, if_pos haccepted, hfound kb rfl, Option.map_some]
        apply ensures_bind
        apply ensures_issue
        intro ch s₂ r hexec
        have hput : u.Stores env s s₂ := by
          rcases exec_putObject hexec with h | h
          · exact .inr ⟨_, hkey, by rw [h, hstorage]⟩
          · exact .inl (h.trans hstorage)
        cases r with
        | error e => exact hput
        | ok _ =>
            refine ensures_mono (ensures_of_spares (u.spares_register env kb) rfl) ?_
            intro out s₃ h
            unfold Upload.Stores at hput ⊢
            rwa [h]
  · rcases Upload.create_refused haccepted env with ⟨e, hcreate⟩
    rw [hcreate]
    apply ensures_bind
    refine ensures_mono (get_finds hσ hwrites) fun out s₁ h => ?_
    cases out with
    | error e => exact .inl h.1
    | ok kb => exact .inl h.1

theorem exec_begin {a : Unit} (h : exec t .begin ch s = some (s', .ok a)) :
    s'.sessions t = some {} ∧ s'.db = s.db := by
  cases ch with
  | fail e => cases h
  | proceed now vectors =>
      simp only [exec, Command.outside, Bool.false_eq_true, if_false] at h
      split at h
      · cases h
      · cases h
        exact ⟨Function.update_self .., rfl⟩

theorem Upload.Stores.congr {u : Upload} {env : Env} {s₁ : State} (hdb : s₁.db = s.db)
    (hstorage : s₁.storage = s.storage) (h : u.Stores env s₁ s') : u.Stores env s s' := by
  unfold Upload.Stores at h ⊢
  rwa [hdb, hstorage] at h

theorem spares_finish {α : Type} (note : Note) (a : α) :
    Spares (do
      Action.flush
      Action.commit note
      return a) := by
  apply Program.issues_bind (only_flush spares_atFlush)
  intro _ _
  apply Program.issues_bind (spares_issue rfl)
  intro _ _
  trivial

theorem spares_abort {α : Type} (e : Exception) :
    Spares (do
      Action.rollback
      (Action.raise e : Action α)) := by
  apply Program.issues_bind (spares_issue rfl)
  intro _ _
  trivial

theorem Upload.stores (u : Upload) (env : Env) :
    Ensures machine t (u.op.body env) (fun _ s' => u.Stores env s s') s := by
  have hspares : forall {α : Type} {p : Action α} {s' : State}, Spares p -> u.Stores env s s' ->
      Ensures machine t p (fun _ s'' => u.Stores env s s'') s' := by
    intro α p s' hp h
    refine ensures_mono (ensures_of_spares hp rfl) fun out s'' hkept => ?_
    unfold Upload.Stores at h ⊢
    rwa [hkept]
  apply ensures_bind
  refine ensures_mono (Q := fun _ s' => u.Stores env s s') ?_ fun out s' h => ?_
  · apply ensures_bind
    apply ensures_issue
    intro ch s₁ r hexec
    have hstorage := storage_of_exec hexec rfl
    cases r with
    | error e => exact .inl hstorage
    | ok _ =>
        rcases exec_begin hexec with ⟨hσ, hdb⟩
        apply ensures_bind
        apply ensures_outcome
        refine ensures_mono (Q := fun _ s' => u.Stores env s s') ?_ fun out s₃ h => ?_
        · apply ensures_bind
          refine ensures_mono (u.create_stores env hσ rfl) fun out s₂ h => ?_
          have hstores := h.congr hdb hstorage
          cases out with
          | error e => exact hstores
          | ok a => exact hspares (spares_finish _ a) hstores
        · cases out with
          | ok a => exact h
          | error e => exact hspares (spares_abort e) h
  · cases out with
    | ok _ => exact h
    | error e => exact h

/-- The lookup of the index profile may fail, and then the object stays. -/
theorem Upload.fails_after_put {u : Upload} {env : Env} {key : Text} (hnone : s.sessions t = none)
    (hkey : key ∈ u.key env s.db) :
    exists out s', Ends machine t (u.op.body env) s out s' ∧ s'.history = s.history ∧
      s'.storage = Function.update s.storage key (some u.content) := by
  unfold Upload.key at hkey
  split at hkey
  · rename_i haccepted
    rcases Option.map_eq_some_iff.mp hkey with ⟨kb, hkb, rfl⟩
    let proceed : machine.Choice := Choice.proceed 0 []
    let fail : machine.Choice := Choice.fail .database
    let s₁ := s.setSession t {}
    let s₂ := s₁.setSession t
      { knowledgeBases := loadEntries KnowledgeBase.id (fun _ => none) [kb] }
    let s₃ : State :=
      { s₂ with storage := Function.update s₂.storage (u.storageKey env kb) (some u.content) }
    have hσ₁ : s₁.sessions t = some {} := Function.update_self ..
    have hbegin : Ends machine t Action.begin s (.ok ()) s₁ := by
      apply Ends.issue proceed
      simp only [machine, exec, proceed, Command.outside, hnone, Bool.false_eq_true, if_false]
      rfl
    have hload : Ends machine t (Action.loadKnowledgeBase u.knowledgeBaseId u.userId u.isAdmin
        true) s₁ (.ok (some kb)) s₂ := by
      apply Ends.issue proceed
      have hrow : (s₁.db.install {}).getAuthorized u.knowledgeBaseId u.userId u.isAdmin true =
          some kb := hkb
      simp only [machine, exec, proceed, Command.outside, hσ₁, State.perform, hrow,
        Bool.false_eq_true, if_false]
      rfl
    have hput : Ends machine t (Action.putObject (u.storageKey env kb) u.content) s₂ (.ok ())
        s₃ := Ends.issue proceed rfl
    have hlookup : Ends machine t (u.register env kb) s₃ (.error .database) s₃ :=
      Ends.bind_error (Ends.bind_error (Ends.issue fail rfl))
    have hcreate : Ends machine t (DocumentService.create env u.cfg u.knowledgeBaseId u.userId
        u.isAdmin u.filename u.content u.mimeType) s₁ (.error .database) s₃ := by
      rw [Upload.create_accepted haccepted]
      exact Ends.bind_ok (Ends.bind_ok hload (Ends.ret kb s₂)) (Ends.bind_ok hput hlookup)
    have hrollback : Ends machine t Action.rollback s₃ (.ok ()) (s₃.close t) := by
      apply Ends.issue proceed
      have hσ₃ : s₃.sessions t = some _ := Function.update_self ..
      simp only [machine, exec, proceed, Command.outside, hσ₃, State.perform, Bool.false_eq_true,
        if_false]
      rfl
    refine ⟨.error .database, s₃.close t, ?_, rfl, rfl⟩
    refine Ends.bind_error (Ends.bind_ok hbegin ?_)
    refine Ends.bind_ok (Ends.outcome (Ends.bind_error hcreate)) ?_
    exact Ends.bind_ok hrollback (Ends.raise _ _)
  · cases hkey

end

/-!
# The storage after a failed upload
-/

/--
A failed upload leaves the storage as it was exactly if it is refused before it writes, or
the storage has this content under its key already.
-/
theorem failed_upload_leaves_no_trace {env : Env} {t : Nat} {u : Upload} {s : State}
    (hnone : s.sessions t = none) :
    LeavesNoTrace env t u s ↔
      forall key, key ∈ u.key env s.db -> s.storage key = some u.content := by
  constructor
  · intro h key hkey
    rcases Upload.fails_after_put hnone hkey with ⟨out, s', hends, hhistory, hstorage⟩
    rw [← h out s' hends hhistory, hstorage, Function.update_self]
  · intro hkeys out s' hends _
    rcases (u.stores env).ends hends with hsame | ⟨key, hkey, hstorage⟩
    · exact hsame
    · rw [hstorage]
      exact Function.update_eq_self_iff.mpr (hkeys key hkey).symm

/-!
# Sample uploads

The file `a` for knowledge base 1 of user 1.
-/

namespace Sample

def oneBase (storage : Text -> Option Bytes) : State :=
  { State.empty with
    db := { State.empty.db with
      knowledgeBases := fun i => if i = 1 then some ⟨1, 1, "kb".toList, none, false, 0⟩ else none }
    nextId := 2
    storage := storage }

def firstUpload : Upload where
  cfg := settings
  knowledgeBaseId := 1
  userId := 1
  isAdmin := false
  filename := "a.txt".toList
  content := content
  mimeType := none

def firstKey : Text :=
  "1/ca978112ca1bbdcafac231b39a23dc4da786eff8147c4e72b9807785afee48bb.txt".toList

end Sample

/-- The same file is in storage already. -/
theorem failed_upload_leaves_no_trace_again :
    LeavesNoTrace Sample.env 0 Sample.firstUpload
      (Sample.oneBase (Function.update (fun _ => none) Sample.firstKey (some Sample.content))) := by
  apply (failed_upload_leaves_no_trace rfl).mpr
  intro key hkey
  have hfirst : Sample.firstUpload.key Sample.env (Sample.oneBase fun _ => none).db =
      some Sample.firstKey := by decide +kernel
  cases hfirst.symm.trans hkey
  simp [Sample.oneBase, Sample.firstUpload]

/-- Every statement goes through and the commit fails: the object stays. -/
theorem failed_upload_leaves_no_trace_fails : exists out s',
    Ends machine 0 (Sample.firstUpload.op.body Sample.env) (Sample.oneBase fun _ => none) out s' ∧
      s'.history = [] ∧ s'.db.documents 3 = none ∧
      s'.storage ≠ (Sample.oneBase fun _ => none).storage := by
  rcases exists_ends (M := machine) (t := 0) (p := Sample.firstUpload.op.body Sample.env)
    (s := Sample.oneBase fun _ => none)
    (List.replicate 16 (Choice.proceed 0 []) ++ [.fail .database, .proceed 0 []])
    (fun s' => s'.history.isEmpty = true ∧ s'.db.documents 3 = none ∧
      s'.storage Sample.firstKey = some Sample.content) (by decide +kernel) with
    ⟨out, s', hends, hhistory, hdocument, hobject⟩
  refine ⟨out, s', hends, List.isEmpty_iff.mp hhistory, hdocument, fun hsame => ?_⟩
  rw [hsame] at hobject
  cases hobject

end RagService
