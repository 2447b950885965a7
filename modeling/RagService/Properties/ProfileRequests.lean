import RagService.Service.Issued

/-!
# Requests that attach profiles

An upload or a retry looks up the profile of its settings, or adds it, and writes the id that it
gets into its row.  No other operation has anything to do with profiles.
-/

namespace RagService

open Interleaving IndexProfileService OutboxService

/-!
# The protocol of a request

Only a request that attaches a profile looks one up or adds one, for the payload of its settings;
the id that it gets is the only one that it writes into a row.
-/

/-- The settings of a request that attaches a profile. -/
def Op.attaches : Op -> Option Settings
  | .createDocument cfg _ _ _ _ _ _ | .retryDocument cfg _ _ _ _ => some cfg
  | _ => none

/-- What an operation may do when its transaction has got the profile with this id. -/
def Op.MayIssue (env : Env) (op : Op) (got : Option Nat) : Command -> Prop
  | .select (.indexProfile hash) =>
      exists cfg, op.attaches = some cfg ∧ hash = profileHash env (buildIndexProfilePayload cfg)
  | .insert (.profile row) =>
      exists cfg, op.attaches = some cfg ∧ row.payload = buildIndexProfilePayload cfg ∧
        row.profileHash = profileHash env row.payload
  | .insert (.document row) => exists i, got = some i ∧ row.indexProfileId = some i
  | .assign _ f => forall d, (f d).indexProfileId = d.indexProfileId ∨
      exists i, got = some i ∧ (f d).indexProfileId = some i
  | _ => True

def nextProfile (got : Option Nat) : (c : Command) -> Except Exception c.Result -> Option Nat
  | .select (.indexProfile _), .ok (found : Option IndexProfile) => found.map IndexProfile.id
  | .insert (.profile _), .ok (id : Nat) => some id
  | .begin, _ | .commit _, _ | .rollback, _ => none
  | _, _ => got

def attachProtocol (env : Env) (op : Op) : Protocol interface (Option Nat) where
  allowed := op.MayIssue env
  possible := fun _ _ => True
  next := nextProfile

/-!
# Plain commands

The other operations have nothing to do with profiles, and neither has what a request does
before and after it gets one.
-/

def Command.Plain : Command -> Prop
  | .select (.indexProfile _) | .insert (.profile _) | .insert (.document _) => False
  | .assign _ f => forall d, (f d).indexProfileId = d.indexProfileId
  | _ => True

theorem mayIssue_of_plain {env : Env} {op : Op} {got : Option Nat} {c : Command} (h : c.Plain) :
    op.MayIssue env got c := by
  cases c with
  | select q =>
      cases q with
      | indexProfile hash => cases h
      | documentIdsByStatus | outboxEvent => trivial
  | insert row =>
      cases row with
      | profile row | document row => cases h
      | knowledgeBase | event => trivial
  | assign id f => exact fun d => .inl (h d)
  | _ => trivial

abbrev Plainly {α : Type} (p : Action α) : Prop :=
  Only Command.Plain p

theorem plain_atFlush : AtFlush Command.Plain :=
  ⟨trivial, fun _ => trivial, trivial, fun _ => trivial⟩

theorem plain_issue {c : Command} (hc : c.Plain) : Plainly (Program.issue (I := interface) c) :=
  only_issue hc

theorem plain_transaction {α : Type} (note : α -> Note) {body : Action α} (hbody : Plainly body) :
    Plainly (Action.transaction note body) :=
  only_transaction plain_atFlush trivial (fun _ => trivial) trivial note hbody

theorem plain_enqueue (event : OutboxEvent) : Plainly (enqueue event) :=
  only_enqueue plain_atFlush (fun _ _ _ => trivial) (fun _ => trivial) event

theorem plain_ofExcept {α : Type} (r : Except Exception α) : Plainly (Action.ofExcept r) := by
  cases r with
  | ok a => trivial
  | error e => trivial

theorem plain_getKnowledgeBase (pk userId : Nat) (isAdmin write : Bool) :
    Plainly (KnowledgeBaseService.get pk userId isAdmin write) := by
  apply Program.issues_bind (plain_issue (c := .loadKnowledgeBase pk userId isAdmin write) trivial)
  intro data _
  cases data with
  | some kb => trivial
  | none => trivial

theorem plain_getDocument (knowledgeBaseId pk userId : Nat) (isAdmin write : Bool) :
    Plainly (DocumentService.get knowledgeBaseId pk userId isAdmin write) := by
  apply Program.issues_bind (plain_getKnowledgeBase knowledgeBaseId userId isAdmin write)
  intro _ _
  apply Program.issues_bind (plain_issue (c := .load (.inKb pk knowledgeBaseId)) trivial)
  intro data _
  cases data with
  | cons document _ => trivial
  | nil => trivial

theorem plain_getLiveForUpdate (pk : Nat) : Plainly (DocumentService.getLiveForUpdate pk) := by
  apply Program.issues_bind (plain_issue (c := .lock (.live pk)) trivial)
  intro documents _
  trivial

theorem plain_assign {id : Nat} {f : Document -> Document}
    (hf : forall d, (f d).indexProfileId = d.indexProfileId) : Plainly (Action.assign id f) :=
  plain_issue (c := .assign id f) hf

theorem plain_deleteKnowledgeBase (pk userId : Nat) (isAdmin : Bool) :
    Plainly (KnowledgeBaseService.delete pk userId isAdmin) := by
  apply Program.issues_bind (plain_getKnowledgeBase pk userId isAdmin true)
  intro data _
  apply Program.issues_bind (plain_issue (c := .assignKnowledgeBase _ _) trivial)
  intro _ _
  apply Program.issues_bind (plain_issue (c := .load (.ofKb data.id)) trivial)
  intro documents _
  apply Program.issues_bind
  · apply Program.issues_forEach
    intro document
    refine Program.issues_bind (plain_assign fun d => ?_) ?_
    · rfl
    · intro _ _
      apply Program.issues_bind (plain_enqueue _)
      intro _ _
      trivial
  · intro _ _
    trivial

theorem plain_embedBatch {embed : List Text -> Action (List Embedding)}
    (hembed : forall batch, Plainly (embed batch)) (n : Nat) (batch : List Text) :
    Plainly (embedBatch embed n batch) := by
  induction n generalizing batch with
  | zero =>
      unfold embedBatch
      apply Program.issues_handle (hembed batch)
      intro exc
      split <;> trivial
  | succ n ih =>
      unfold embedBatch
      apply Program.issues_handle (hembed batch)
      intro exc
      split
      · trivial
      · apply Program.issues_bind (ih _)
        intro left _
        apply Program.issues_bind (ih _)
        intro right _
        trivial

theorem plain_embedTextsInBatches {embed : List Text -> Action (List Embedding)}
    (hembed : forall batch, Plainly (embed batch)) (texts : List Text) (batchSize : Nat) :
    Plainly (embedTextsInBatches embed texts batchSize) := by
  unfold embedTextsInBatches
  split
  · trivial
  · apply Program.issues_bind
    · exact Program.issues_mapEach (fun batch => plain_embedBatch hembed _ batch) _
    · intro vectors _
      trivial

theorem plain_indexContent (env : Env) (cfg : Settings) (document : Document) (content : Bytes) :
    Plainly (DocumentService.indexContent env cfg document content) := by
  refine Program.issues_bind (plain_assign fun d => ?_) ?_
  · rfl
  · intro _ _
    apply Program.issues_bind (plain_ofExcept _)
    intro text _
    show Plainly (ite _ _ _)
    split
    · trivial
    · apply Program.issues_bind
      · exact plain_embedTextsInBatches (fun batch => plain_issue (c := .embed _ batch) trivial) _ _
      · intro vectors _
        apply Program.issues_bind (plain_issue (c := .deleteChunks document.id) trivial)
        intro _ _
        apply Program.issues_bind (only_flush plain_atFlush)
        intro _ _
        apply Program.issues_bind (plain_issue (c := .insertChunks document.id _) trivial)
        intro parentIds _
        show Plainly (ite _ _ _)
        split
        · trivial
        · apply Program.issues_bind (plain_issue (c := .insertChunks document.id _) trivial)
          intro _ _
          exact plain_assign fun _ => rfl

theorem plain_claimIndex (documentId : Nat) (indexVersion : Option Nat) :
    Plainly (DocumentService.claimIndex documentId indexVersion) := by
  apply Program.issues_bind (plain_getLiveForUpdate documentId)
  intro found _
  cases found with
  | none => trivial
  | some document =>
      show Plainly (ite _ _ _)
      split
      · trivial
      · split
        · trivial
        · trivial
        · trivial
        · trivial
        · refine Program.issues_bind (plain_assign fun d => ?_) ?_
          · rfl
          · intro _ _
            trivial

theorem plain_indexClaimedDocument (env : Env) (cfg : Settings) (documentId indexVersion : Nat) :
    Plainly (DocumentService.indexClaimedDocument env cfg documentId indexVersion) := by
  apply Program.issues_bind (plain_getLiveForUpdate documentId)
  intro found _
  cases found with
  | none => trivial
  | some document =>
      show Plainly (ite _ _ _)
      split
      · trivial
      · show Plainly (ite _ _ _)
        split
        · trivial
        · apply Program.issues_bind (plain_issue (c := .getObject document.storageKey) trivial)
          intro content _
          apply Program.issues_bind (plain_indexContent env cfg document content)
          intro _ _
          trivial

theorem plain_markIndexFailure (documentId indexVersion : Nat) (status : DocumentStatus)
    (errorMessage : Text) :
    Plainly (DocumentService.markIndexFailure documentId indexVersion status errorMessage) := by
  show Plainly (ite _ _ _)
  split
  · trivial
  · apply Program.issues_bind (plain_getLiveForUpdate documentId)
    intro found _
    cases found with
    | none => trivial
    | some document =>
        show Plainly (ite _ _ _)
        split
        · trivial
        · show Plainly (ite _ _ _)
          split
          · trivial
          · refine Program.issues_bind (plain_assign fun d => ?_) ?_
            · rfl
            · intro _ _
              trivial

theorem plain_indexDocument (env : Env) (cfg : Settings) (documentId : Nat)
    (indexVersion : Option Nat) (retries : Nat) :
    Plainly (Tasks.indexDocument env cfg documentId indexVersion retries) := by
  apply Program.issues_bind (plain_transaction _ (plain_claimIndex documentId indexVersion))
  intro claim _
  rcases claim with ⟨claimResult, effectiveVersion⟩
  cases claimResult with
  | claimed =>
      cases effectiveVersion with
      | none => trivial
      | some version =>
          apply Program.issues_bind (Program.issues_outcome
            (plain_transaction _ (plain_indexClaimedDocument env cfg documentId version)))
          intro result _
          cases result with
          | ok _ => trivial
          | error exc =>
              apply Program.issues_bind
                (plain_transaction _ (plain_markIndexFailure documentId version _ _))
              intro _ _
              show Plainly (ite _ _ _)
              split
              · exact plain_issue (c := .send _) trivial
              · split <;> trivial
  | documentNotFound | staleIndexRequest | alreadyReady | alreadyProcessing | deleteRequested
  | indexFailed => trivial

theorem plain_deleteDocument (documentId : Nat) : Plainly (Tasks.deleteDocument documentId) := by
  apply Program.issues_bind
  · apply plain_transaction
    apply Program.issues_bind (plain_getLiveForUpdate documentId)
    intro found _
    cases found with
    | none => trivial
    | some document =>
        show Plainly (ite _ _ _)
        split
        · trivial
        · apply Program.issues_bind (plain_issue (c := .deleteObject document.storageKey) trivial)
          intro _ _
          apply Program.issues_bind (plain_issue (c := .deleteChunks document.id) trivial)
          intro _ _
          apply Program.issues_bind (plain_issue (c := .remove document.id) trivial)
          intro _ _
          trivial
  · intro _ _
    trivial

theorem plain_dispatchOutbox (cfg : Settings) (limit : Nat) :
    Plainly (Tasks.dispatchOutbox cfg limit) := by
  apply Program.issues_bind (plain_issue (c := .lockEvents limit) trivial)
  intro events _
  apply Program.issues_bind
  · apply Program.issues_mapEach
    intro event
    apply Program.issues_handle
    · apply Program.issues_bind (plain_ofExcept _)
      intro message _
      apply Program.issues_bind (plain_issue (c := .send message) trivial)
      intro _ _
      apply Program.issues_bind (plain_issue (c := .now) trivial)
      intro _ _
      trivial
    · intro exc
      trivial
  · intro attempted _
    apply Program.issues_bind
    · exact Program.issues_forEach (fun event => plain_issue (c := .updateEvent event) trivial) _
    · intro _ _
      trivial

theorem plain_recoverStaleIndexes (staleBefore limit : Nat) :
    Plainly (DocumentService.recoverStaleIndexes staleBefore limit) := by
  apply Program.issues_bind (plain_issue (c := .lock (.stale staleBefore limit)) trivial)
  intro documents _
  apply Program.issues_bind (plain_issue (c := .now) trivial)
  intro recoveredTime _
  apply Program.issues_bind
  · apply Program.issues_forEach
    intro document
    exact plain_assign fun _ => rfl
  · intro _ _
    trivial

theorem plain_repairStuckDocument (cfg : Settings) :
    Plainly (Tasks.repairStuckDocument cfg) := by
  apply Program.issues_bind (plain_issue (c := .now) trivial)
  intro time _
  apply Program.issues_bind
  · apply plain_transaction
    apply Program.issues_bind (plain_recoverStaleIndexes _ 100)
    intro recovered _
    apply Program.issues_bind (plain_issue (c := .select (.documentIdsByStatus .deleting)) trivial)
    intro _ _
    trivial
  · intro found _
    apply Program.issues_bind
    · exact Program.issues_forEach (fun _ => plain_issue (c := .send _) trivial) _
    · intro _ _
      exact Program.issues_forEach (fun _ => plain_issue (c := .send _) trivial) _

theorem plain_body {env : Env} {op : Op} (hop : op.attaches = none) : Plainly (op.body env) := by
  have hrequest : forall {α : Type} {p : Action α}, Plainly p ->
      Plainly (p >>= fun _ => pure ()) := by
    intro α p hp
    apply Program.issues_bind hp
    intro _ _
    trivial
  cases op with
  | createKnowledgeBase userId name description isPublic =>
      exact hrequest (plain_transaction _ (only_add plain_atFlush trivial))
  | updateKnowledgeBase pk userId isAdmin obj =>
      apply hrequest
      apply plain_transaction
      apply Program.issues_bind (plain_getKnowledgeBase pk userId isAdmin true)
      intro data _
      apply Program.issues_bind (plain_issue (c := .assignKnowledgeBase data.id _) trivial)
      intro _ _
      trivial
  | deleteKnowledgeBase pk userId isAdmin =>
      exact hrequest (plain_transaction _ (plain_deleteKnowledgeBase pk userId isAdmin))
  | createDocument => cases hop
  | retryDocument => cases hop
  | requestDelete knowledgeBaseId pk userId isAdmin =>
      apply hrequest
      apply plain_transaction
      apply Program.issues_bind (plain_getDocument knowledgeBaseId pk userId isAdmin true)
      intro data _
      refine Program.issues_bind (plain_assign fun d => ?_) ?_
      · rfl
      · intro _ _
        apply Program.issues_bind (plain_enqueue _)
        intro event _
        trivial
  | indexDocument cfg documentId indexVersion retries =>
      exact plain_indexDocument env cfg documentId indexVersion retries
  | deleteDocument documentId => exact plain_deleteDocument documentId
  | dispatchOutbox cfg limit =>
      exact hrequest (plain_transaction _ (plain_dispatchOutbox cfg limit))
  | repairStuckDocument cfg => exact plain_repairStuckDocument cfg

/-!
# Requests follow the protocol

A flush keeps the id that the request has got, which is then the one in its row.
-/

section

variable {env : Env} {op : Op} {got : Option Nat} {α : Type}

theorem plain_follows {p : Action α} (hp : Plainly p) (got : Option Nat) :
    (attachProtocol env op).Follows (fun _ _ => True) got p :=
  Protocol.follows_of_issues hp (fun _ _ hc => mayIssue_of_plain hc) got

/-- A plain command that keeps the id. -/
def Command.Keeps (c : Command) : Prop :=
  c.Plain ∧ forall got r, nextProfile got c r = got

theorem keeps_atFlush : AtFlush Command.Keeps where
  dirty := ⟨trivial, fun _ _ => rfl⟩
  update := fun _ => ⟨trivial, fun _ _ => rfl⟩
  dirtyKnowledgeBases := ⟨trivial, fun _ _ => rfl⟩
  updateKnowledgeBase := fun _ => ⟨trivial, fun _ _ => rfl⟩

theorem flush_follows (got : Option Nat) :
    (attachProtocol env op).Follows (fun got' _ => got' = got) got Action.flush :=
  Protocol.follows_kept_of_issues (only_flush keeps_atFlush)
    (fun _ hc => mayIssue_of_plain hc.1) fun _ r hc => hc.2 got r

theorem getOrCreateIndexProfile_follows {cfg : Settings} (hop : op.attaches = some cfg) :
    (attachProtocol env op).Follows (fun got' o => forall id, o = .ok id -> got' = some id) got
      (getOrCreateIndexProfile env cfg) := by
  apply Protocol.follows_issue_bind
  · exact ⟨cfg, hop, rfl⟩
  · intro found _
    cases found with
    | some profile =>
        intro id hid
        cases hid
        rfl
    | none =>
        apply Protocol.follows_bind (flush_follows _)
        · intro got' _ _
          refine ⟨⟨cfg, hop, rfl, rfl⟩, fun r _ => ?_⟩
          cases r with
          | ok id =>
              intro id' hid
              cases hid
              rfl
          | error e => exact nofun
        · intro _ _ _
          exact nofun
  · intro _ _
    exact nofun

theorem transaction_follows (note : α -> Note) {body : Action α}
    (hbody : forall got, (attachProtocol env op).Follows (fun _ _ => True) got body) :
    (attachProtocol env op).Follows (fun _ _ => True) got (Action.transaction note body) := by
  apply Protocol.follows_issue_bind
  · trivial
  · intro _ _
    apply Protocol.follows_bind (Q := fun _ _ => True)
    · apply Protocol.follows_outcome
      apply Protocol.follows_bind (hbody _)
      · intro got a _
        apply plain_follows
        apply Program.issues_bind (only_flush plain_atFlush)
        intro _ _
        apply Program.issues_bind (plain_issue (c := .commit (note a)) trivial)
        intro _ _
        exact trivial
      · intro _ _ _
        trivial
    · intro got result _
      apply plain_follows
      cases result with
      | ok a => exact trivial
      | error e =>
          apply Program.issues_bind (plain_issue (c := .rollback) trivial)
          intro _ _
          exact trivial
    · intro _ _ _
      trivial
  · intro _ _
    trivial

theorem create_follows {cfg : Settings} (hop : op.attaches = some cfg)
    (knowledgeBaseId userId : Nat) (isAdmin : Bool) (filename : Text) (content : Bytes)
    (mimeType : Option Text) (got : Option Nat) :
    (attachProtocol env op).Follows (fun _ _ => True) got
      (DocumentService.create env cfg knowledgeBaseId userId isAdmin filename content
        mimeType) := by
  have hraise : forall {got : Option Nat} {e : Exception} {f : PUnit -> Action (Nat × Nat)},
      (attachProtocol env op).Follows (fun _ _ => True) got (Action.raise e >>= f) :=
    trivial
  apply Protocol.follows_bind
    (plain_follows (plain_getKnowledgeBase knowledgeBaseId userId isAdmin true) got)
  · intro got kb _
    dsimp only
    split
    · exact hraise
    · split
      · exact hraise
      · apply Protocol.follows_bind
          (plain_follows (plain_issue (c := .putObject _ content) trivial) got)
        · intro got _ _
          apply Protocol.follows_bind (getOrCreateIndexProfile_follows hop)
          · intro got profileId hgot
            rw [hgot profileId rfl]
            apply Protocol.follows_bind (Q := fun _ _ => True)
            · apply Protocol.follows_bind (flush_follows _)
              · intro got _ hkept
                rw [hkept]
                refine ⟨⟨profileId, rfl, rfl⟩, fun r _ => ?_⟩
                cases r with
                | ok id => trivial
                | error e => trivial
              · intro _ _ _
                trivial
            · intro got id _
              apply plain_follows
              apply Program.issues_bind (plain_enqueue _)
              intro event _
              trivial
            · intro _ _ _
              trivial
          · intro _ _ _
            trivial
        · intro _ _ _
          trivial
  · intro _ _ _
    trivial

theorem retry_follows {cfg : Settings} (hop : op.attaches = some cfg)
    (knowledgeBaseId pk userId : Nat) (isAdmin : Bool) (got : Option Nat) :
    (attachProtocol env op).Follows (fun _ _ => True) got
      (DocumentService.retry env cfg knowledgeBaseId pk userId isAdmin) := by
  apply Protocol.follows_bind
    (plain_follows (plain_getDocument knowledgeBaseId pk userId isAdmin true) got)
  · intro got data _
    apply Protocol.follows_bind (plain_follows (plain_assign fun d => ?_) got)
    · intro got _ _
      apply Protocol.follows_bind (getOrCreateIndexProfile_follows hop)
      · intro got profileId hgot
        rw [hgot profileId rfl]
        apply Protocol.follows_issue_bind
        · exact fun d => .inr ⟨profileId, rfl, rfl⟩
        · intro _ _
          apply plain_follows
          apply Program.issues_bind (plain_enqueue _)
          intro event _
          trivial
        · intro _ _
          trivial
      · intro _ _ _
        trivial
    · intro _ _ _
      trivial
    · rfl
  · intro _ _ _
    trivial

theorem body_follows (env : Env) (op : Op) (got : Option Nat) :
    (attachProtocol env op).Follows (fun _ _ => True) got (op.body env) := by
  have hrequest : forall {β : Type} {p : Action β},
      (attachProtocol env op).Follows (fun _ _ => True) got p ->
        (attachProtocol env op).Follows (fun _ _ => True) got (p >>= fun _ => pure ()) := by
    intro β p hp
    apply Protocol.follows_bind hp
    · intro _ _ _
      trivial
    · intro _ _ _
      trivial
  cases hop : op.attaches with
  | none => exact plain_follows (plain_body hop) got
  | some cfg =>
      cases op with
      | createDocument cfg' knowledgeBaseId userId isAdmin filename content mimeType =>
          cases hop
          exact hrequest (transaction_follows _
            (create_follows rfl knowledgeBaseId userId isAdmin filename content mimeType))
      | retryDocument cfg' knowledgeBaseId pk userId isAdmin =>
          cases hop
          exact hrequest
            (transaction_follows _ (retry_follows rfl knowledgeBaseId pk userId isAdmin))
      | createKnowledgeBase | updateKnowledgeBase | deleteKnowledgeBase | requestDelete
      | indexDocument | deleteDocument | dispatchOutbox | repairStuckDocument => cases hop

end

end RagService
