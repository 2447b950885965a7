import RagService.Foundation.Calls
import RagService.Service.Tasks

/-!
# What the services issue

The commands of the parts that the services share.  A program issues only commands with a
property when each of its parts does, whatever its commands are answered.
-/

namespace RagService

open Interleaving IndexProfileService OutboxService

variable {α : Type} {P : Command -> Prop}

abbrev Only (P : Command -> Prop) (p : Action α) : Prop :=
  p.Issues P fun _ => True

theorem only_issue {c : Command} (hc : P c) : Only P (Program.issue (I := interface) c) :=
  Program.issues_issue (I := interface) c hc

/-- The commands of a flush have the property. -/
structure AtFlush (P : Command -> Prop) : Prop where
  dirty : P .dirty
  update : forall id, P (.update id)
  dirtyKnowledgeBases : P .dirtyKnowledgeBases
  updateKnowledgeBase : forall id, P (.updateKnowledgeBase id)

theorem only_flush (h : AtFlush P) : Only P Action.flush := by
  apply Program.issues_bind (only_issue h.dirty)
  intro documents _
  apply Program.issues_bind
    (Program.issues_forEach (fun id => only_issue (h.update id)) documents)
  intro _ _
  apply Program.issues_bind (only_issue h.dirtyKnowledgeBases)
  intro knowledgeBases _
  exact Program.issues_forEach
    (fun id => only_issue (h.updateKnowledgeBase id)) knowledgeBases

theorem only_add (h : AtFlush P) {row : NewRow} (hrow : P (.insert row)) :
    Only P (Action.add row) :=
  Program.issues_bind (only_flush h) fun _ _ => only_issue hrow

theorem only_getOrCreateIndexProfile (h : AtFlush P) (hselect : forall q, P (.select q))
    (hinsert : forall row, P (.insert (.profile row))) (env : Env) (cfg : Settings) :
    Only P (getOrCreateIndexProfile env cfg) := by
  apply Program.issues_bind (only_issue (hselect _))
  intro profile _
  cases profile with
  | some profile => trivial
  | none => exact only_add h (hinsert _)

theorem only_enqueue (h : AtFlush P)
    (hselect : forall eventType aggregateId dedupeKey,
      P (.select (.outboxEvent eventType aggregateId dedupeKey)))
    (hinsert : forall row, P (.insert (.event row))) (event : OutboxEvent) :
    Only P (enqueue event) := by
  apply Program.issues_bind (only_issue (hselect _ _ _))
  intro found _
  cases found with
  | some event => trivial
  | none => exact only_add h (hinsert _)

theorem only_transaction (h : AtFlush P) (hbegin : P .begin)
    (hcommit : forall note, P (.commit note)) (hrollback : P .rollback) (note : α -> Note)
    {body : Action α} (hbody : Only P body) : Only P (Action.transaction note body) := by
  apply Program.issues_bind (only_issue hbegin)
  intro _ _
  apply Program.issues_bind
  · apply Program.issues_outcome
    apply Program.issues_bind hbody
    intro a _
    apply Program.issues_bind (only_flush h)
    intro _ _
    apply Program.issues_bind (only_issue (hcommit (note a)))
    intro _ _
    exact trivial
  · intro result _
    cases result with
    | ok a => trivial
    | error e =>
        apply Program.issues_bind (only_issue hrollback)
        intro _ _
        exact trivial

end RagService
