import RagService.Properties.Deletion
import RagService.Properties.Recovery

/-!
# Removals

A delete task that runs alone on a document that is being deleted takes away the row, the
chunks and the object together, or nothing of them.
-/

namespace RagService

open Interleaving RagService.Action DocumentService

/-- The row, the chunks and the object of a document are gone, and nothing else changes. -/
structure State.Removes (s : State) (d : Document) (y : State) : Prop where
  idle : y.Idle
  documents : y.db.documents = Function.update s.db.documents d.id none
  chunks : y.db.chunks = Function.update s.db.chunks d.id []
  knowledgeBases : y.db.knowledgeBases = s.db.knowledgeBases
  profiles : y.db.profiles = s.db.profiles
  events : y.db.events = s.db.events
  storage : y.storage = Function.update s.storage d.storageKey none
  broker : y.broker = s.broker

section

variable {t : Nat} {s x y : State} {E : Command -> Choice -> Prop} {d : Document}

def Session.removing (d : Document) : Session :=
  { writes :=
      { documents := Function.update (fun _ => none) d.id (some none)
        chunks := Function.update (fun _ => none) d.id (some []) } }

theorem Session.removing_flushable (db : Db) : (Session.removing d).Flushable db where
  rows := by
    intro i e he
    cases he
  bases := by
    intro i e he
    cases he

theorem Session.removing_committed {n : Nat} {clock : Nat -> Nat}
    (hy : State.Leaves { s with storage := Function.update s.storage d.storageKey none }
      (s.db.install ((Session.removing d).flush s.db
        (dirtyIds (Session.removing d).documents n) clock).writes) y) : s.Removes d y := by
  have hnone : dirtyIds (Session.removing d).documents n = [] := by
    rw [List.eq_nil_iff_forall_not_mem]
    intro i hi
    rcases (mem_dirtyIds.mp hi).2 with ⟨e, he, -⟩
    cases he
  rw [hnone, Session.flush_nil] at hy
  constructor
  · exact hy.idle
  · rw [hy.db]
    funext i
    by_cases hi : i = d.id
    · subst i
      simp [Db.install, Session.removing]
    · simp [Db.install, Session.removing, hi]
  · rw [hy.db]
    funext i
    by_cases hi : i = d.id
    · subst i
      simp [Db.install, Session.removing]
    · simp [Db.install, Session.removing, hi]
  · rw [hy.db]
    rfl
  · rw [hy.db]
    rfl
  · rw [hy.db]
    rfl
  · exact hy.storage
  · exact hy.broker

/-- The delete task goes through, or the storage refuses and nothing has changed. -/
theorem finishes_deleteDocument (hE : Reliable E) (hs : s.Idle)
    (hd : s.db.documents d.id = some d) (hlive : d.deleted = 0)
    (hdeleting : d.status = .deleting) :
    Finishes machine t E (Tasks.deleteDocument d.id)
      (fun out y => (out = .ok () ∧ s.Removes d y) ∨
        exists e, E (.deleteObject d.storageKey) (.fail e) ∧ out = .error e ∧
          s.Leaves s.db y) s := by
  have htransaction : Finishes machine t E
      (Action.transaction (Tasks.deletionNote d.id) (Tasks.removeDocument d.id))
      (fun out y => (exists r, out = .ok r ∧ s.Removes d y) ∨
        exists e, E (.deleteObject d.storageKey) (.fail e) ∧ out = .error e ∧
          s.Leaves s.db y) s := by
    apply finishes_transaction hE hs
    intro x hx
    refine (finishes_getLiveForUpdate hE hx hd hlive).bind ?_ ?_
    · intro e y h
      cases h.1
    intro found y h
    cases h.1
    dsimp only
    rw [if_neg (not_not_intro hdeleting)]
    refine (finishes_deleteObject hE d.storageKey).bind ?_ ?_
    · intro e z hz
      rcases hz with ⟨hok, -⟩ | ⟨e', hfail, he, rfl⟩
      · cases hok
      · cases he
        exact ⟨s, _, h.2, fun y' hy' => .inr ⟨e, hfail, rfl, hy'⟩⟩
    intro _ z hz
    rcases hz with ⟨-, rfl⟩ | ⟨e', -, he, -⟩
    swap
    · cases he
    -- from here on the object is gone
    have hy : State.Inside t { s with storage := Function.update s.storage d.storageKey none }
        (Session.ofDocument d)
        { y with storage := Function.update y.storage d.storageKey none } :=
      ⟨h.2.db, congrArg (fun f => Function.update f d.storageKey none) h.2.storage, h.2.broker,
        h.2.nextId, h.2.session, h.2.others, h.2.locks⟩
    refine (finishes_deleteChunks hE hy d.id).bind ?_ ?_
    · intro e z hz
      cases hz.1
    intro _ z hz
    refine (finishes_remove hE hz.2 hd).bind ?_ ?_
    · intro e w hw
      cases hw.1
    intro _ w hw
    have hw' : State.Inside t
        { s with storage := Function.update s.storage d.storageKey none } (Session.removing d)
        w := by
      have hend := hw.2
      simp only [Session.ofDocument, Function.update_idem, Function.update_eq_self_iff.mpr rfl]
        at hend
      exact hend
    refine ⟨_, _, hw', Session.removing_flushable _, ?_⟩
    intro n clock y' _ hy'
    exact .inl ⟨true, rfl, Session.removing_committed hy'⟩
  refine htransaction.bind ?_ ?_
  · intro e y h
    rcases h with ⟨r, hr, -⟩ | ⟨e', hfail, he, hback⟩
    · cases hr
    · cases he
      exact .inr ⟨e, hfail, rfl, hback⟩
  · intro r y h
    rcases h with ⟨r', -, hremoved⟩ | ⟨e, -, he, -⟩
    · exact .inl ⟨rfl, hremoved⟩
    · cases he

end

/--
A document that is being deleted is found by the repair task, and the message that it sends
takes the document away, unless the storage refuses.
-/
theorem deleting_document_goes {env : Env} {cfg : Settings} {E E' : Command -> Choice -> Prop}
    (hE : Healthy E) (hE' : Reliable E') {last : RagConfig}
    (hrun : System.Reaches (system env) (system env).anyRun initial last)
    (hquiet : last.shared.Quiet) {i : Nat} {d : Document}
    (hd : last.shared.db.documents i = some d) (hdeleting : d.status = .deleting) (t u : Nat) :
    Finishes machine t E (Tasks.repairStuckDocument cfg)
      (fun out y => out = .ok () ∧ y.Idle ∧ exists sent, y.broker = last.shared.broker ++ sent ∧
        .deleteDocument (.int i) ∈ sent ∧
        Finishes machine u E' (Tasks.deleteDocument i)
          (fun out z => (out = .ok () ∧ y.Removes d z) ∨
            exists e, E' (.deleteObject d.storageKey) (.fail e) ∧ out = .error e ∧
              y.Leaves y.db z) y)
      last.shared := by
  rcases document_of_reaches hrun hd with ⟨rfl, hbound, hlive⟩
  have hkeyed := keyed_of_reaches hrun
  refine (finishes_repair hE (idle_of_quiet hrun hquiet) hkeyed).mono fun out y h => ?_
  rcases h with ⟨hok, time, vectors, -, hrecovers, hbroker⟩
  refine ⟨hok, hrecovers.idle, _, hbroker, ?_, ?_⟩
  · apply List.mem_append_right
    refine List.mem_map.mpr ⟨d.id, ?_, rfl⟩
    refine List.mem_map.mpr ⟨d, ?_, rfl⟩
    rw [List.mem_filter]
    exact ⟨mem_scan.mpr ⟨d.id, hbound, hd⟩, decide_eq_true ⟨hdeleting, hlive⟩⟩
  · have hrow : y.db.documents d.id = some d := by
      rw [hrecovers.others, hd]
      intro d' hd' hid
      rcases mem_stale hd' with ⟨j, hj⟩
      have hj' := hkeyed.id j d' hj
      rw [← hj', hid, hd] at hj
      cases hj
      have hstatus := (stale_filter hd').1
      rw [hdeleting] at hstatus
      cases hstatus with
      | inl h => cases h
      | inr h => cases h
    exact finishes_deleteDocument hE' hrecovers.idle hrow hlive hdeleting

/-!
# Sample runs
-/

/-- The object of the document cannot be unlinked, or everything goes through. -/
theorem deleting_document_goes_requested : exists (last : RagConfig) (d : Document),
    last.shared.db.documents 3 = some d ∧ d.status = .deleting ∧
      Finishes machine 3 Sample.atWork (Tasks.repairStuckDocument Sample.settings)
        (fun out y => out = .ok () ∧ y.Idle ∧
          exists sent, y.broker = last.shared.broker ++ sent ∧ .deleteDocument (.int 3) ∈ sent ∧
            Finishes machine 4 Sample.anyAnswer (Tasks.deleteDocument 3)
              (fun out z => (out = .ok () ∧ y.Removes d z) ∨
                exists e, Sample.anyAnswer (.deleteObject d.storageKey) (.fail e) ∧
                  out = .error e ∧ y.Leaves y.db z) y)
        last.shared := by
  rcases exists_quiet Sample.env (Sample.upload ++ Sample.requestDelete 2 12) 3
    (fun last : RagConfig => (last.shared.db.documents 3).any (fun d => d.status = .deleting) =
      true) (by decide) (by decide +kernel) with ⟨last, hrun, hquiet, hrow⟩
  rcases (Option.any_eq_true ..).mp hrow with ⟨d, hd, hstatus⟩
  exact ⟨last, d, hd, of_decide_eq_true hstatus, deleting_document_goes Sample.atWork_healthy
    Sample.anyAnswer_reliable hrun hquiet hd (of_decide_eq_true hstatus) 3 4⟩

end RagService
