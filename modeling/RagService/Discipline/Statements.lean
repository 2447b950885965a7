import RagService.Discipline.Preservation

/-!
# What each command does

The execution of a command, read off once: which statement takes which locks, draws which
keys and leaves which session, and what the commands outside the database change.
-/

namespace RagService

open Interleaving

/-!
# Statements

A statement takes only locks that no other transaction holds, and only draws new keys.
-/

/--
What one statement does to the session of its transaction: the locks it takes, the next key
after it, and the session it leaves.
-/
inductive Session.Step (s : State) (t : Nat) (σ : Session) :
    Command -> List Resource -> Nat -> Session -> Prop where
  | loadKnowledgeBase (pk userId : Nat) (isAdmin write : Bool) :
      Session.Step s t σ (.loadKnowledgeBase pk userId isAdmin write) [] s.nextId
        { σ with
          knowledgeBases := loadEntries KnowledgeBase.id σ.knowledgeBases
            ((s.db.install σ.writes).getAuthorized pk userId isAdmin write).toList }
  | load (q : DocumentQuery) :
      Session.Step s t σ (.load q) [] s.nextId
        { σ with
          documents := loadEntries Document.id σ.documents
            (q.rows (s.db.install σ.writes) s.nextId)
          scanned := q.scans.or σ.scanned }
  | lock (q : LockQuery) (rows : List Document) (hrows : q.rows s t = some rows) :
      Session.Step s t σ (.lock q) (rows.map fun d => .document d.id) s.nextId
        { σ with documents := loadEntries Document.id σ.documents rows }
  | lockEvents (limit : Nat) :
      Session.Step s t σ (.lockEvents limit)
        ((s.pendingEvents t limit).map fun e => .event e.id) s.nextId σ
  | assign (id : Nat) (f : Document -> Document) (e : Entry Document)
      (he : σ.documents id = some e) :
      Session.Step s t σ (.assign id f) [] s.nextId
        { σ with
          documents := Function.update σ.documents id (some { e with current := f e.current }) }
  | assignKnowledgeBase (id : Nat) (f : KnowledgeBase -> KnowledgeBase)
      (e : Entry KnowledgeBase) (he : σ.knowledgeBases id = some e) :
      Session.Step s t σ (.assignKnowledgeBase id f) [] s.nextId
        { σ with
          knowledgeBases :=
            Function.update σ.knowledgeBases id (some { e with current := f e.current }) }
  | update (id now : Nat) (e : Entry Document) (base : Document)
      (he : σ.documents id = some e) (hbase : s.db.documents id = some base)
      (hlock : s.lockable t (.document id) = true) :
      Session.Step s t σ (.update id) [.document id] s.nextId
        { σ with
          documents := Function.update σ.documents id (some { e with flushed := e.current })
          writes :=
            { σ.writes with
              documents :=
                Function.update σ.writes.documents id
                  (some (some (Document.write e.loaded e.current base now))) } }
  | updateKnowledgeBase (id : Nat) (e : Entry KnowledgeBase) (base : KnowledgeBase)
      (locks : List Resource) (he : σ.knowledgeBases id = some e)
      (hbase : s.db.knowledgeBases id = some base)
      (hlocks : forall r, r ∈ locks -> s.lockable t r = true)
      (hrow : .knowledgeBase id ∈ locks) :
      Session.Step s t σ (.updateKnowledgeBase id) locks s.nextId
        { σ with
          knowledgeBases :=
            Function.update σ.knowledgeBases id (some { e with flushed := e.current })
          writes :=
            { σ.writes with
              knowledgeBases :=
                Function.update σ.writes.knowledgeBases id
                  (some (KnowledgeBase.write e.loaded e.current base)) } }
  | updateEvent (row : OutboxEvent) (hlock : s.lockable t (.event row.id) = true) :
      Session.Step s t σ (.updateEvent row) [.event row.id] s.nextId
        { σ with
          writes :=
            { σ.writes with events := Function.update σ.writes.events row.id (some row) } }
  | insert (row : NewRow) (now : Nat) (hkey : s.lockable t row.uniqueKey = true)
      (hlock : s.lockable t (row.resource s.nextId) = true)
      (hfree : (s.db.install σ.writes).hasKey s.nextId row.uniqueKey = false) :
      Session.Step s t σ (.insert row) [row.uniqueKey, row.resource s.nextId] (s.nextId + 1)
        { σ with writes := row.place s.nextId now σ.writes }
  | remove (id : Nat) (base : Document) (hbase : s.db.documents id = some base)
      (hlock : s.lockable t (.document id) = true)
      (hkey : s.lockable t (.storageKey base.storageKey) = true) :
      Session.Step s t σ (.remove id) [.document id, .storageKey base.storageKey] s.nextId
        { σ with
          documents := Function.update σ.documents id none
          writes :=
            { σ.writes with documents := Function.update σ.writes.documents id (some none) } }
  | deleteChunks (documentId : Nat) :
      Session.Step s t σ (.deleteChunks documentId) [] s.nextId
        { σ with
          writes :=
            { σ.writes with chunks := Function.update σ.writes.chunks documentId (some []) } }
  | insertChunks (documentId : Nat) (rows : List Chunk) :
      Session.Step s t σ (.insertChunks documentId rows) [] (s.nextId + rows.length)
        { σ with
          writes :=
            { σ.writes with
              chunks :=
                Function.update σ.writes.chunks documentId
                  (some ((s.db.install σ.writes).chunks documentId ++
                    numberChunks s.nextId rows)) } }

section

variable {s s' : State} {t : Nat} {σ σ' : Session} {c : Command}

theorem State.setSession_eq_work (s : State) (t : Nat) (σ : Session) :
    s.setSession t σ = s.work t [] s.nextId σ := by
  simp only [State.work, State.acquire_nil]
  rfl

theorem Session.Step.lockable {rs : List Resource} {n : Nat}
    (h : Session.Step s t σ c rs n σ') (hids : forall i d, s.db.documents i = some d -> d.id = i) :
    (forall r, r ∈ rs -> s.lockable t r = true) ∧ s.nextId ≤ n := by
  cases h with
  | loadKnowledgeBase | load | assign | assignKnowledgeBase | deleteChunks =>
      exact ⟨by simp, Nat.le_refl _⟩
  | insertChunks documentId rows => exact ⟨by simp, Nat.le_add_right _ _⟩
  | lock q rows hrows =>
      refine ⟨fun r hr => ?_, Nat.le_refl _⟩
      rcases List.mem_map.mp hr with ⟨d, hd, rfl⟩
      exact (LockQuery.rows_mem hrows hids hd).2
  | lockEvents limit =>
      refine ⟨fun r hr => ?_, Nat.le_refl _⟩
      rcases List.mem_map.mp hr with ⟨e, he, rfl⟩
      have hmem := List.mem_of_mem_take he
      rw [List.mem_filter] at hmem
      simpa using And.right (of_decide_eq_true hmem.2)
  | update id now e base he hbase hlock =>
      exact ⟨by simpa using hlock, Nat.le_refl _⟩
  | updateKnowledgeBase id e base locks he hbase hlocks hrow => exact ⟨hlocks, Nat.le_refl _⟩
  | updateEvent row hlock => exact ⟨by simpa using hlock, Nat.le_refl _⟩
  | insert row now hkey hlock hfree => exact ⟨by simpa using ⟨hkey, hlock⟩, Nat.le_succ _⟩
  | remove id base hbase hlock hkey => exact ⟨by simpa using ⟨hlock, hkey⟩, Nat.le_refl _⟩

/-!
# Commands

What one command of a thread does to the state, whether it goes through or raises.
-/

inductive State.Step (s : State) (t : Nat) : Command -> State -> Prop where
  | nothing {c : Command} : State.Step s t c s
  | begin (hnone : s.sessions t = none) : State.Step s t .begin (s.work t [] s.nextId {})
  | commit (note : Note) (σ : Session) (hσ : s.sessions t = some σ) :
      State.Step s t (.commit note) (s.commit t note σ)
  | rollback : State.Step s t .rollback (s.close t)
  | statement {c : Command} (σ : Session) (rs : List Resource) (n : Nat) (σ' : Session)
      (hσ : s.sessions t = some σ) (hstep : Session.Step s t σ c rs n σ') :
      State.Step s t c (s.work t rs n σ')
  | putObject (key : Text) (content : Bytes) :
      State.Step s t (.putObject key content)
        { s with storage := Function.update s.storage key (some content) }
  | deleteObject (key : Text) :
      State.Step s t (.deleteObject key)
        { s with storage := Function.update s.storage key none }
  | send (m : Message) : State.Step s t (.send m) { s with broker := s.broker ++ [m] }

theorem perform_step (hσ : s.sessions t = some σ) {now : Nat} {r : Except Exception c.Result}
    (h : s.perform t σ now c = some (s', r)) : State.Step s t c s' := by
  -- a statement that takes no lock and draws no key
  have hsession : forall {σ'}, Session.Step s t σ c [] s.nextId σ' ->
      State.Step s t c (s.setSession t σ') := by
    intro σ' hstep
    rw [State.setSession_eq_work]
    exact .statement σ _ _ _ hσ hstep
  cases c with
  | commit note =>
      simp only [State.perform, Option.some.injEq, Prod.mk.injEq] at h
      rw [← h.1]
      exact .commit note σ hσ
  | rollback =>
      simp only [State.perform, Option.some.injEq, Prod.mk.injEq] at h
      rw [← h.1]
      exact .rollback
  | select q | dirty | dirtyKnowledgeBases =>
      simp only [State.perform, Option.some.injEq, Prod.mk.injEq] at h
      rw [← h.1]
      exact .nothing
  | begin | putObject _ _ | getObject _ | deleteObject _ | send _ | embed _ _ | now =>
      simp [State.perform] at h
  | loadKnowledgeBase pk userId isAdmin write =>
      simp only [State.perform, Option.some.injEq, Prod.mk.injEq] at h
      rw [← h.1]
      exact hsession (.loadKnowledgeBase pk userId isAdmin write)
  | load q =>
      simp only [State.perform, Option.some.injEq, Prod.mk.injEq] at h
      rw [← h.1]
      exact hsession (.load q)
  | lock q =>
      simp only [State.perform] at h
      split at h
      · cases h
      · rename_i rows hrows
        simp only [Option.some.injEq, Prod.mk.injEq] at h
        rw [← h.1]
        exact .statement σ _ _ _ hσ (.lock q rows hrows)
  | lockEvents limit =>
      simp only [State.perform, Option.some.injEq, Prod.mk.injEq] at h
      have hwork : s.acquire t ((s.pendingEvents t limit).map fun e => .event e.id) =
          s.work t ((s.pendingEvents t limit).map fun e => .event e.id) s.nextId σ := by
        simp [State.work, State.setSession, State.acquire, ← hσ]
      rw [← h.1, hwork]
      exact .statement σ _ _ _ hσ (.lockEvents limit)
  | assign id f =>
      simp only [State.perform] at h
      split at h
      · cases h
      · rename_i e he
        simp only [Option.some.injEq, Prod.mk.injEq] at h
        rw [← h.1]
        exact hsession (.assign id f e he)
  | assignKnowledgeBase id f =>
      simp only [State.perform] at h
      split at h
      · cases h
      · rename_i e he
        simp only [Option.some.injEq, Prod.mk.injEq] at h
        rw [← h.1]
        exact hsession (.assignKnowledgeBase id f e he)
  | update id =>
      simp only [State.perform] at h
      split at h
      · cases h
      · rename_i e he
        split at h
        · simp only [Option.some.injEq, Prod.mk.injEq] at h
          rw [← h.1]
          exact .nothing
        · rename_i base hbase
          split at h
          · rename_i hlock
            simp only [Option.some.injEq, Prod.mk.injEq] at h
            rw [← h.1]
            exact .statement σ _ _ _ hσ (.update id now e base he hbase hlock)
          · cases h
  | updateKnowledgeBase id =>
      simp only [State.perform] at h
      split at h
      · cases h
      · rename_i e he
        split at h
        · simp only [Option.some.injEq, Prod.mk.injEq] at h
          rw [← h.1]
          exact .nothing
        · rename_i base hbase
          split at h
          · rename_i hlock
            split at h
            · simp only [Option.some.injEq, Prod.mk.injEq] at h
              rw [← h.1]
              exact .nothing
            · simp only [Option.some.injEq, Prod.mk.injEq] at h
              rw [← h.1]
              refine .statement σ _ _ _ hσ
                (.updateKnowledgeBase id e base _ he hbase (fun r hr => ?_) ?_)
              · split at hr
                · rename_i hmoved
                  simp only [List.mem_cons, List.not_mem_nil, or_false] at hr
                  rcases hr with rfl | rfl
                  · exact hlock.1
                  · exact hlock.2 hmoved
                · rw [List.mem_singleton] at hr
                  rw [hr]
                  exact hlock.1
              · split <;> simp
          · cases h
  | updateEvent row =>
      simp only [State.perform] at h
      split at h
      · rename_i hlock
        simp only [Option.some.injEq, Prod.mk.injEq] at h
        rw [← h.1]
        exact .statement σ _ _ _ hσ (.updateEvent row hlock)
      · cases h
  | insert row =>
      simp only [State.perform] at h
      split at h
      · rename_i hlock
        split at h
        · simp only [Option.some.injEq, Prod.mk.injEq] at h
          rw [← h.1]
          exact .nothing
        · rename_i hfree
          simp only [Option.some.injEq, Prod.mk.injEq] at h
          rw [← h.1]
          exact .statement σ _ _ _ hσ
            (.insert row now hlock.1 hlock.2 (by simpa using hfree))
      · cases h
  | remove id =>
      simp only [State.perform] at h
      split at h
      · simp only [Option.some.injEq, Prod.mk.injEq] at h
        rw [← h.1]
        exact .nothing
      · rename_i base hbase
        split at h
        · rename_i hlock
          simp only [Option.some.injEq, Prod.mk.injEq] at h
          rw [← h.1]
          exact .statement σ _ _ _ hσ (.remove id base hbase hlock.1 hlock.2)
        · cases h
  | deleteChunks documentId =>
      simp only [State.perform, Option.some.injEq, Prod.mk.injEq] at h
      rw [← h.1]
      exact hsession (.deleteChunks documentId)
  | insertChunks documentId rows =>
      simp only [State.perform] at h
      split at h
      · simp only [Option.some.injEq, Prod.mk.injEq] at h
        have hwork : forall τ, { s.setSession t τ with nextId := s.nextId + rows.length } =
            s.work t [] (s.nextId + rows.length) τ := by
          intro τ
          simp [State.work, State.acquire_nil]
        rw [← h.1, hwork]
        exact .statement σ _ _ _ hσ (.insertChunks documentId rows)
      · simp only [Option.some.injEq, Prod.mk.injEq] at h
        rw [← h.1]
        exact .nothing

/-- What a command that goes through or raises does to the state. -/
theorem exec_step {ch : Choice} {r : Except Exception c.Result}
    (h : exec t c ch s = some (s', r)) : State.Step s t c s' := by
  cases ch with
  | fail e =>
      simp only [exec] at h
      split at h
      · cases h
      · simp only [Option.some.injEq, Prod.mk.injEq] at h
        rw [← h.1]
        exact .nothing
  | proceed now vectors =>
      simp only [exec] at h
      split at h
      · cases c with
        | now =>
            simp only [State.performOutside, Option.some.injEq, Prod.mk.injEq] at h
            rw [← h.1]
            exact .nothing
        | putObject key content =>
            simp only [State.performOutside, Option.some.injEq, Prod.mk.injEq] at h
            rw [← h.1]
            exact .putObject key content
        | deleteObject key =>
            simp only [State.performOutside, Option.some.injEq, Prod.mk.injEq] at h
            rw [← h.1]
            exact .deleteObject key
        | send m =>
            simp only [State.performOutside, Option.some.injEq, Prod.mk.injEq] at h
            rw [← h.1]
            exact .send m
        | getObject key | embed dimensions batch =>
            simp only [State.performOutside] at h
            split at h <;>
              (simp only [Option.some.injEq, Prod.mk.injEq] at h
               rw [← h.1]
               exact .nothing)
        | _ => simp [State.performOutside] at h
      · split at h
        · rename_i σ hσ
          exact perform_step hσ h
        · rename_i hnone
          split at h
          · simp only [Option.some.injEq, Prod.mk.injEq] at h
            rw [← h.1, State.setSession_eq_work]
            exact .begin hnone
          · cases h

end

end RagService
