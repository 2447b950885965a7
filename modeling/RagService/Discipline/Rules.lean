import RagService.Discipline.Execution

/-!
# Rules for the commands

What a thread knows after each command that it issues inside a transaction, whatever
the other threads do in between.
-/

namespace RagService

open Interleaving Interleaving.Discipline OutboxService

section

variable {α β : Type}

/-- From `s` the thread may run the program, to meet `Q`, or `X` where it raises. -/
abbrev Runs (env : Env) (allowed : Settings -> Prop) (t : Nat) (p : Action α)
    (Q : α -> State -> Prop) (X : Exception -> State -> Prop) (s : State) : Prop :=
  (discipline env allowed).Safe t p Q X s

/--
Since `s₀` the thread has only gone on with its transaction, whose session is now `σ`;
`n` are its commits so far.
-/
structure Within (allowed : Settings -> Prop) (t : Nat) (n : List Note) (s₀ : State)
    (σ : Session) (s : State) : Prop where
  inv : s.Inv allowed
  advance : Advance t s₀ s
  notes : s.notes t = n
  session : s.sessions t = some σ

variable {env : Env} {allowed : Settings -> Prop} {t : Nat} {n : List Note}
variable {s₀ s s' : State} {σ σ' : Session}

namespace Within

theorem start (h : Within allowed t n s₀ σ s) : Within allowed t n s σ s :=
  ⟨h.inv, Advance.refl t s, h.notes, h.session⟩

theorem trans (h : Within allowed t n s₀ σ s) (h' : Within allowed t n s σ' s') :
    Within allowed t n s₀ σ' s' :=
  ⟨h'.inv, h.advance.trans h'.advance, h'.notes, h'.session⟩

theorem frame (h : Within allowed t n s₀ σ s) (hinv : s'.Inv allowed) (hframe : Frame t s s') :
    Within allowed t n s₀ σ s' :=
  ⟨hinv, h.advance.trans hframe.toAdvance, hframe.notes.trans h.notes,
    hframe.session.trans h.session⟩

theorem ok (h : Within allowed t n s₀ σ s) : SessionOk s t σ allowed :=
  h.inv.session t σ h.session

end Within

/-!
# Programs in general

Sequences, results and exceptions.  A command that raises has changed nothing, so a rule for a
command has to say what it needs and what holds after it: inside the transaction, for a
statement on the database, and for a command outside of it.
-/

theorem runs_then {p : Action α} {f : α -> Action β} {P : α -> State -> Prop}
    {Q : β -> State -> Prop} {X Y : Exception -> State -> Prop}
    (hp : Runs env allowed t p P Y s) (hY : forall e s, Y e s -> X e s)
    (hf : forall a s, P a s -> Runs env allowed t (f a) Q X s) :
    Runs env allowed t (p >>= f) Q X s :=
  safe_bind (safe_mono hp hf hY)

theorem runs_ret {a : α} {Q : α -> State -> Prop} {X : Exception -> State -> Prop}
    (h : Q a s) : Runs env allowed t (.ret a) Q X s :=
  safe_ret h

theorem runs_raise {e : Exception} {Q : α -> State -> Prop} {X : Exception -> State -> Prop}
    (h : X e s) : Runs env allowed t (Action.raise e) Q X s :=
  safe_raise h

theorem runs_raise_then {e : Exception} {f : α -> Action β} {Q : β -> State -> Prop}
    {X : Exception -> State -> Prop} (h : X e s) :
    Runs env allowed t (Action.raise e >>= f) Q X s :=
  h

theorem runs_ofExcept {x : Except Exception α} {Q : α -> State -> Prop}
    {X : Exception -> State -> Prop} (hok : forall a, x = .ok a -> Q a s)
    (herror : forall e, x = .error e -> X e s) :
    Runs env allowed t (Action.ofExcept x) Q X s := by
  cases x with
  | ok a => exact hok a rfl
  | error e => exact herror e rfl

theorem perform_error {c : Command} {now : Nat} {e : Exception}
    (h : s.perform t σ now c = some (s', .error e)) : s' = s := by
  cases c with
  | update id | updateKnowledgeBase id | insert row | remove id | insertChunks documentId rows =>
      simp only [State.perform] at h
      repeat' split at h
      all_goals cases h
      all_goals rfl
  | lock q | assign id f | assignKnowledgeBase id f | updateEvent row =>
      simp only [State.perform] at h
      split at h <;> cases h
  | _ => cases h

theorem exec_error {c : Command} {ch : Choice} {e : Exception}
    (h : exec t c ch s = some (s', .error e)) : s' = s := by
  cases ch with
  | fail e' =>
      simp only [exec] at h
      split at h
      · cases h
      · cases h
        rfl
  | proceed now vectors =>
      simp only [exec] at h
      split at h
      · cases c with
        | getObject key | embed dimensions batch =>
            simp only [State.performOutside] at h
            split at h <;> cases h
            rfl
        | _ => cases h
      · split at h
        · exact perform_error h
        · split at h <;> cases h

/-- A command inside the transaction, under its guard. -/
theorem runs_command {c : Command} {Q : c.Result -> State -> Prop}
    (hs : Within allowed t n s₀ σ s)
    (hcommit : forall note, c ≠ .commit note) (hrollback : c ≠ .rollback)
    (hguard : forall s', Within allowed t n s₀ σ s' ->
      Command.OutsideOk s' t c ∧ Command.Ok env allowed s' t σ c)
    (hok : forall s' s'' now vectors a, Within allowed t n s₀ σ s' ->
      exec t c (.proceed now vectors) s' = some (s'', .ok a) ->
      s''.Inv allowed -> Advance t s₀ s'' -> s''.notes t = n -> Q a s'') :
    Runs env allowed t (Program.issue (I := interface) c) Q
      (fun _ => Within allowed t n s₀ σ) s := by
  apply safe_issue
  intro s' hinv hframe ch s'' r hexec
  have hs' : Within allowed t n s₀ σ s' := hs.frame hinv hframe
  have hg : guard env allowed s' t c ch := by
    cases ch with
    | fail e => trivial
    | proceed now vectors =>
        rcases hguard s' hs' with ⟨houtside, hcommand⟩
        refine ⟨houtside, fun τ hτ => ?_⟩
        rw [hs'.session, Option.some.injEq] at hτ
        subst hτ
        exact hcommand
  refine ⟨hg, ?_⟩
  cases r with
  | error e =>
      rw [exec_error hexec]
      exact hs'
  | ok a =>
      rcases exec_advance hs'.inv hg hcommit hrollback hexec with ⟨hadvance, hnotes⟩
      cases ch with
      | fail e =>
          cases c <;> cases hexec
      | proceed now vectors =>
          exact hok s' s'' now vectors a hs' hexec (exec_inv hs'.inv hg hexec)
            (hs'.advance.trans hadvance) (hnotes.trans hs'.notes)

theorem runs_statement {c : Command} {Q : c.Result -> State -> Prop}
    (hs : Within allowed t n s₀ σ s) (hinside : c.outside = false)
    (hcommit : forall note, c ≠ .commit note) (hrollback : c ≠ .rollback)
    (hguard : forall s', Within allowed t n s₀ σ s' -> Command.Ok env allowed s' t σ c)
    (hok : forall s' s'' now a, Within allowed t n s₀ σ s' ->
      s'.perform t σ now c = some (s'', .ok a) ->
      s''.Inv allowed -> Advance t s₀ s'' -> s''.notes t = n -> Q a s'') :
    Runs env allowed t (Program.issue (I := interface) c) Q
      (fun _ => Within allowed t n s₀ σ) s := by
  refine runs_command hs hcommit hrollback (fun s' hs' => ⟨?_, hguard s' hs'⟩) ?_
  · cases c <;> trivial
  · intro s' s'' now vectors a hs' hexec hinv hadvance hnotes
    simp only [exec, hinside, hs'.session, Bool.false_eq_true, if_false] at hexec
    exact hok s' s'' now a hs' hexec hinv hadvance hnotes

theorem runs_outside {c : Command} {Q : c.Result -> State -> Prop}
    (hs : Within allowed t n s₀ σ s) (houtside : c.outside = true)
    (hguard : forall s', Within allowed t n s₀ σ s' -> Command.OutsideOk s' t c)
    (hok : forall s' s'' now vectors a, Within allowed t n s₀ σ s' ->
      s'.performOutside now vectors c = some (s'', .ok a) ->
      s''.Inv allowed -> Advance t s₀ s'' -> s''.notes t = n -> Q a s'') :
    Runs env allowed t (Program.issue (I := interface) c) Q
      (fun _ => Within allowed t n s₀ σ) s := by
  refine runs_command hs ?_ ?_ (fun s' hs' => ⟨hguard s' hs', ?_⟩) ?_
  · intro note heq
    subst heq
    cases houtside
  · intro heq
    subst heq
    cases houtside
  · cases c <;> trivial
  · intro s' s'' now vectors a hs' hexec hinv hadvance hnotes
    simp only [exec, houtside, if_true] at hexec
    exact hok s' s'' now vectors a hs' hexec hinv hadvance hnotes

/-!
# Reading
-/

theorem runs_select (q : Query) (hs : Within allowed t n s₀ σ s) :
    Runs env allowed t (Action.select q)
      (fun a s' => Within allowed t n s₀ σ s' ∧
        a = q.answer (s'.db.install σ.writes) s'.nextId)
      (fun _ => Within allowed t n s₀ σ) s := by
  refine runs_statement hs rfl (by simp) (by simp) (fun _ _ => trivial) ?_
  intro s' s'' now a hs' hperform hinv hadvance hnotes
  cases hperform
  exact ⟨⟨hinv, hadvance, hnotes, hs'.session⟩, rfl⟩

theorem runs_loadKnowledgeBase (pk userId : Nat) (isAdmin write : Bool)
    (hs : Within allowed t n s₀ σ s)
    (hkeeps : forall i, σ.writes.knowledgeBases i = none) :
    Runs env allowed t (Action.loadKnowledgeBase pk userId isAdmin write)
      (fun row s' => Within allowed t n s₀
          { σ with
            knowledgeBases := loadEntries KnowledgeBase.id σ.knowledgeBases row.toList } s' ∧
        forall kb, row = some kb -> kb.id = pk ∧ kb.deleted = 0)
      (fun _ => Within allowed t n s₀ σ) s := by
  refine runs_statement hs rfl (by simp) (by simp) (fun _ _ => hkeeps) ?_
  intro s' s'' now row hs' hperform hinv hadvance hnotes
  cases hperform
  refine ⟨⟨hinv, hadvance, hnotes, by simp [State.setSession]⟩, fun kb hkb => ?_⟩
  rw [Db.getAuthorized, Option.filter_eq_some_iff,
    Db.install_knowledgeBases_of_none (hkeeps pk)] at hkb
  exact ⟨(hs'.inv.coherent.knowledgeBase pk kb hkb.1).1, (of_decide_eq_true hkb.2).1⟩

theorem runs_load (q : DocumentQuery) (hs : Within allowed t n s₀ σ s)
    (hkeeps : σ.KeepsDocuments) :
    Runs env allowed t (Action.load q)
      (fun rows s' => Within allowed t n s₀
          { σ with
            documents := loadEntries Document.id σ.documents rows
            scanned := q.scans.or σ.scanned } s' ∧
        (forall d, d ∈ rows -> s'.Known d.id) ∧
        exists s₁ : State, rows = q.rows s₁.db s₁.nextId)
      (fun _ => Within allowed t n s₀ σ) s := by
  refine runs_statement hs rfl (by simp) (by simp) (fun _ _ => hkeeps) ?_
  intro s' s'' now rows hs' hperform hinv hadvance hnotes
  have hrows : q.rows (s'.db.install σ.writes) s'.nextId = q.rows s'.db s'.nextId := by
    cases q <;> simp only [DocumentQuery.rows, Db.install_documents hkeeps]
  cases hperform
  refine ⟨⟨hinv, hadvance, hnotes, by simp [State.setSession]⟩, fun d hd => ?_, s', hrows⟩
  exact (DocumentQuery.rows_ok hs'.inv hkeeps hd).2.1

theorem runs_lock (q : LockQuery) (hs : Within allowed t n s₀ σ s)
    (hkeeps : σ.KeepsDocuments) :
    Runs env allowed t (Action.lock q)
      (fun rows s' => Within allowed t n s₀
          { σ with documents := loadEntries Document.id σ.documents rows } s' ∧
        (forall d, d ∈ rows ->
          s'.locks (.document d.id) = some t ∧ s'.db.documents d.id = some d) ∧
        exists s₁ : State, s₁.Inv allowed ∧ q.rows s₁ t = some rows)
      (fun _ => Within allowed t n s₀ σ) s := by
  refine runs_statement hs rfl (by simp) (by simp) (fun _ _ => hkeeps) ?_
  intro s' s'' now rows hs' hperform hinv hadvance hnotes
  simp only [State.perform] at hperform
  split at hperform
  · cases hperform
  · rename_i rows' hrows
    cases hperform
    refine ⟨⟨hinv, hadvance, hnotes, by simp [State.setSession, State.acquire]⟩,
      fun d hd => ⟨?_, ?_⟩, s', hs'.inv, hrows⟩
    · have hmem : Resource.document d.id ∈ rows.map fun d => Resource.document d.id :=
        List.mem_map.mpr ⟨d, hd, rfl⟩
      simp only [State.setSession, State.acquire, if_pos hmem]
    · exact (LockQuery.rows_mem hrows (fun i d h => (hs'.inv.coherent.document i d h).1) hd).1

theorem runs_lockEvents (limit : Nat) (hs : Within allowed t n s₀ σ s) :
    Runs env allowed t (Action.lockEvents limit)
      (fun rows s' => Within allowed t n s₀ σ s' ∧
        (forall e, e ∈ rows -> s'.locks (.event e.id) = some t ∧
          s'.db.events e.id = some e ∧ (e.status = .pending ∨ e.status = .failed)))
      (fun _ => Within allowed t n s₀ σ) s := by
  refine runs_statement hs rfl (by simp) (by simp) (fun _ _ => trivial) ?_
  intro s' s'' now rows hs' hperform hinv hadvance hnotes
  cases hperform
  refine ⟨⟨hinv, hadvance, hnotes, hs'.session⟩, fun e he => ?_⟩
  have hmem := List.mem_of_mem_take he
  rw [List.mem_filter, mem_scan] at hmem
  rcases hmem with ⟨⟨i, -, hi⟩, hcond⟩
  have hid := (hs'.inv.coherent.event i e hi).1
  subst hid
  have hlock : Resource.event e.id ∈
      (s'.pendingEvents t limit).map fun e => Resource.event e.id :=
    List.mem_map.mpr ⟨e, he, rfl⟩
  refine ⟨?_, hi, And.left (of_decide_eq_true hcond)⟩
  simp only [State.acquire, if_pos hlock]

theorem runs_dirty (hs : Within allowed t n s₀ σ s) :
    Runs env allowed t Action.dirty
      (fun ids s' => Within allowed t n s₀ σ s' ∧
        forall i e, σ.documents i = some e -> (i ∈ ids ↔ e.flushed ≠ e.current))
      (fun _ => Within allowed t n s₀ σ) s := by
  refine runs_statement hs rfl (by simp) (by simp) (fun _ _ => trivial) ?_
  intro s' s'' now ids hs' hperform hinv hadvance hnotes
  cases hperform
  refine ⟨⟨hinv, hadvance, hnotes, hs'.session⟩, fun i e he => ?_⟩
  have hbound := hs'.inv.bounded i (hs'.ok.documents.entry i e he).1
  simp only [dirtyIds, List.mem_filter, List.mem_range, hbound, he, decide_eq_true_eq, true_and]
  exact ne_comm

theorem runs_dirtyKnowledgeBases (hs : Within allowed t n s₀ σ s) :
    Runs env allowed t Action.dirtyKnowledgeBases
      (fun ids s' => Within allowed t n s₀ σ s' ∧
        forall i e, σ.knowledgeBases i = some e -> e.flushed = e.current ∨ i ∈ ids)
      (fun _ => Within allowed t n s₀ σ) s := by
  refine runs_statement hs rfl (by simp) (by simp) (fun _ _ => trivial) ?_
  intro s' s'' now ids hs' hperform hinv hadvance hnotes
  cases hperform
  refine ⟨⟨hinv, hadvance, hnotes, hs'.session⟩, fun i e he => ?_⟩
  by_cases hne : e.flushed = e.current
  · exact .inl hne
  · have hbound := (hs'.ok.knowledgeBases.entry i e he).2.2.2.2
    right
    simpa [dirtyIds, he, hbound] using Ne.symm hne

/-!
# Writing

A flush of an object writes its changed columns, and an assignment, an insert or a deletion
changes the session alone.  New chunks go behind the ones that the transaction already has for
the document.
-/

theorem runs_assign {id : Nat} {f : Document -> Document} {e : Entry Document}
    (hs : Within allowed t n s₀ σ s) (he : σ.documents id = some e)
    (hf : forall d, (f d).identity = d.identity) :
    Runs env allowed t (Action.assign id f)
      (fun _ => Within allowed t n s₀
        { σ with
          documents := Function.update σ.documents id (some { e with current := f e.current }) })
      (fun _ => Within allowed t n s₀ σ) s := by
  refine runs_statement hs rfl (by simp) (by simp) (fun _ _ => hf) ?_
  intro s' s'' now a hs' hperform hinv hadvance hnotes
  simp only [State.perform, he, Option.some.injEq, Prod.mk.injEq] at hperform
  rcases hperform with ⟨rfl, -⟩
  exact ⟨hinv, hadvance, hnotes, by simp [State.setSession]⟩

theorem runs_assignKnowledgeBase {id : Nat} {f : KnowledgeBase -> KnowledgeBase}
    {e : Entry KnowledgeBase} (hs : Within allowed t n s₀ σ s)
    (he : σ.knowledgeBases id = some e) (hf : forall kb, (f kb).id = kb.id) :
    Runs env allowed t (Action.assignKnowledgeBase id f)
      (fun _ => Within allowed t n s₀
        { σ with
          knowledgeBases :=
            Function.update σ.knowledgeBases id (some { e with current := f e.current }) })
      (fun _ => Within allowed t n s₀ σ) s := by
  refine runs_statement hs rfl (by simp) (by simp) (fun _ _ => hf) ?_
  intro s' s'' now a hs' hperform hinv hadvance hnotes
  simp only [State.perform, he, Option.some.injEq, Prod.mk.injEq] at hperform
  rcases hperform with ⟨rfl, -⟩
  exact ⟨hinv, hadvance, hnotes, by simp [State.setSession]⟩

theorem runs_update (id : Nat) (hs : Within allowed t n s₀ σ s) :
    Runs env allowed t (Action.update id)
      (fun _ s' => exists e row, σ.documents id = some e ∧
        Within allowed t n s₀
          { σ with
            documents := Function.update σ.documents id (some { e with flushed := e.current })
            writes :=
              { σ.writes with
                documents := Function.update σ.writes.documents id (some (some row)) } } s')
      (fun _ => Within allowed t n s₀ σ) s := by
  refine runs_statement hs rfl (by simp) (by simp) (fun _ _ => trivial) ?_
  intro s' s'' now a hs' hperform hinv hadvance hnotes
  simp only [State.perform] at hperform
  split at hperform
  · cases hperform
  · rename_i e he
    split at hperform
    · cases hperform
    · rename_i base hbase
      split at hperform
      · cases hperform
        exact ⟨e, _, he, hinv, hadvance, hnotes, by simp [State.setSession, State.acquire]; rfl⟩
      · cases hperform

theorem runs_updateKnowledgeBase (id : Nat) (hs : Within allowed t n s₀ σ s) :
    Runs env allowed t (Action.updateKnowledgeBase id)
      (fun _ s' => exists e row, σ.knowledgeBases id = some e ∧
        Within allowed t n s₀
          { σ with
            knowledgeBases :=
              Function.update σ.knowledgeBases id (some { e with flushed := e.current })
            writes :=
              { σ.writes with
                knowledgeBases := Function.update σ.writes.knowledgeBases id (some row) } } s')
      (fun _ => Within allowed t n s₀ σ) s := by
  refine runs_statement hs rfl (by simp) (by simp) (fun _ _ => trivial) ?_
  intro s' s'' now a hs' hperform hinv hadvance hnotes
  simp only [State.perform] at hperform
  split at hperform
  · cases hperform
  · rename_i e he
    split at hperform
    · cases hperform
    · rename_i base hbase
      split at hperform
      · split at hperform
        · cases hperform
        · cases hperform
          exact ⟨e, _, he, hinv, hadvance, hnotes, by
            simp [State.setSession, State.acquire]; rfl⟩
      · cases hperform

theorem runs_updateEvent {row : OutboxEvent} (hs : Within allowed t n s₀ σ s)
    (hlock : s₀.locks (.event row.id) = some t)
    (hdelivers : forall s', Within allowed t n s₀ σ s' ->
      Session.Delivers s' allowed row.id row) :
    Runs env allowed t (Action.updateEvent row)
      (fun _ => Within allowed t n s₀
        { σ with
          writes :=
            { σ.writes with
              events := Function.update σ.writes.events row.id (some row) } })
      (fun _ => Within allowed t n s₀ σ) s := by
  refine runs_statement hs rfl (by simp) (by simp)
    (fun s' hs' => ⟨hs'.advance.locks _ hlock, hdelivers s' hs'⟩) ?_
  intro s' s'' now a hs' hperform hinv hadvance hnotes
  simp only [State.perform] at hperform
  split at hperform
  · cases hperform
    exact ⟨hinv, hadvance, hnotes, by simp [State.setSession, State.acquire]⟩
  · cases hperform

theorem runs_insert {row : NewRow} (hs : Within allowed t n s₀ σ s)
    (hguard : forall s', Within allowed t n s₀ σ s' ->
      Command.Ok env allowed s' t σ (.insert row)) :
    Runs env allowed t (Action.insert row)
      (fun id s' => exists now s₁, Within allowed t n s₀ σ s₁ ∧ id = s₁.nextId ∧
        Within allowed t n s₀ { σ with writes := row.place id now σ.writes } s')
      (fun _ => Within allowed t n s₀ σ) s := by
  refine runs_statement hs rfl (by simp) (by simp) hguard ?_
  intro s' s'' now id hs' hperform hinv hadvance hnotes
  simp only [State.perform] at hperform
  split at hperform
  · split at hperform
    · cases hperform
    · cases hperform
      exact ⟨now, s', hs', rfl, hinv, hadvance, hnotes, by
        simp [State.setSession, State.acquire]⟩
  · cases hperform

theorem runs_remove {id : Nat} {base : Document} (hs : Within allowed t n s₀ σ s)
    (hlock : s₀.locks (.document id) = some t) (hbase : s₀.db.documents id = some base)
    (hstatus : base.status = .deleting) :
    Runs env allowed t (Action.remove id)
      (fun _ => Within allowed t n s₀
        { σ with
          documents := Function.update σ.documents id none
          writes :=
            { σ.writes with
              documents := Function.update σ.writes.documents id (some none) } })
      (fun _ => Within allowed t n s₀ σ) s := by
  refine runs_statement hs rfl (by simp) (by simp)
    (fun s' hs' => ⟨hs'.advance.locks _ hlock, base, ?_, hstatus⟩) ?_
  · rw [hs'.advance.document id hlock, hbase]
  · intro s' s'' now a hs' hperform hinv hadvance hnotes
    simp only [State.perform] at hperform
    split at hperform
    · cases hperform
    · split at hperform
      · cases hperform
        exact ⟨hinv, hadvance, hnotes, by simp [State.setSession, State.acquire]⟩
      · cases hperform

theorem runs_deleteChunks {id : Nat} (hs : Within allowed t n s₀ σ s)
    (hlock : s₀.locks (.document id) = some t) :
    Runs env allowed t (Action.deleteChunks id)
      (fun _ => Within allowed t n s₀
        { σ with
          writes := { σ.writes with chunks := Function.update σ.writes.chunks id (some []) } })
      (fun _ => Within allowed t n s₀ σ) s := by
  refine runs_statement hs rfl (by simp) (by simp)
    (fun s' hs' => hs'.advance.locks _ hlock) ?_
  intro s' s'' now a hs' hperform hinv hadvance hnotes
  cases hperform
  exact ⟨hinv, hadvance, hnotes, by simp [State.setSession]⟩

theorem runs_insertChunks {id : Nat} {rows present : List Chunk}
    (hs : Within allowed t n s₀ σ s) (hlock : s₀.locks (.document id) = some t)
    (hpresent : σ.writes.chunks id = some present) :
    Runs env allowed t (Action.insertChunks id rows)
      (fun ids s' => exists first, ids = (numberChunks first rows).map Chunk.id ∧
        Within allowed t n s₀
          { σ with
            writes :=
              { σ.writes with
                chunks :=
                  Function.update σ.writes.chunks id
                    (some (present ++ numberChunks first rows)) } } s')
      (fun _ => Within allowed t n s₀ σ) s := by
  refine runs_statement hs rfl (by simp) (by simp)
    (fun s' hs' => hs'.advance.locks _ hlock) ?_
  intro s' s'' now ids hs' hperform hinv hadvance hnotes
  simp only [State.perform, Db.install_chunks_of_some hpresent] at hperform
  split at hperform
  · cases hperform
    exact ⟨s'.nextId, rfl, hinv, hadvance, hnotes, by simp [State.setSession]⟩
  · cases hperform

/-!
# Storage, broker and provider
-/

theorem runs_putObject (key : Text) (content : Bytes) (hs : Within allowed t n s₀ σ s) :
    Runs env allowed t (Action.putObject key content)
      (fun _ => Within allowed t n s₀ σ) (fun _ => Within allowed t n s₀ σ) s := by
  refine runs_outside hs rfl (fun _ _ => trivial) ?_
  intro s' s'' now vectors a hs' hperform hinv hadvance hnotes
  cases hperform
  exact ⟨hinv, hadvance, hnotes, hs'.session⟩

theorem runs_getObject (key : Text) (hs : Within allowed t n s₀ σ s) :
    Runs env allowed t (Action.getObject key)
      (fun _ => Within allowed t n s₀ σ) (fun _ => Within allowed t n s₀ σ) s := by
  refine runs_outside hs rfl (fun _ _ => trivial) ?_
  intro s' s'' now vectors a hs' hperform hinv hadvance hnotes
  simp only [State.performOutside] at hperform
  split at hperform <;> cases hperform
  exact ⟨hinv, hadvance, hnotes, hs'.session⟩

theorem runs_deleteObject {id : Nat} {base : Document} (hs : Within allowed t n s₀ σ s)
    (hlock : s₀.locks (.document id) = some t) (hbase : s₀.db.documents id = some base)
    (hstatus : base.status = .deleting) :
    Runs env allowed t (Action.deleteObject base.storageKey)
      (fun _ => Within allowed t n s₀ σ) (fun _ => Within allowed t n s₀ σ) s := by
  refine runs_outside hs rfl (fun s' hs' => ⟨id, base, hs'.advance.locks _ hlock, ?_,
    hstatus, rfl⟩) ?_
  · rw [hs'.advance.document id hlock, hbase]
  · intro s' s'' now vectors a hs' hperform hinv hadvance hnotes
    cases hperform
    exact ⟨hinv, hadvance, hnotes, hs'.session⟩

theorem runs_send {m : Message} (hs : Within allowed t n s₀ σ s) (hm : s₀.Requested m) :
    Runs env allowed t (Action.send m)
      (fun _ s' => Within allowed t n s₀ σ s' ∧ m ∈ s'.broker)
      (fun _ => Within allowed t n s₀ σ) s := by
  refine runs_outside hs rfl (fun s' hs' => hs'.advance.toGrows.requested hm) ?_
  intro s' s'' now vectors a hs' hperform hinv hadvance hnotes
  cases hperform
  exact ⟨⟨hinv, hadvance, hnotes, hs'.session⟩, by simp⟩

theorem runs_embed (dimensions : Nat) (batch : List Text) (hs : Within allowed t n s₀ σ s) :
    Runs env allowed t (Action.embed dimensions batch)
      (fun _ => Within allowed t n s₀ σ) (fun _ => Within allowed t n s₀ σ) s := by
  refine runs_outside hs rfl (fun _ _ => trivial) ?_
  intro s' s'' now vectors a hs' hperform hinv hadvance hnotes
  simp only [State.performOutside] at hperform
  split at hperform <;> cases hperform
  exact ⟨hinv, hadvance, hnotes, hs'.session⟩

theorem runs_now (hs : Within allowed t n s₀ σ s) :
    Runs env allowed t Action.now
      (fun _ => Within allowed t n s₀ σ) (fun _ => Within allowed t n s₀ σ) s := by
  refine runs_outside hs rfl (fun _ _ => trivial) ?_
  intro s' s'' now vectors a hs' hperform hinv hadvance hnotes
  cases hperform
  exact ⟨hinv, hadvance, hnotes, hs'.session⟩

end

end RagService
