import RagService.Discipline.Rules

/-!
# Rules for the shared patterns

The flush, the insert of a row, the lookup of a profile or an event, and the
transaction block.
-/

namespace RagService

open Interleaving Interleaving.Discipline OutboxService IndexProfileService

/-!
# Sessions up to flushes and new rows

Two sessions are alike when they differ by flushes and by new profiles and events: their
objects keep their loaded rows and their assignments.
-/

namespace Session

structure Like (σ σ' : Session) : Prop where
  documents : forall i, (σ'.documents i).map (fun e => (e.loaded, e.current)) =
    (σ.documents i).map (fun e => (e.loaded, e.current))
  knowledgeBases : forall i, (σ'.knowledgeBases i).map (fun e => (e.loaded, e.current)) =
    (σ.knowledgeBases i).map (fun e => (e.loaded, e.current))
  scanned : σ'.scanned = σ.scanned
  chunks : σ'.writes.chunks = σ.writes.chunks
  writes : forall i, σ.documents i = none -> σ'.writes.documents i = σ.writes.documents i

structure Flushed (σ σ' : Session) : Prop extends Like σ σ' where
  events : σ'.writes.events = σ.writes.events
  unchanged : forall i e, σ.documents i = some e -> e.flushed = e.current ->
    σ'.writes.documents i = σ.writes.documents i
  clean : σ'.Clean

namespace Like

variable {σ σ' σ'' : Session}

theorem refl (σ : Session) : Like σ σ :=
  ⟨fun _ => rfl, fun _ => rfl, rfl, rfl, fun _ _ => rfl⟩

theorem none_iff (h : Like σ σ') (i : Nat) : σ'.documents i = none ↔ σ.documents i = none := by
  have hi := h.documents i
  constructor
  · intro hnone
    rw [hnone] at hi
    exact Option.map_eq_none_iff.mp hi.symm
  · intro hnone
    rw [hnone] at hi
    exact Option.map_eq_none_iff.mp hi

theorem trans (h : Like σ σ') (h' : Like σ' σ'') : Like σ σ'' where
  documents := fun i => (h'.documents i).trans (h.documents i)
  knowledgeBases := fun i => (h'.knowledgeBases i).trans (h.knowledgeBases i)
  scanned := h'.scanned.trans h.scanned
  chunks := h'.chunks.trans h.chunks
  writes := fun i hi => (h'.writes i ((h.none_iff i).mpr hi)).trans (h.writes i hi)

theorem entry (h : Like σ σ') {i : Nat} {e : Entry Document} (he : σ.documents i = some e) :
    exists flushed, σ'.documents i = some ⟨e.loaded, flushed, e.current⟩ := by
  have hi := h.documents i
  rw [he] at hi
  rcases Option.map_eq_some_iff.mp hi with ⟨e', he', heq⟩
  simp only [Prod.mk.injEq] at heq
  refine ⟨e'.flushed, ?_⟩
  rw [he', ← heq.1, ← heq.2]

theorem entry_back (h : Like σ σ') {i : Nat} {e' : Entry Document}
    (he' : σ'.documents i = some e') :
    exists flushed, σ.documents i = some ⟨e'.loaded, flushed, e'.current⟩ := by
  have hi := h.documents i
  rw [he'] at hi
  rcases Option.map_eq_some_iff.mp hi.symm with ⟨e, he, heq⟩
  simp only [Prod.mk.injEq] at heq
  refine ⟨e.flushed, ?_⟩
  rw [he, ← heq.1, ← heq.2]

theorem entryKb_back (h : Like σ σ') {i : Nat} {e' : Entry KnowledgeBase}
    (he' : σ'.knowledgeBases i = some e') :
    exists flushed, σ.knowledgeBases i = some ⟨e'.loaded, flushed, e'.current⟩ := by
  have hi := h.knowledgeBases i
  rw [he'] at hi
  rcases Option.map_eq_some_iff.mp hi.symm with ⟨e, he, heq⟩
  simp only [Prod.mk.injEq] at heq
  refine ⟨e.flushed, ?_⟩
  rw [he, ← heq.1, ← heq.2]

theorem entryKb (h : Like σ σ') {i : Nat} {e : Entry KnowledgeBase}
    (he : σ.knowledgeBases i = some e) :
    exists flushed, σ'.knowledgeBases i = some ⟨e.loaded, flushed, e.current⟩ := by
  have hi := h.knowledgeBases i
  rw [he] at hi
  rcases Option.map_eq_some_iff.mp hi with ⟨e', he', heq⟩
  simp only [Prod.mk.injEq] at heq
  refine ⟨e'.flushed, ?_⟩
  rw [he', ← heq.1, ← heq.2]

theorem keepsDeleted (h : Like σ σ') (hkeeps : σ.KeepsDeleted) : σ'.KeepsDeleted := by
  intro i e' he'
  rcases h.entryKb_back he' with ⟨flushed, he⟩
  exact hkeeps i ⟨e'.loaded, flushed, e'.current⟩ he

theorem keepsChunks (h : Like σ σ') (hkeeps : σ.KeepsChunks) : σ'.KeepsChunks := by
  intro i
  rw [h.chunks]
  exact hkeeps i

theorem focus (h : Like σ σ') {d : Nat} {loaded current : Document}
    (hfocus : σ.Focus d loaded current) : σ'.Focus d loaded current where
  entry := by
    rcases hfocus.entry with ⟨flushed, he⟩
    exact h.entry he
  others := fun i hi => (h.none_iff i).mpr (hfocus.others i hi)
  writes := fun i hi => (h.writes i (hfocus.others i hi)).trans (hfocus.writes i hi)

theorem inserts (h : Like σ σ') {i : Nat} {d : Document} (hd : σ.Inserts i d) :
    σ'.Inserts i d :=
  ⟨(h.none_iff i).mpr hd.1, (h.writes i hd.1).trans hd.2⟩

end Like

end Session

section

variable {env : Env} {allowed : Settings -> Prop} {t : Nat} {n : List Note}
variable {s₀ s : State} {σ : Session}

theorem Session.like_update {id : Nat} {e : Entry Document} {row : Document}
    (he : σ.documents id = some e) :
    σ.Like { σ with
      documents := Function.update σ.documents id (some { e with flushed := e.current })
      writes :=
        { σ.writes with
          documents := Function.update σ.writes.documents id (some (some row)) } } := by
  constructor
  · intro i
    by_cases hi : i = id
    · subst i
      simp [he]
    · simp only [Function.update_of_ne hi]
  · exact fun _ => rfl
  · rfl
  · rfl
  · intro i hnone
    have hi : i ≠ id := by
      intro heq
      subst heq
      rw [he] at hnone
      cases hnone
    simp only [Function.update_of_ne hi]

theorem Session.like_updateKnowledgeBase {id : Nat} {e : Entry KnowledgeBase}
    {row : KnowledgeBase} (he : σ.knowledgeBases id = some e) :
    σ.Like { σ with
      knowledgeBases := Function.update σ.knowledgeBases id (some { e with flushed := e.current })
      writes :=
        { σ.writes with
          knowledgeBases := Function.update σ.writes.knowledgeBases id (some row) } } := by
  constructor
  · exact fun _ => rfl
  · intro i
    by_cases hi : i = id
    · subst i
      simp [he]
    · simp only [Function.update_of_ne hi]
  · rfl
  · rfl
  · exact fun _ _ => rfl

/-!
# Flush and insert

A new row is written behind a flush of all assigned objects.
-/

theorem runs_flush (hs : Within allowed t n s₀ σ s) :
    Runs env allowed t Action.flush
      (fun _ s' => exists σ', σ.Flushed σ' ∧ Within allowed t n s₀ σ' s')
      (fun _ s' => s'.notes t = n) s := by
  have hX : forall {τ : Session} (e : Exception) s', Within allowed t n s₀ τ s' ->
      s'.notes t = n := fun _ _ h => h.notes
  refine runs_then (runs_dirty hs) hX ?_
  intro ids s₁ h
  rcases h with ⟨hs₁, hdirty⟩
  -- documents still to flush are in the rest of the list
  refine runs_then (Y := fun _ s' => s'.notes t = n)
    (safe_forEach
      (fun rest s' => exists σ', σ.Like σ' ∧ σ'.writes.events = σ.writes.events ∧
        (forall i, i ∈ rest -> i ∈ ids) ∧
        (forall i, i ∉ ids -> σ'.writes.documents i = σ.writes.documents i) ∧
        (forall i e, σ'.documents i = some e -> e.flushed = e.current ∨ i ∈ rest) ∧
        Within allowed t n s₀ σ' s')
      ⟨σ, Session.Like.refl σ, rfl, fun _ h => h, fun _ _ => rfl, ?_, hs₁⟩ ?_)
    (fun _ _ h => h) ?_
  · intro i e he
    by_cases hclean : e.flushed = e.current
    · exact .inl hclean
    · exact .inr ((hdirty i e he).mpr hclean)
  · intro id rest s₂ h
    rcases h with ⟨σ₂, hlike, hevents, hids, hwrites, hrest, hs₂⟩
    refine safe_mono (runs_update id hs₂) ?_ hX
    intro _ s₃ h
    rcases h with ⟨e, row, he, hs₃⟩
    refine ⟨_, hlike.trans (Session.like_update he), hevents,
      fun i hi => hids i (List.mem_cons_of_mem id hi), fun i hi => ?_, ?_, hs₃⟩
    · have hne : i ≠ id := by
        intro heq
        subst heq
        exact hi (hids i List.mem_cons_self)
      simp only [Function.update_of_ne hne]
      exact hwrites i hi
    intro i e' he'
    by_cases hi : i = id
    · subst i
      simp only [Function.update_self, Option.some.injEq] at he'
      subst he'
      exact .inl rfl
    · simp only [Function.update_of_ne hi] at he'
      rcases hrest i e' he' with hclean | hmem
      · exact .inl hclean
      · rcases List.mem_cons.mp hmem with rfl | hmem
        · exact absurd rfl hi
        · exact .inr hmem
  intro _ s₂ h
  rcases h with ⟨σ₂, hlike₂, hevents₂, -, hwrites₂, hclean₂, hs₂⟩
  have hunchanged : forall i e, σ.documents i = some e -> e.flushed = e.current ->
      σ₂.writes.documents i = σ.writes.documents i :=
    fun i e he hclean => hwrites₂ i fun hmem => (hdirty i e he).mp hmem hclean
  refine runs_then (runs_dirtyKnowledgeBases hs₂) hX ?_
  intro kbs s₃ h
  rcases h with ⟨hs₃, hdirty₃⟩
  refine safe_mono (safe_forEach (X := fun _ s' => s'.notes t = n)
    (fun rest s' => exists σ', σ.Like σ' ∧ σ'.writes.events = σ.writes.events ∧
      (forall i e, σ.documents i = some e -> e.flushed = e.current ->
        σ'.writes.documents i = σ.writes.documents i) ∧
      (forall i e, σ'.documents i = some e -> e.flushed = e.current) ∧
      (forall i e, σ'.knowledgeBases i = some e -> e.flushed = e.current ∨ i ∈ rest) ∧
      Within allowed t n s₀ σ' s')
    ⟨σ₂, hlike₂, hevents₂, hunchanged, fun i e he => by simpa using hclean₂ i e he, hdirty₃,
      hs₃⟩ ?_) ?_ (fun _ _ h => h)
  · intro id rest s₄ h
    rcases h with ⟨σ₄, hlike, hevents, hwrites, hclean, hrest, hs₄⟩
    refine safe_mono (runs_updateKnowledgeBase id hs₄) ?_ hX
    intro _ s₅ h
    rcases h with ⟨e, row, he, hs₅⟩
    refine ⟨_, hlike.trans (Session.like_updateKnowledgeBase he), hevents, hwrites, hclean, ?_,
      hs₅⟩
    intro i e' he'
    by_cases hi : i = id
    · subst i
      simp only [Function.update_self, Option.some.injEq] at he'
      subst he'
      exact .inl rfl
    · simp only [Function.update_of_ne hi] at he'
      rcases hrest i e' he' with hclean | hmem
      · exact .inl hclean
      · rcases List.mem_cons.mp hmem with rfl | hmem
        · exact absurd rfl hi
        · exact .inr hmem
  · intro _ s₄ h
    rcases h with ⟨σ₄, hlike, hevents, hwrites, hclean, hrest, hs₄⟩
    exact ⟨σ₄, ⟨hlike, hevents, hwrites, hclean, fun i e he => by simpa using hrest i e he⟩, hs₄⟩

theorem runs_add {row : NewRow} (hs : Within allowed t n s₀ σ s)
    (hguard : forall σ' s', σ.Flushed σ' -> Within allowed t n s₀ σ' s' ->
      Command.Ok env allowed s' t σ' (.insert row)) :
    Runs env allowed t (Action.add row)
      (fun id s' => exists σ₁ now s₁, σ.Flushed σ₁ ∧ Within allowed t n s₀ σ₁ s₁ ∧
        id = s₁.nextId ∧
        Within allowed t n s₀ { σ₁ with writes := row.place id now σ₁.writes } s')
      (fun _ s' => s'.notes t = n) s := by
  refine runs_then (runs_flush hs) (fun _ _ h => h) ?_
  intro _ s₁ h
  rcases h with ⟨σ₁, hflushed, hs₁⟩
  refine safe_mono (runs_insert hs₁ fun s' hs' => hguard σ₁ s' hflushed hs') ?_
    (fun _ _ h => h.notes)
  intro id s₂ h
  rcases h with ⟨now, s₃, hs₃, hid, hs₂⟩
  exact ⟨σ₁, now, s₃, hflushed, hs₃, hid, hs₂⟩

/-!
# Index profile and outbox

A profile or an event is looked up by its key and inserted when it is not there; in the end the
session has all pending events from before, and perhaps one more.
-/

theorem runs_getOrCreateIndexProfile (cfg : Settings) (hs : Within allowed t n s₀ σ s) :
    Runs env allowed t (getOrCreateIndexProfile env cfg)
      (fun _ s' => exists σ', σ.Like σ' ∧ σ'.writes.events = σ.writes.events ∧
        Within allowed t n s₀ σ' s')
      (fun _ s' => s'.notes t = n) s := by
  refine runs_then (runs_select _ hs) (fun _ _ h => h.notes) ?_
  intro profile s₁ h
  rcases h with ⟨hs₁, -⟩
  cases profile with
  | some profile => exact runs_ret ⟨σ, Session.Like.refl σ, rfl, hs₁⟩
  | none =>
      refine safe_mono (runs_add hs₁ fun _ _ _ _ => trivial) ?_ (fun _ _ h => h)
      intro id s₂ h
      rcases h with ⟨σ₁, now, s₃, hflushed, -, -, hs₂⟩
      refine ⟨_, ?_, ?_, hs₂⟩
      · exact hflushed.toLike.trans ⟨fun _ => rfl, fun _ => rfl, rfl, rfl, fun _ _ => rfl⟩
      · exact hflushed.events

structure Session.Adds (σ σ' : Session) (event : Nat) : Prop where
  kept : forall i e, σ.writes.events i = some e -> σ'.writes.events i = some e
  other : forall i, i ≠ event -> σ'.writes.events i = σ.writes.events i

theorem outboxEvent_answer {db : Db} {m : Nat} {eventType dedupeKey : Text} {aggregateId : Nat}
    {e : OutboxEvent}
    (h : Query.answer db m (.outboxEvent eventType aggregateId dedupeKey) = some e) :
    exists i, db.events i = some e ∧ e.key = .eventKey eventType aggregateId dedupeKey := by
  simp only [Query.answer] at h
  have hmem := List.mem_of_find?_eq_some h
  have hkey := List.find?_some h
  rcases mem_scan.mp hmem with ⟨i, -, hi⟩
  simp only [decide_eq_true_eq] at hkey
  refine ⟨i, hi, ?_⟩
  rw [OutboxEvent.key, hkey.1, hkey.2.1, hkey.2.2]

theorem SessionOk.install_event (hok : SessionOk s t σ allowed) (hinv : s.Inv allowed)
    {i : Nat} {e : OutboxEvent} (he : (s.db.install σ.writes).events i = some e) :
    e.id = i ∧ e.WellFormed := by
  cases hx : σ.writes.events i with
  | none =>
      rw [Db.install_events_of_none hx] at he
      rcases hinv.coherent.event i e he with ⟨hid, -, hwf⟩
      exact ⟨hid, hwf⟩
  | some e' =>
      rw [Db.install_events_of_some hx, Option.some.injEq] at he
      subst he
      refine ⟨(hok.events.row i e' hx).1, ?_⟩
      rcases hok.events.kind i e' hx with ⟨old, hold, -, hdelivery⟩ | henqueues
      · exact (hinv.coherent.event i old hold).2.2.of_identity hdelivery.identity
      · exact henqueues.2.2.2.1

theorem runs_enqueue {event : OutboxEvent} (hs : Within allowed t n s₀ σ s)
    (hstatus : event.status = .pending) (hattempts : event.dispatchAttempts = 0)
    (hwf : event.WellFormed)
    (haggregate : s.Known event.aggregateId ∨ exists d, σ.Inserts event.aggregateId d) :
    Runs env allowed t (enqueue event)
      (fun id s' => exists σ', σ.Like σ' ∧ σ.Adds σ' id ∧ Within allowed t n s₀ σ' s' ∧
        (s'.db.install σ'.writes).Carries id event)
      (fun _ s' => s'.notes t = n) s := by
  refine runs_then (runs_select _ hs.start) (fun _ _ h => h.notes) ?_
  intro found s₁ h
  rcases h with ⟨hs₁, hfound⟩
  cases found with
  | some e =>
      rcases outboxEvent_answer hfound.symm with ⟨i, hi, hkey⟩
      rcases hs₁.ok.install_event hs₁.inv hi with ⟨hid, hwf'⟩
      refine runs_ret ⟨σ, Session.Like.refl σ, ⟨fun _ _ h => h, fun _ _ => rfl⟩, hs.trans hs₁,
        e, ?_, OutboxEvent.identity_of_key hwf' hwf hkey⟩
      rw [hid]
      exact hi
  | none =>
      have hknown : forall s', Within allowed t n s σ s' ->
          s'.Known event.aggregateId ∨ exists d, σ.Inserts event.aggregateId d :=
        fun s' h => haggregate.imp_left h.advance.toGrows.known
      refine safe_mono (runs_add hs₁ ?_) ?_ (fun _ _ h => h)
      · intro σ' s' hflushed hs'
        refine ⟨hstatus, hattempts, hwf, ?_⟩
        rcases haggregate with hknown | ⟨d, hd⟩
        · exact .inl (hs'.advance.toGrows.known hknown)
        · exact .inr ⟨d, hflushed.toLike.inserts hd⟩
      · intro id s₂ h
        rcases h with ⟨σ₁, now, s₃, hflushed, hs₃, hid, hs₂⟩
        refine ⟨_, ?_, ?_, hs.trans hs₂, ?_⟩
        · exact hflushed.toLike.trans ⟨fun _ => rfl, fun _ => rfl, rfl, rfl, fun _ _ => rfl⟩
        · constructor
          · intro i e he
            rw [← hflushed.events] at he
            have hi : i ≠ id := by
              have hbound := (hs₃.ok.events.row i e he).2
              rw [hid]
              exact Nat.ne_of_lt hbound
            simp only [NewRow.place, Function.update_of_ne hi]
            exact he
          · intro i hi
            simp only [NewRow.place, Function.update_of_ne hi]
            exact congrFun hflushed.events i
        · refine ⟨{ event with id := id }, Db.install_events_of_some ?_, rfl⟩
          simp [NewRow.place]

/-!
# Transactions

A transaction block commits what its body has done, which is then in the history of the thread.
An exception leaves that history as it was.
-/

variable {α : Type}

theorem runs_begin (hn : s.notes t = n) :
    Runs env allowed t Action.begin
      (fun _ s' => Grows s s' ∧ Within allowed t n s' {} s')
      (fun _ s' => s'.notes t = n) s := by
  apply safe_issue
  intro s' hinv hframe ch s'' r hexec
  have hg : guard env allowed s' t .begin ch := by
    cases ch with
    | fail e => trivial
    | proceed now vectors => exact ⟨trivial, fun _ _ => trivial⟩
  have hinv'' := exec_inv hinv hg hexec
  have hgrows := hframe.toGrows.trans (exec_grows hinv hg hexec)
  have hn' : s'.notes t = n := hframe.notes.trans hn
  refine ⟨hg, ?_⟩
  cases r with
  | error e =>
      rw [exec_error hexec]
      exact hn'
  | ok a =>
      cases ch with
      | fail e => cases hexec
      | proceed now vectors =>
          simp only [machine, exec, Command.outside, Bool.false_eq_true, if_false] at hexec
          split at hexec
          · cases hexec
          · cases hexec
            exact ⟨hgrows, hinv'', Advance.refl t _, hn', by simp [State.setSession]⟩

theorem runs_commit {note : Note} (hs : Within allowed t n s₀ σ s) (hclean : σ.Clean)
    (heffect : forall s', Within allowed t n s₀ σ s' -> σ.Effect env allowed s' t note) :
    Runs env allowed t (Action.commit note)
      (fun _ s' => Grows s s' ∧ s'.notes t = n ++ [note])
      (fun _ s' => s'.notes t = n) s := by
  apply safe_issue
  intro s' hinv hframe ch s'' r hexec
  have hs' : Within allowed t n s₀ σ s' := hs.frame hinv hframe
  have hg : guard env allowed s' t (.commit note) ch := by
    cases ch with
    | fail e => trivial
    | proceed now vectors =>
        refine ⟨trivial, fun τ hτ => ?_⟩
        rw [hs'.session, Option.some.injEq] at hτ
        subst hτ
        exact ⟨hclean, heffect s' hs'⟩
  refine ⟨hg, ?_⟩
  cases r with
  | error e =>
      rw [exec_error hexec]
      exact hs'.notes
  | ok a =>
      cases ch with
      | fail e => cases hexec
      | proceed now vectors =>
          have hgrows := exec_grows hinv hg hexec
          simp only [machine, exec, Command.outside, Bool.false_eq_true, if_false,
            hs'.session] at hexec
          cases hexec
          exact ⟨hframe.toGrows.trans hgrows, by rw [State.notes_commit_self, hs'.notes]⟩

theorem runs_rollback {Q : Unit -> State -> Prop} {X : Exception -> State -> Prop}
    (hn : s.notes t = n) (hQ : forall s', s'.notes t = n -> Q () s') :
    Runs env allowed t Action.rollback Q X s := by
  apply safe_issue
  intro s' hinv hframe ch s'' r hexec
  refine ⟨?_, ?_⟩
  · cases ch with
    | fail e => trivial
    | proceed now vectors => exact ⟨trivial, fun _ _ => trivial⟩
  · cases ch with
    | fail e => cases hexec
    | proceed now vectors =>
        simp only [machine, exec, Command.outside, Bool.false_eq_true, if_false] at hexec
        split at hexec
        · cases hexec
          exact hQ _ (hframe.notes.trans hn)
        · cases hexec

def Ended {ε β : Type} (Q : β -> State -> Prop) (X : ε -> State -> Prop) :
    Except ε β -> State -> Prop
  | .ok a, s => Q a s
  | .error e, s => X e s

/--
A transaction block commits what its body has done, which is then in the history
of the thread; an exception leaves that history as it was.
-/
theorem runs_transaction {note : α -> Note} {body : Action α} {R : α -> State -> Prop}
    (hn : s.notes t = n)
    (hbody : forall s₁, Grows s s₁ -> Within allowed t n s₁ {} s₁ ->
      Runs env allowed t body
        (fun a s₂ => exists σ, Within allowed t n s₂ σ s₂ ∧ R a s₂ ∧
          forall σ' s₃, σ.Flushed σ' -> Within allowed t n s₂ σ' s₃ ->
            σ'.Effect env allowed s₃ t (note a))
        (fun _ s₂ => s₂.notes t = n) s₁)
    (hR : forall a s₂ s₃, Grows s₂ s₃ -> R a s₂ -> R a s₃) :
    Runs env allowed t (Action.transaction note body)
      (fun a s' => R a s' ∧ s'.notes t = n ++ [note a])
      (fun _ s' => s'.notes t = n) s := by
  refine runs_then (runs_begin hn) (fun _ _ h => h) ?_
  intro _ s₁ h
  rcases h with ⟨hgrows, hs₁⟩
  refine runs_then (Y := fun _ _ => False)
    (P := Ended (fun a s' => R a s' ∧ s'.notes t = n ++ [note a]) fun _ s' => s'.notes t = n)
    (safe_outcome ?_) (fun _ _ h => h.elim) ?_
  · refine runs_then (hbody s₁ hgrows hs₁) (fun _ _ h => h) ?_
    intro a s₂ h
    rcases h with ⟨σ₂, hs₂, hRa, heffect⟩
    refine runs_then (runs_flush hs₂) (fun _ _ h => h) ?_
    intro _ s₃ h
    rcases h with ⟨σ₃, hflushed, hs₃⟩
    refine runs_then (runs_commit hs₃ hflushed.clean fun s' hs' => heffect σ₃ s' hflushed hs')
      (fun _ _ h => h) ?_
    intro _ s₄ h
    rcases h with ⟨hgrows₄, hnotes⟩
    exact runs_ret ⟨hR a s₂ s₄ (hs₃.advance.toGrows.trans hgrows₄) hRa, hnotes⟩
  · intro result s₂ hresult
    cases result with
    | ok a => exact runs_ret hresult
    | error e =>
        refine runs_then (Y := fun _ _ => False) (P := fun _ s' => s'.notes t = n)
          (runs_rollback hresult fun _ h => h) (fun _ _ h => h.elim) ?_
        intro _ s₃ h
        exact runs_raise h

end

end RagService
