import RagService.Discipline.Runs
import RagService.Foundation.TotalRuns
import RagService.Service.Rounds

/-!
# A task alone

A task that runs while no other transaction is open.  The database and the clock answer every
command; the storage, the broker and the provider may fail.  Each command of a task comes
back, and what the open transaction has in hand afterwards is known exactly.
-/

namespace RagService

open Interleaving Interleaving.Discipline RagService.Action

/-- The environment answers every command, and only what is outside the database may fail. -/
structure Reliable (E : Command -> Choice -> Prop) : Prop where
  answers : forall c, exists ch, E c ch
  fails : forall {c e}, E c (.fail e) -> c.outside = true ∧ c ≠ .now

/-- A transaction is open, alone: what it has in hand, and the state around it. -/
structure State.Inside (t : Nat) (s : State) (σ : Session) (x : State) : Prop where
  db : x.db = s.db
  storage : x.storage = s.storage
  broker : x.broker = s.broker
  nextId : s.nextId ≤ x.nextId
  session : x.sessions t = some σ
  others : forall u, u ≠ t -> x.sessions u = none
  locks : forall r, x.locks r = none ∨ x.locks r = some t

/-- No transaction is open any more, and the database is this one. -/
structure State.Leaves (s : State) (db : Db) (x : State) : Prop where
  free : forall t, x.sessions t = none
  locks : forall r, x.locks r = none
  db : x.db = db
  storage : x.storage = s.storage
  broker : x.broker = s.broker
  nextId : s.nextId ≤ x.nextId

section

variable {t : Nat} {s x y : State} {σ : Session} {db : Db}

theorem State.Leaves.idle (h : s.Leaves db x) : x.Idle :=
  ⟨h.free, h.locks⟩

theorem State.Idle.leaves (h : s.Idle) : s.Leaves s.db s :=
  ⟨h.sessions, h.locks, rfl, rfl, rfl, Nat.le_refl _⟩

theorem State.Leaves.trans {s' : State} {db' : Db} (h : s.Leaves db s') (h' : s'.Leaves db' x) :
    s.Leaves db' x where
  free := h'.free
  locks := h'.locks
  db := h'.db
  storage := h'.storage.trans h.storage
  broker := h'.broker.trans h.broker
  nextId := Nat.le_trans h.nextId h'.nextId

namespace State.Inside

theorem lockable (h : State.Inside t s σ x) (r : Resource) : x.lockable t r = true := by
  unfold State.lockable
  cases h.locks r with
  | inl hfree => simp [hfree]
  | inr hown => simp [hown]

theorem acquire (h : State.Inside t s σ x) (rs : List Resource) :
    State.Inside t s σ (x.acquire t rs) where
  db := h.db
  storage := h.storage
  broker := h.broker
  nextId := h.nextId
  session := h.session
  others := h.others
  locks := by
    intro r
    unfold State.acquire
    dsimp only
    split
    · exact .inr rfl
    · exact h.locks r

theorem setSession (h : State.Inside t s σ x) (σ' : Session) :
    State.Inside t s σ' (x.setSession t σ') where
  db := h.db
  storage := h.storage
  broker := h.broker
  nextId := h.nextId
  session := Function.update_self ..
  others := fun u hu => (Function.update_of_ne hu _ _).trans (h.others u hu)
  locks := h.locks

theorem draw (h : State.Inside t s σ x) (n : Nat) :
    State.Inside t s σ { x with nextId := x.nextId + n } where
  db := h.db
  storage := h.storage
  broker := h.broker
  nextId := Nat.le_trans h.nextId (Nat.le_add_right _ _)
  session := h.session
  others := h.others
  locks := h.locks

theorem bound (h : State.Inside t s σ x) {n : Nat} (hn : n ≤ x.nextId) :
    State.Inside t { s with nextId := n } σ x where
  db := h.db
  storage := h.storage
  broker := h.broker
  nextId := hn
  session := h.session
  others := h.others
  locks := h.locks

theorem store (h : State.Inside t s σ x) (storage : Text -> Option Bytes) :
    State.Inside t { s with storage := storage } σ { x with storage := storage } where
  db := h.db
  storage := rfl
  broker := h.broker
  nextId := h.nextId
  session := h.session
  others := h.others
  locks := h.locks

theorem send (h : State.Inside t s σ x) (sent : List Message) :
    State.Inside t { s with broker := s.broker ++ sent } σ
      { x with broker := x.broker ++ sent } where
  db := h.db
  storage := h.storage
  broker := congrArg (· ++ sent) h.broker
  nextId := h.nextId
  session := h.session
  others := h.others
  locks := h.locks

theorem close (h : State.Inside t s σ x) : s.Leaves s.db (x.close t) where
  free := by
    intro u
    show Function.update x.sessions t none u = none
    by_cases hu : u = t
    · rw [hu, Function.update_self]
    · rw [Function.update_of_ne hu, h.others u hu]
  locks := by
    intro r
    show (if x.locks r = some t then none else x.locks r) = none
    split
    · rfl
    · rename_i hother
      exact (h.locks r).resolve_right hother
  db := h.db
  storage := h.storage
  broker := h.broker
  nextId := h.nextId

theorem commit (h : State.Inside t s σ x) (note : Note) :
    s.Leaves (s.db.install σ.writes) (x.commit t note σ) where
  free := h.close.free
  locks := h.close.locks
  db := by
    show x.db.install σ.writes = _
    rw [h.db]
  storage := h.storage
  broker := h.broker
  nextId := h.nextId

end State.Inside

/-!
# Reachable states

A reachable state in which no transaction is open holds no lock, and the keys drawn so far stay
below those to come.
-/

def State.LocksOpen (s : State) : Prop :=
  forall r u, s.locks r = some u -> s.sessions u ≠ none

theorem State.LocksOpen.close (h : s.LocksOpen) : (s.close t).LocksOpen := by
  intro r u hr
  change (if s.locks r = some t then none else s.locks r) = some u at hr
  show Function.update s.sessions t none u ≠ none
  split at hr
  · cases hr
  · rename_i hother
    have hu : u ≠ t := by
      intro heq
      rw [heq] at hr
      exact hother hr
    rw [Function.update_of_ne hu]
    exact h r u hr

theorem State.LocksOpen.work (h : s.LocksOpen) (rs : List Resource) (n : Nat) :
    (s.work t rs n σ).LocksOpen := by
  intro r u hr
  show Function.update s.sessions t (some σ) u ≠ none
  by_cases hu : u = t
  · rw [hu, Function.update_self]
    exact Option.some_ne_none σ
  · rw [Function.update_of_ne hu]
    change (if r ∈ rs then some t else s.locks r) = some u at hr
    split at hr
    · cases hr
      exact absurd rfl hu
    · exact h r u hr

theorem idle_of_quiet {env : Env} {last : RagConfig}
    (hrun : System.Reaches (system env) (system env).anyRun initial last)
    (hquiet : last.shared.Quiet) : last.shared.Idle where
  sessions := hquiet
  locks := by
    have hfirst : Discipline.Sound (S := system env) (discipline env fun _ => True) initial :=
      initial_sound
    have hlocks : last.shared.LocksOpen := by
      refine commands_preserve (fun _ _ _ _ => trivial) State.LocksOpen ?_ (fun h => h.close)
        hfirst (fun r u hr => by cases hr) hrun
      intro cfg t c now vectors s' _ _ _ h hstep
      cases hstep with
      | commit note σ hσ => exact h.close
      | rollback => exact h.close
      | begin => exact h.work [] _
      | statement σ rs n σ' => exact h.work rs n
      | nothing | putObject | deleteObject | send => exact h
    intro r
    cases hr : last.shared.locks r with
    | none => rfl
    | some u => exact absurd (hquiet u) (hlocks r u hr)

theorem document_of_reaches {env : Env} {last : RagConfig}
    (hrun : System.Reaches (system env) (system env).anyRun initial last) {i : Nat}
    {d : Document} (hd : last.shared.db.documents i = some d) :
    d.id = i ∧ d.id < last.shared.nextId ∧ d.deleted = 0 := by
  have hsound : Discipline.Sound (S := system env) (discipline env fun _ => True) last :=
    reaches_sound (fun _ _ _ _ => trivial) hrun
  have hinv := hsound.inv
  rcases hinv.coherent.document i d hd with ⟨rfl, hlive⟩
  exact ⟨rfl, hinv.bounded _ (hinv.known _ d hd), hlive⟩

/-!
# Commands

Each statement goes through, and what the transaction has in hand after it is known: locking
reads find what is committed, and inserts find their index entries free.
-/

variable {E : Command -> Choice -> Prop}

theorem finishes_perform (hE : Reliable E) (hx : State.Inside t s σ x) {c : Command}
    (hc : c.outside = false) {Q : Except Exception c.Result -> State -> Prop}
    (h : forall now, exists x' r, x.perform t σ now c = some (x', r) ∧ Q r x') :
    Finishes machine t E (Program.issue (I := interface) c) Q x := by
  apply finishes_issue (hE.answers c)
  intro ch hch
  cases ch with
  | fail e =>
      have houtside := (hE.fails hch).1
      rw [hc] at houtside
      cases houtside
  | proceed now vectors =>
      rcases h now with ⟨x', r, hperform, hQ⟩
      refine ⟨x', r, ?_, hQ⟩
      show exec t c (.proceed now vectors) x = _
      simp only [exec, hc, hx.session, Bool.false_eq_true, if_false]
      exact hperform

theorem finishes_begin (hE : Reliable E) (hs : s.Idle) :
    Finishes machine t E begin (fun out x => out = .ok () ∧ State.Inside t s {} x) s := by
  apply finishes_issue (hE.answers .begin)
  intro ch hch
  cases ch with
  | fail e => cases (hE.fails hch).1
  | proceed now vectors =>
      refine ⟨s.setSession t {}, .ok (), ?_, rfl, ?_⟩
      · show exec t .begin (.proceed now vectors) s = _
        simp only [exec, Command.outside, hs.sessions t, Bool.false_eq_true, if_false]
        rfl
      · exact ⟨rfl, rfl, rfl, Nat.le_refl _, Function.update_self ..,
          fun u hu => (Function.update_of_ne hu _ _).trans (hs.sessions u),
          fun r => .inl (hs.locks r)⟩

theorem finishes_commit (hE : Reliable E) (hx : State.Inside t s σ x) (note : Note) :
    Finishes machine t E (Action.commit note)
      (fun out y => out = .ok () ∧ s.Leaves (s.db.install σ.writes) y) x :=
  finishes_perform hE hx rfl fun _ => ⟨_, _, rfl, rfl, hx.commit note⟩

theorem finishes_rollback (hE : Reliable E) (hx : State.Inside t s σ x) :
    Finishes machine t E Action.rollback (fun out y => out = .ok () ∧ s.Leaves s.db y) x :=
  finishes_perform hE hx rfl fun _ => ⟨_, _, rfl, rfl, hx.close⟩

theorem finishes_assign (hE : Reliable E) (hx : State.Inside t s σ x) {i : Nat}
    {e : Entry Document} (he : σ.documents i = some e) (f : Document -> Document) :
    Finishes machine t E (Action.assign i f)
      (fun out x' => out = .ok () ∧ State.Inside t s
        { σ with
          documents := Function.update σ.documents i (some { e with current := f e.current }) }
        x') x := by
  apply finishes_perform hE hx rfl
  intro now
  refine ⟨_, _, ?_, rfl, hx.setSession _⟩
  simp only [State.perform, he]
  rfl

theorem finishes_lock_live (hE : Reliable E) (hx : State.Inside t s {} x) {i : Nat}
    {d : Document} (hd : s.db.documents i = some d) (hlive : d.deleted = 0) :
    Finishes machine t E (Action.lock (.live i))
      (fun out x' => out = .ok [d] ∧ State.Inside t s (Session.ofDocument d) x') x := by
  apply finishes_perform hE hx rfl
  intro now
  have hrows : LockQuery.rows x t (.live i) = some [d] := by
    simp only [LockQuery.rows, hx.db, hd, Option.filter, hlive, decide_true, if_true,
      hx.lockable]
  refine ⟨_, _, ?_, rfl, (hx.acquire [.document d.id]).setSession _⟩
  simp only [State.perform, hrows, List.map_cons, List.map_nil, loadEntries_singleton,
    Session.ofDocument]
  rfl

theorem finishes_getLiveForUpdate (hE : Reliable E) (hx : State.Inside t s {} x) {i : Nat}
    {d : Document} (hd : s.db.documents i = some d) (hlive : d.deleted = 0) :
    Finishes machine t E (DocumentService.getLiveForUpdate i)
      (fun out y => out = .ok (some d) ∧ State.Inside t s (Session.ofDocument d) y) x := by
  refine (finishes_lock_live hE hx hd hlive).bind ?_ ?_
  · intro e y h
    cases h.1
  · intro documents y h
    cases h.1
    exact ⟨rfl, h.2⟩

theorem finishes_deleteChunks (hE : Reliable E) (hx : State.Inside t s σ x) (i : Nat) :
    Finishes machine t E (Action.deleteChunks i)
      (fun out x' => out = .ok () ∧ State.Inside t s
        { σ with
          writes := { σ.writes with chunks := Function.update σ.writes.chunks i (some []) } }
        x') x :=
  finishes_perform hE hx rfl fun _ => ⟨_, _, rfl, rfl, hx.setSession _⟩

theorem finishes_insertChunks (hE : Reliable E) (hx : State.Inside t s σ x) (i : Nat)
    (rows : List Chunk)
    (hkeys : forall n, ((s.db.install σ.writes).chunks i ++ numberChunks n rows).Pairwise
      fun a b => a.clashes b = false) :
    Finishes machine t E (Action.insertChunks i rows)
      (fun out x' => exists n, out = .ok ((numberChunks n rows).map Chunk.id) ∧
        State.Inside t s
          { σ with
            writes :=
              { σ.writes with
                chunks := Function.update σ.writes.chunks i
                  (some ((s.db.install σ.writes).chunks i ++ numberChunks n rows)) } }
          x') x := by
  apply finishes_perform hE hx rfl
  intro now
  refine ⟨_, _, ?_, x.nextId, rfl, (hx.setSession _).draw rows.length⟩
  simp only [State.perform, hx.db, if_pos (hkeys x.nextId)]
  rfl

theorem finishes_update (hE : Reliable E) (hx : State.Inside t s σ x) {i : Nat}
    {e : Entry Document} (he : σ.documents i = some e) {base : Document}
    (hbase : s.db.documents i = some base) :
    Finishes machine t E (Action.update i)
      (fun out x' => out = .ok () ∧ exists now, State.Inside t s
        { σ with
          documents := Function.update σ.documents i (some { e with flushed := e.current })
          writes :=
            { σ.writes with
              documents := Function.update σ.writes.documents i
                (some (some (Document.write e.loaded e.current base now))) } }
        x') x := by
  apply finishes_perform hE hx rfl
  intro now
  refine ⟨_, _, ?_, rfl, now, (hx.acquire [.document i]).setSession _⟩
  simp only [State.perform, he, hx.db, hbase, hx.lockable, if_true]
  rfl

theorem finishes_dirty (hE : Reliable E) (hx : State.Inside t s σ x) :
    Finishes machine t E Action.dirty
      (fun out y => y = x ∧ out = .ok (dirtyIds σ.documents x.nextId)) x :=
  finishes_perform hE hx rfl fun _ => ⟨_, _, rfl, rfl, rfl⟩

theorem finishes_dirtyKnowledgeBases (hE : Reliable E) (hx : State.Inside t s σ x) :
    Finishes machine t E Action.dirtyKnowledgeBases
      (fun out y => y = x ∧ out = .ok (dirtyIds σ.knowledgeBases x.nextId)) x :=
  finishes_perform hE hx rfl fun _ => ⟨_, _, rfl, rfl, rfl⟩

theorem finishes_remove (hE : Reliable E) (hx : State.Inside t s σ x) {i : Nat} {d : Document}
    (hd : s.db.documents i = some d) :
    Finishes machine t E (Action.remove i)
      (fun out x' => out = .ok () ∧ State.Inside t s
        { σ with
          documents := Function.update σ.documents i none
          writes :=
            { σ.writes with
              documents := Function.update σ.writes.documents i (some none) } }
        x') x := by
  apply finishes_perform hE hx rfl
  intro now
  refine ⟨_, _, ?_, rfl,
    (hx.acquire [.document i, .storageKey d.storageKey]).setSession _⟩
  simp only [State.perform, hx.db, hd, hx.lockable, and_self, if_true]
  rfl

theorem finishes_select (hE : Reliable E) (hx : State.Inside t s σ x) (q : Query) :
    Finishes machine t E (Action.select q)
      (fun out y => y = x ∧ out = .ok (q.answer (s.db.install σ.writes) x.nextId)) x := by
  apply finishes_perform hE hx rfl
  intro now
  refine ⟨x, .ok (q.answer (s.db.install σ.writes) x.nextId), ?_, rfl, rfl⟩
  simp only [State.perform, hx.db]

theorem finishes_loadKnowledgeBase (hE : Reliable E) (hx : State.Inside t s {} x)
    {pk userId : Nat} {isAdmin write : Bool} {kb : KnowledgeBase}
    (hkb : s.db.getAuthorized pk userId isAdmin write = some kb) :
    Finishes machine t E (Action.loadKnowledgeBase pk userId isAdmin write)
      (fun out y => out = .ok (some kb) ∧ State.Inside t s (Session.ofKnowledgeBase kb) y) x := by
  apply finishes_perform hE hx rfl
  intro now
  have hrow : (x.db.install ({} : Session).writes).getAuthorized pk userId isAdmin write =
      some kb := by
    rw [hx.db]
    exact hkb
  refine ⟨_, .ok (some kb), ?_, rfl, hx.setSession _⟩
  simp only [State.perform, hrow, Option.toList, loadEntries_singleton]
  rfl

theorem finishes_insert (hE : Reliable E) (hx : State.Inside t s σ x) {row : NewRow}
    (hfree : (s.db.install σ.writes).hasKey x.nextId row.uniqueKey = false) :
    Finishes machine t E (Action.insert row)
      (fun out y => exists now, out = .ok x.nextId ∧ y.nextId = x.nextId + 1 ∧
        State.Inside t s { σ with writes := row.place x.nextId now σ.writes } y) x := by
  apply finishes_perform hE hx rfl
  intro now
  refine ⟨_, .ok x.nextId, ?_, now, rfl, rfl,
    ((hx.acquire [row.uniqueKey, row.resource x.nextId]).setSession _).draw 1⟩
  simp only [State.perform, hx.db, hx.lockable, hfree, and_self, if_true, Bool.false_eq_true,
    if_false]
  rfl

theorem finishes_updateEvent (hE : Reliable E) (hx : State.Inside t s σ x) (row : OutboxEvent) :
    Finishes machine t E (Action.updateEvent row)
      (fun out y => out = .ok () ∧ State.Inside t s
        { σ with
          writes :=
            { σ.writes with events := Function.update σ.writes.events row.id (some row) } } y)
      x := by
  apply finishes_perform hE hx rfl
  intro now
  refine ⟨_, .ok (), ?_, rfl, (hx.acquire [.event row.id]).setSession _⟩
  simp only [State.perform, hx.lockable, if_true]

/-!
# Storage, broker, provider and clock

A message reaches the broker or is refused, an object is stored or unlinked or the storage
refuses, and a read gives what is stored or what the storage raises.
-/

theorem finishes_outside (hE : Reliable E) {c : Command} (hc : c.outside = true)
    {Q : Except Exception c.Result -> State -> Prop}
    (hfail : forall e, E c (.fail e) -> Q (.error e) x)
    (h : forall now vectors, E c (.proceed now vectors) ->
      exists x' r, x.performOutside now vectors c = some (x', r) ∧ Q r x') :
    Finishes machine t E (Program.issue (I := interface) c) Q x := by
  apply finishes_issue (hE.answers c)
  intro ch hch
  cases ch with
  | fail e =>
      refine ⟨x, .error e, ?_, hfail e hch⟩
      cases c with
      | rollback => cases hc
      | _ => rfl
  | proceed now vectors =>
      rcases h now vectors hch with ⟨x', r, hperform, hQ⟩
      refine ⟨x', r, ?_, hQ⟩
      show exec t c (.proceed now vectors) x = _
      simp only [exec, hc, if_true]
      exact hperform

theorem finishes_now (hE : Reliable E) :
    Finishes machine t E Action.now (fun out y => y = x ∧ exists time vectors,
      E .now (.proceed time vectors) ∧ out = .ok time) x := by
  apply finishes_outside hE rfl
  · intro e he
    exact absurd rfl (hE.fails he).2
  · intro now vectors hch
    exact ⟨x, _, rfl, rfl, now, vectors, hch, rfl⟩

theorem finishes_send (hE : Reliable E) (m : Message) :
    Finishes machine t E (Action.send m)
      (fun out y => (out = .ok () ∧ y = { x with broker := x.broker ++ [m] }) ∨
        exists e, E (.send m) (.fail e) ∧ out = .error e ∧ y = x) x := by
  apply finishes_outside hE rfl
  · intro e he
    exact .inr ⟨e, he, rfl, rfl⟩
  · intro now vectors _
    exact ⟨_, _, rfl, .inl ⟨rfl, rfl⟩⟩

def State.ReadFails (E : Command -> Choice -> Prop) (s : State) (key : Text) (e : Exception) :
    Prop :=
  E (.getObject key) (.fail e) ∨ (s.storage key = none ∧ e = .fileNotFound)

theorem finishes_getObject (hE : Reliable E) (key : Text) :
    Finishes machine t E (Action.getObject key)
      (fun out y => y = x ∧ (forall content, out = .ok content -> x.storage key = some content) ∧
        forall e, out = .error e -> x.ReadFails E key e) x := by
  apply finishes_outside hE rfl
  · intro e he
    refine ⟨rfl, ?_, ?_⟩
    · intro content hcontent
      cases hcontent
    · intro e' he'
      cases he'
      exact .inl he
  · intro now vectors _
    cases hobject : x.storage key with
    | none =>
        refine ⟨x, .error .fileNotFound, ?_, rfl, ?_, ?_⟩
        · simp only [State.performOutside, hobject]
        · intro content hcontent
          cases hcontent
        · intro e he
          cases he
          exact .inr ⟨hobject, rfl⟩
    | some content =>
        refine ⟨x, .ok content, ?_, rfl, ?_, ?_⟩
        · simp only [State.performOutside, hobject]
        · intro content' hcontent
          cases hcontent
          rfl
        · intro e he
          cases he

theorem finishes_putObject (hE : Reliable E) (key : Text) (content : Bytes) :
    Finishes machine t E (Action.putObject key content)
      (fun out y =>
        (out = .ok () ∧ y = { x with storage := Function.update x.storage key (some content) }) ∨
          exists e, E (.putObject key content) (.fail e) ∧ out = .error e ∧ y = x) x := by
  apply finishes_outside hE rfl
  · intro e he
    exact .inr ⟨e, he, rfl, rfl⟩
  · intro now vectors _
    exact ⟨_, _, rfl, .inl ⟨rfl, rfl⟩⟩

theorem finishes_deleteObject (hE : Reliable E) (key : Text) :
    Finishes machine t E (Action.deleteObject key)
      (fun out y =>
        (out = .ok () ∧ y = { x with storage := Function.update x.storage key none }) ∨
          exists e, E (.deleteObject key) (.fail e) ∧ out = .error e ∧ y = x) x := by
  apply finishes_outside hE rfl
  · intro e he
    exact .inr ⟨e, he, rfl, rfl⟩
  · intro now vectors _
    exact ⟨_, _, rfl, .inl ⟨rfl, rfl⟩⟩

end

/-!
# Flush

A flush writes the changed columns of every document in hand, each at its own time, and has
nothing to do where nothing has been changed.
-/

def Session.flushedEntries (σ : Session) (ids : List Nat) : Nat -> Option (Entry Document) :=
  fun i =>
    if i ∈ ids then (σ.documents i).map fun e => { e with flushed := e.current }
    else σ.documents i

def Session.flushedRows (σ : Session) (db : Db) (ids : List Nat) (clock : Nat -> Nat) :
    Nat -> Option (Option Document) :=
  fun i =>
    if i ∈ ids then
      match σ.documents i, db.documents i with
      | some e, some base => some (some (Document.write e.loaded e.current base (clock i)))
      | _, _ => σ.writes.documents i
    else σ.writes.documents i

def Session.flush (σ : Session) (db : Db) (ids : List Nat) (clock : Nat -> Nat) : Session :=
  { σ with
    documents := σ.flushedEntries ids
    writes := { σ.writes with documents := σ.flushedRows db ids clock } }

/-- Every document in hand has its row, and no knowledge base in hand has been changed. -/
structure Session.Flushable (σ : Session) (db : Db) : Prop where
  rows : forall i e, σ.documents i = some e -> db.documents i ≠ none
  bases : forall i e, σ.knowledgeBases i = some e -> e.flushed = e.current

theorem mem_dirtyIds {ρ : Type} [DecidableEq ρ] {entries : Nat -> Option (Entry ρ)} {n i : Nat} :
    i ∈ dirtyIds entries n ↔ i < n ∧ exists e, entries i = some e ∧ e.current ≠ e.flushed := by
  rw [dirtyIds, List.mem_filter, List.mem_range]
  cases entries i with
  | none => simp
  | some e => simp

theorem dirtyIds_clean {ρ : Type} [DecidableEq ρ] {entries : Nat -> Option (Entry ρ)}
    (h : forall i e, entries i = some e -> e.flushed = e.current) (n : Nat) :
    dirtyIds entries n = [] := by
  rw [List.eq_nil_iff_forall_not_mem]
  intro i hi
  rcases (mem_dirtyIds.mp hi).2 with ⟨e, he, hne⟩
  exact hne (h i e he).symm

theorem dirtyIds_nodup {ρ : Type} [DecidableEq ρ] (entries : Nat -> Option (Entry ρ)) (n : Nat) :
    (dirtyIds entries n).Nodup :=
  List.nodup_range.filter _

section

variable {t : Nat} {s x y : State} {σ : Session} {E : Command -> Choice -> Prop}
variable {ids : List Nat} {clock : Nat -> Nat}

theorem Session.flush_nil (σ : Session) (db : Db) (clock : Nat -> Nat) :
    σ.flush db [] clock = σ := by
  have hentries : σ.flushedEntries [] = σ.documents :=
    funext fun i => if_neg List.not_mem_nil
  have hrows : σ.flushedRows db [] clock = σ.writes.documents :=
    funext fun i => if_neg List.not_mem_nil
  simp only [Session.flush, hentries, hrows]

theorem Session.flush_documents {db : Db} {i : Nat} (hi : i ∉ ids) :
    (σ.flush db ids clock).documents i = σ.documents i :=
  if_neg hi

theorem Session.flushedEntries_concat {i : Nat} {e : Entry Document}
    (he : σ.documents i = some e) :
    Function.update (σ.flushedEntries ids) i (some { e with flushed := e.current }) =
      σ.flushedEntries (ids ++ [i]) := by
  funext j
  unfold Session.flushedEntries
  by_cases hj : j = i
  · subst j
    simp [he]
  · simp [hj]

theorem Session.flushedRows_concat {db : Db} {i now : Nat} {e : Entry Document}
    {base : Document} (he : σ.documents i = some e) (hbase : db.documents i = some base) :
    Function.update (σ.flushedRows db ids clock) i
        (some (some (Document.write e.loaded e.current base now))) =
      σ.flushedRows db (ids ++ [i]) (Function.update clock i now) := by
  funext j
  unfold Session.flushedRows
  by_cases hj : j = i
  · subst j
    simp [he, hbase]
  · simp [hj]

theorem Session.flush_concat {db : Db} {i now : Nat} {e : Entry Document} {base : Document}
    (he : σ.documents i = some e) (hbase : db.documents i = some base) :
    { σ.flush db ids clock with
      documents := Function.update (σ.flushedEntries ids) i
        (some { e with flushed := e.current })
      writes :=
        { (σ.flush db ids clock).writes with
          documents := Function.update (σ.flushedRows db ids clock) i
            (some (some (Document.write e.loaded e.current base now))) } } =
      σ.flush db (ids ++ [i]) (Function.update clock i now) := by
  rw [Session.flushedEntries_concat he, Session.flushedRows_concat he hbase]
  rfl

theorem finishes_flush (hE : Reliable E) (hx : State.Inside t s σ x)
    (hflush : σ.Flushable s.db) :
    Finishes machine t E Action.flush
      (fun out y => out = .ok () ∧ exists n clock, s.nextId ≤ n ∧
        State.Inside t s (σ.flush s.db (dirtyIds σ.documents n) clock) y) x := by
  -- the documents to do are those that have not been flushed
  have hdocuments : Finishes machine t E
      (Program.forEach (dirtyIds σ.documents x.nextId) Action.update)
      (fun out y => out = .ok () ∧ exists done clock, done ++ [] = dirtyIds σ.documents x.nextId ∧
        State.Inside t s (σ.flush s.db done clock) y) x := by
    apply finishes_forEach fun rest y => exists done clock,
      done ++ rest = dirtyIds σ.documents x.nextId ∧
        State.Inside t s (σ.flush s.db done clock) y
    · intro i rest y hy
      rcases hy with ⟨done, clock, hdone, hy⟩
      have hmem : i ∈ dirtyIds σ.documents x.nextId := by
        rw [← hdone]
        exact List.mem_append_right _ List.mem_cons_self
      rcases (mem_dirtyIds.mp hmem).2 with ⟨e, he, -⟩
      have hnew : i ∉ done := by
        have hnodup := dirtyIds_nodup σ.documents x.nextId
        rw [← hdone, List.nodup_append] at hnodup
        intro hi
        exact hnodup.2.2 i hi i List.mem_cons_self rfl
      rcases Option.ne_none_iff_exists'.mp (hflush.rows i e he) with ⟨base, hbase⟩
      have hentry : (σ.flush s.db done clock).documents i = some e :=
        (Session.flush_documents hnew).trans he
      refine (finishes_update hE hy hentry hbase).mono fun out z h => ?_
      rcases h with ⟨hout, now, hz⟩
      refine ⟨hout, done ++ [i], Function.update clock i now, ?_, ?_⟩
      · rw [List.append_assoc]
        exact hdone
      · rw [← Session.flush_concat he hbase]
        exact hz
    · exact ⟨[], fun _ => 0, rfl, by rwa [Session.flush_nil]⟩
  refine (finishes_dirty hE hx).bind ?_ ?_
  · intro e y h
    cases h.2
  · intro documents y h
    rcases h with ⟨rfl, hok⟩
    cases hok
    refine hdocuments.bind ?_ ?_
    · intro e z h
      cases h.1
    · intro _ z h
      rcases h with ⟨-, done, clock, hdone, hz⟩
      rw [List.append_nil] at hdone
      subst hdone
      have hbases : dirtyIds (σ.flush s.db (dirtyIds σ.documents y.nextId) clock).knowledgeBases
          z.nextId = [] :=
        dirtyIds_clean hflush.bases z.nextId
      refine (finishes_dirtyKnowledgeBases hE hz).bind ?_ ?_
      · intro e y' h
        cases h.2
      · intro knowledgeBases y' h
        rcases h with ⟨rfl, hok⟩
        rw [hbases] at hok
        cases hok
        exact ⟨rfl, y.nextId, clock, hx.nextId, hz⟩

theorem finishes_flush_clean (hE : Reliable E) (hx : State.Inside t s σ x) (hclean : σ.Clean) :
    Finishes machine t E Action.flush (fun out y => out = .ok () ∧ y = x) x := by
  refine (finishes_dirty hE hx).bind ?_ ?_
  · intro e y h
    cases h.2
  · intro documents y h
    rcases h with ⟨rfl, hok⟩
    rw [dirtyIds_clean hclean.documents] at hok
    cases hok
    refine (finishes_dirtyKnowledgeBases hE hx).bind ?_ ?_
    · intro e z h
      cases h.2
    · intro knowledgeBases z h
      rcases h with ⟨rfl, hok⟩
      rw [dirtyIds_clean hclean.knowledgeBases] at hok
      cases hok
      exact ⟨rfl, rfl⟩

theorem finishes_add (row : NewRow) (hE : Reliable E) (hx : State.Inside t s σ x)
    (hclean : σ.Clean)
    (hfree : (s.db.install σ.writes).hasKey x.nextId row.uniqueKey = false) :
    Finishes machine t E (Action.add row)
      (fun out y => exists now, out = .ok x.nextId ∧ y.nextId = x.nextId + 1 ∧
        State.Inside t s { σ with writes := row.place x.nextId now σ.writes } y) x := by
  refine (finishes_flush_clean hE hx hclean).bind ?_ ?_
  · intro e y h
    cases h.1
  · intro _ y h
    rw [h.2]
    exact finishes_insert hE hx hfree

/-!
# Transactions

A transaction alone commits what its body has done, or takes it back.
-/

def Closes {α : Type} (t : Nat) (Q : Except Exception α -> State -> Prop) :
    Except Exception α -> State -> Prop
  | .ok a, x => exists s σ, State.Inside t s σ x ∧ σ.Flushable s.db ∧
      forall n clock y, s.nextId ≤ n ->
        s.Leaves (s.db.install (σ.flush s.db (dirtyIds σ.documents n) clock).writes) y ->
        Q (.ok a) y
  | .error e, x => exists s σ, State.Inside t s σ x ∧ forall y, s.Leaves s.db y -> Q (.error e) y

/-- A transaction alone commits what its body has done, or takes it back. -/
theorem finishes_transaction {α : Type} (hE : Reliable E) (hs : s.Idle) {note : α -> Note}
    {body : Action α} {Q : Except Exception α -> State -> Prop}
    (hbody : forall x, State.Inside t s {} x -> Finishes machine t E body (Closes t Q) x) :
    Finishes machine t E (Action.transaction note body) Q s := by
  refine (finishes_begin hE hs).bind ?_ ?_
  · intro e x h
    cases h.1
  · intro _ x h
    have hrun : Finishes machine t E
        (body.bind fun a => Action.flush.bind fun _ => (Action.commit (note a)).bind fun _ =>
          Program.ret a)
        (fun out y => (exists a, out = .ok a ∧ Q (.ok a) y) ∨
          exists e, out = .error e ∧ Closes t Q (.error e) y) x := by
      refine (hbody x h.2).bind ?_ ?_
      · intro e y hclose
        exact .inr ⟨e, rfl, hclose⟩
      · intro a y hclose
        rcases hclose with ⟨s', σ, hy, hflush, hQ⟩
        refine (finishes_flush hE hy hflush).bind ?_ ?_
        · intro e z hz
          cases hz.1
        · intro _ z hz
          rcases hz with ⟨-, n, clock, hn, hz⟩
          refine (finishes_commit hE hz (note a)).bind ?_ ?_
          · intro e w hw
            cases hw.1
          · intro _ w hw
            exact .inl ⟨a, rfl, hQ n clock w hn hw.2⟩
    refine hrun.outcome.bind ?_ ?_
    · intro e y hy
      rcases hy with ⟨r, hr, -⟩
      cases hr
    · intro out y hy
      rcases hy with ⟨r, hr, hout⟩
      cases hr
      rcases hout with ⟨a, rfl, hQ⟩ | ⟨e, rfl, s', σ, hy, hQ⟩
      · exact hQ
      · refine (finishes_rollback hE hy).bind ?_ ?_
        · intro e' z hz
          cases hz.1
        · intro _ z hz
          exact hQ z hz.2

end

end RagService
