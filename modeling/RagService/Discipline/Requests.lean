import RagService.Discipline.Patterns

/-!
# The requests meet their guards

Knowledge base and document requests, each in one transaction.
-/

namespace RagService

open Interleaving Interleaving.Discipline OutboxService IndexProfileService

/-!
# Identity maps of one object

An authorized read leaves one object in the session.  What is then assigned to a document is
about that document only, and a request stays in the outbox as its transaction sees it.
-/

theorem loadEntries_singleton {ρ : Type} (key : ρ -> Nat) (row : ρ) :
    loadEntries key (fun _ => none) [row] =
      Function.update (fun _ => none) (key row) (some (Entry.fresh row)) := by
  funext i
  by_cases hi : key row = i
  · subst i
    simp [loadEntries]
  · simp [loadEntries, hi, Function.update_of_ne (Ne.symm hi)]

def Session.ofKnowledgeBase (kb : KnowledgeBase) : Session :=
  { knowledgeBases := Function.update (fun _ => none) kb.id (some (Entry.fresh kb)) }

theorem Session.ofKnowledgeBase_entry {kb : KnowledgeBase} {i : Nat} {e : Entry KnowledgeBase}
    (h : (Session.ofKnowledgeBase kb).knowledgeBases i = some e) :
    i = kb.id ∧ e = Entry.fresh kb := by
  by_cases hi : i = kb.id
  · subst i
    simp only [Session.ofKnowledgeBase, Function.update_self, Option.some.injEq] at h
    exact ⟨rfl, h.symm⟩
  · simp [Session.ofKnowledgeBase, Function.update_of_ne hi] at h

theorem Session.ofKnowledgeBase_keepsDeleted (kb : KnowledgeBase) :
    (Session.ofKnowledgeBase kb).KeepsDeleted := by
  intro i e he
  rw [(Session.ofKnowledgeBase_entry he).2]
  rfl

/-- The session is about one document, and writes nothing but that and requests. -/
structure Session.About (σ : Session) (d : Nat) (loaded current : Document) : Prop
    extends Session.Focus σ d loaded current where
  chunks : σ.KeepsChunks
  deleted : σ.KeepsDeleted

section

variable {env : Env} {allowed : Settings -> Prop} {t : Nat} {n : List Note}
variable {s₀ s s' : State} {σ σ' : Session}

theorem Session.About.like {d : Nat} {loaded current : Document}
    (h : σ.About d loaded current) (hlike : σ.Like σ') : σ'.About d loaded current :=
  ⟨hlike.focus h.toFocus, hlike.keepsChunks h.chunks, hlike.keepsDeleted h.deleted⟩

theorem Session.Focus.assign {d : Nat} {loaded current : Document} {flushed : Document}
    (h : σ.Focus d loaded current) (f : Document -> Document) :
    ({ σ with
      documents :=
        Function.update σ.documents d (some ⟨loaded, flushed, f current⟩) } : Session).Focus
      d loaded (f current) where
  entry := ⟨flushed, by simp⟩
  others := fun i hi => by simpa [Function.update_of_ne hi] using h.others i hi
  writes := h.writes

theorem runs_assign_about {d : Nat} {loaded current : Document} {f : Document -> Document}
    (hs : Within allowed t n s₀ σ s) (habout : σ.About d loaded current)
    (hf : forall d, (f d).identity = d.identity) :
    Runs env allowed t (Action.assign d f)
      (fun _ s' => exists σ', σ'.About d loaded (f current) ∧
        σ'.writes = σ.writes ∧ Within allowed t n s₀ σ' s')
      (fun _ => Within allowed t n s₀ σ) s := by
  rcases habout.entry with ⟨flushed, he⟩
  refine safe_mono (runs_assign hs he hf) ?_ (fun _ _ h => h)
  intro _ s' hs'
  exact ⟨_, ⟨habout.toFocus.assign f, habout.chunks, habout.deleted⟩, rfl, hs'⟩

theorem Db.Carries.within {event : Nat} {request : OutboxEvent}
    (h : (s.db.install σ.writes).Carries event request)
    (hevents : σ'.writes.events = σ.writes.events) (hgrows : Grows s s') :
    (s'.db.install σ'.writes).Carries event request := by
  rcases h with ⟨e, he, hid⟩
  cases hx : σ.writes.events event with
  | some e' =>
      rw [Db.install_events_of_some hx, Option.some.injEq] at he
      subst he
      exact ⟨e', Db.install_events_of_some (by rw [hevents, hx]), hid⟩
  | none =>
      rw [Db.install_events_of_none hx] at he
      rcases hgrows.events event e he with ⟨e', he', hid'⟩
      refine ⟨e', ?_, hid'.trans hid⟩
      rw [Db.install_events_of_none (by rw [hevents, hx]), he']

/-!
# Knowledge bases
-/

theorem runs_getKnowledgeBase (pk userId : Nat) (isAdmin write : Bool)
    (hs : Within allowed t n s₀ {} s) :
    Runs env allowed t (KnowledgeBaseService.get pk userId isAdmin write)
      (fun kb s' => Within allowed t n s₀ (Session.ofKnowledgeBase kb) s' ∧ kb.deleted = 0)
      (fun _ s' => s'.notes t = n) s := by
  refine runs_then (runs_loadKnowledgeBase pk userId isAdmin write hs fun _ => rfl)
    (fun _ _ h => h.notes) ?_
  intro row s₁ h
  rcases h with ⟨hs₁, hrow⟩
  cases row with
  | none => exact runs_raise hs₁.notes
  | some kb =>
      refine runs_ret ⟨?_, (hrow kb rfl).2⟩
      have hentries : loadEntries KnowledgeBase.id (fun _ => none) (some kb).toList =
          Function.update (fun _ => none) kb.id (some (Entry.fresh kb)) :=
        loadEntries_singleton KnowledgeBase.id kb
      simpa only [Session.ofKnowledgeBase, hentries] using hs₁

theorem createKnowledgeBase_safe (userId : Nat) (name : Text) (description : Option Text)
    (isPublic : Bool) (hn : s.notes t = n) :
    Runs env allowed t
      (Action.transaction Note.knowledgeBaseCreated
        (KnowledgeBaseService.create userId name description isPublic))
      (fun _ _ => True) (fun _ _ => True) s := by
  refine safe_mono (runs_transaction (R := fun _ _ => True) hn (fun s₁ _ hs₁ => ?_)
    (fun _ _ _ _ h => h)) (fun _ _ _ => trivial) (fun _ _ _ => trivial)
  refine safe_mono (runs_add hs₁ fun _ _ _ _ => rfl) ?_ (fun _ _ h => h)
  intro id s₂ h
  rcases h with ⟨σ₁, now, s₃, hflushed, -, -, hs₂⟩
  refine ⟨_, hs₂.start, trivial, ?_⟩
  intro σ' s₄ hflushed' hs₄
  have hlike := hflushed.toLike
  have hlike' := hflushed'.toLike
  refine ⟨fun i => ?_, fun i => ?_, fun i => ?_, fun i e' he' => ?_⟩
  · exact (hlike'.writes i ((hlike.none_iff i).mpr rfl)).trans (hlike.writes i rfl)
  · exact congrFun (hlike'.chunks.trans hlike.chunks) i
  · exact congrFun (hflushed'.events.trans hflushed.events) i
  · rcases hlike'.entryKb_back he' with ⟨flushed, he⟩
    rcases hlike.entryKb_back he with ⟨flushed', he₀⟩
    cases he₀

theorem updateKnowledgeBase_safe (pk userId : Nat) (isAdmin : Bool)
    (obj : KnowledgeBaseService.UpdateKnowledgeBaseParam) (hn : s.notes t = n) :
    Runs env allowed t
      (Action.transaction Note.knowledgeBaseUpdated
        (KnowledgeBaseService.update pk userId isAdmin obj))
      (fun _ _ => True) (fun _ _ => True) s := by
  refine safe_mono (runs_transaction (R := fun _ _ => True) hn (fun s₁ _ hs₁ => ?_)
    (fun _ _ _ _ h => h)) (fun _ _ _ => trivial) (fun _ _ _ => trivial)
  refine runs_then (runs_getKnowledgeBase pk userId isAdmin true hs₁) (fun _ _ h => h) ?_
  intro kb s₂ h
  rcases h with ⟨hs₂, -⟩
  have he : (Session.ofKnowledgeBase kb).knowledgeBases kb.id = some (Entry.fresh kb) := by
    simp [Session.ofKnowledgeBase]
  refine runs_then (runs_assignKnowledgeBase hs₂ he fun _ => rfl) (fun _ _ h => h.notes) ?_
  intro _ s₃ hs₃
  refine runs_ret ⟨_, hs₃.start, trivial, ?_⟩
  intro σ' s₄ hflushed hs₄
  have hlike := hflushed.toLike
  refine ⟨fun i => hlike.writes i rfl, fun i => congrFun hlike.chunks i,
    fun i => congrFun hflushed.events i, fun i e' he' => ?_⟩
  rcases hlike.entryKb_back he' with ⟨flushed, he⟩
  by_cases hi : i = kb.id
  · subst i
    simp only [Function.update_self, Option.some.injEq, Entry.mk.injEq] at he
    rw [← he.1, ← he.2.2]
    rfl
  · simp [Session.ofKnowledgeBase, Function.update_of_ne hi] at he

/-!
# Documents
-/

theorem runs_getDocument (knowledgeBaseId pk userId : Nat) (isAdmin write : Bool)
    (hs : Within allowed t n s₀ {} s) :
    Runs env allowed t (DocumentService.get knowledgeBaseId pk userId isAdmin write)
      (fun d s' => exists σ', σ'.About d.id d d ∧ σ'.KeepsEvents ∧ s'.Known d.id ∧
        Within allowed t n s₀ σ' s')
      (fun _ s' => s'.notes t = n) s := by
  refine runs_then (runs_getKnowledgeBase knowledgeBaseId userId isAdmin write hs)
    (fun _ _ h => h) ?_
  intro kb s₁ h
  rcases h with ⟨hs₁, -⟩
  refine runs_then (runs_load _ hs₁ fun _ => rfl) (fun _ _ h => h.notes) ?_
  intro rows s₂ h
  rcases h with ⟨hs₂, hknown, s₃, hrows⟩
  cases rows with
  | nil => exact runs_raise hs₂.notes
  | cons d rest =>
      have hrest : rest = [] := by
        simp only [DocumentQuery.rows] at hrows
        cases hrow : (s₃.db.documents pk).filter fun d =>
            d.knowledgeBaseId = knowledgeBaseId ∧ d.deleted = 0 with
        | none =>
            rw [hrow] at hrows
            cases hrows
        | some d' =>
            rw [hrow] at hrows
            cases hrows
            rfl
      subst hrest
      refine runs_ret ⟨_, ?_, ?_, hknown d (by simp), hs₂⟩
      swap
      · exact fun _ => rfl
      refine ⟨⟨⟨d, ?_⟩, fun i hi => ?_, fun _ _ => rfl⟩, fun _ => rfl,
        Session.ofKnowledgeBase_keepsDeleted kb⟩
      · change loadEntries Document.id (fun _ => none) [d] d.id = _
        rw [loadEntries_singleton, Function.update_self]
        rfl
      · change loadEntries Document.id (fun _ => none) [d] i = none
        rw [loadEntries_singleton, Function.update_of_ne hi]

theorem Session.OnlyEvent.of_adds {event : Nat} (h : σ.Adds σ' event) (hkeeps : σ.KeepsEvents) :
    σ'.OnlyEvent event := by
  intro i e he
  by_contra hi
  rw [h.other i hi, hkeeps i] at he
  cases he

theorem retryDocument_safe (cfg : Settings) (knowledgeBaseId pk userId : Nat) (isAdmin : Bool)
    (hn : s.notes t = n) :
    Runs env allowed t
      (Action.transaction (fun (id, event) => Note.documentRetried id event)
        (DocumentService.retry env cfg knowledgeBaseId pk userId isAdmin))
      (fun _ _ => True) (fun _ _ => True) s := by
  refine safe_mono (runs_transaction (R := fun _ _ => True) hn (fun s₁ _ hs₁ => ?_)
    (fun _ _ _ _ h => h)) (fun _ _ _ => trivial) (fun _ _ _ => trivial)
  refine runs_then (runs_getDocument knowledgeBaseId pk userId isAdmin true hs₁)
    (fun _ _ h => h) ?_
  intro d s₂ h
  rcases h with ⟨σ₂, habout₂, hevents₂, hknown, hs₂⟩
  refine runs_then (runs_assign_about hs₂.start habout₂ fun _ => rfl) (fun _ _ h => h.notes) ?_
  intro _ s₃ h
  rcases h with ⟨σ₃, habout₃, hwrites₃, hs₃⟩
  refine runs_then (runs_getOrCreateIndexProfile cfg hs₃) (fun _ _ h => h) ?_
  intro profileId s₄ h
  rcases h with ⟨σ₄, hlike₄, hevents₄, hs₄⟩
  refine runs_then (runs_assign_about hs₄ (habout₃.like hlike₄) fun _ => rfl)
    (fun _ _ h => h.notes) ?_
  intro _ s₅ h
  rcases h with ⟨σ₅, habout₅, hwrites₅, hs₅⟩
  have hevents₅ : σ₅.KeepsEvents := by
    intro i
    rw [hwrites₅, hevents₄, hwrites₃]
    exact hevents₂ i
  refine runs_then (runs_enqueue hs₅ rfl rfl (indexRequest_wellFormed _ _)
    (.inl (hs₅.advance.toGrows.known hknown))) (fun _ _ h => h) ?_
  intro event s₆ h
  rcases h with ⟨σ₆, hlike₆, hadds, hs₆, hcarries⟩
  refine runs_ret ⟨σ₆, hs₆.start, trivial, ?_⟩
  intro σ' s₇ hflushed hs₇
  have habout := (habout₅.like hlike₆).like hflushed.toLike
  refine ⟨⟨d, profileId, habout.toFocus, ?_⟩, habout.chunks, habout.deleted, ?_⟩
  · exact hcarries.within hflushed.events hs₇.advance.toGrows
  · intro i e he
    rw [hflushed.events] at he
    exact Session.OnlyEvent.of_adds hadds hevents₅ i e he

theorem requestDelete_safe (knowledgeBaseId pk userId : Nat) (isAdmin : Bool)
    (hn : s.notes t = n) :
    Runs env allowed t
      (Action.transaction (fun (id, event) => Note.documentDeleteRequested id event)
        (DocumentService.delete knowledgeBaseId pk userId isAdmin))
      (fun _ _ => True) (fun _ _ => True) s := by
  refine safe_mono (runs_transaction (R := fun _ _ => True) hn (fun s₁ _ hs₁ => ?_)
    (fun _ _ _ _ h => h)) (fun _ _ _ => trivial) (fun _ _ _ => trivial)
  refine runs_then (runs_getDocument knowledgeBaseId pk userId isAdmin true hs₁)
    (fun _ _ h => h) ?_
  intro d s₂ h
  rcases h with ⟨σ₂, habout₂, hevents₂, hknown, hs₂⟩
  refine runs_then (runs_assign_about hs₂.start habout₂ fun _ => rfl) (fun _ _ h => h.notes) ?_
  intro _ s₃ h
  rcases h with ⟨σ₃, habout₃, hwrites₃, hs₃⟩
  have hevents₃ : σ₃.KeepsEvents := by
    intro i
    rw [hwrites₃]
    exact hevents₂ i
  refine runs_then (runs_enqueue hs₃ rfl rfl (deleteRequest_wellFormed _)
    (.inl (hs₃.advance.toGrows.known hknown))) (fun _ _ h => h) ?_
  intro event s₄ h
  rcases h with ⟨σ₄, hlike₄, hadds, hs₄, hcarries⟩
  refine runs_ret ⟨σ₄, hs₄.start, trivial, ?_⟩
  intro σ' s₅ hflushed hs₅
  have habout := (habout₃.like hlike₄).like hflushed.toLike
  refine ⟨⟨d, habout.toFocus⟩, habout.chunks, habout.deleted, ?_, ?_⟩
  · intro i e he
    rw [hflushed.events] at he
    exact Session.OnlyEvent.of_adds hadds hevents₃ i e he
  · exact hcarries.within hflushed.events hs₅.advance.toGrows

theorem createDocument_safe (cfg : Settings) (knowledgeBaseId userId : Nat) (isAdmin : Bool)
    (filename : Text) (content : Bytes) (mimeType : Option Text) (hn : s.notes t = n) :
    Runs env allowed t
      (Action.transaction (fun (id, event) => Note.documentCreated id event)
        (DocumentService.create env cfg knowledgeBaseId userId isAdmin filename content mimeType))
      (fun _ _ => True) (fun _ _ => True) s := by
  refine safe_mono (runs_transaction (R := fun _ _ => True) hn (fun s₁ _ hs₁ => ?_)
    (fun _ _ _ _ h => h)) (fun _ _ _ => trivial) (fun _ _ _ => trivial)
  refine runs_then (runs_getKnowledgeBase knowledgeBaseId userId isAdmin true hs₁)
    (fun _ _ h => h) ?_
  intro kb s₂ h
  rcases h with ⟨hs₂, -⟩
  dsimp only
  split
  · exact runs_raise_then hs₂.notes
  split
  · exact runs_raise_then hs₂.notes
  refine runs_then (runs_putObject _ content hs₂) (fun _ _ h => h.notes) ?_
  intro _ s₃ hs₃
  refine runs_then (runs_getOrCreateIndexProfile cfg hs₃) (fun _ _ h => h) ?_
  intro profileId s₄ h
  rcases h with ⟨σ₄, hlike₄, hevents₄, hs₄⟩
  have hkeeps₄ : σ₄.KeepsDocuments := fun i => hlike₄.writes i rfl
  have hnone₄ : forall i, σ₄.documents i = none := fun i => (hlike₄.none_iff i).mpr rfl
  refine runs_then (runs_add hs₄ ?_) (fun _ _ h => h) ?_
  · intro σ' s' hflushed hs'
    exact ⟨fun i => (hflushed.toLike.writes i (hnone₄ i)).trans (hkeeps₄ i), rfl, rfl, rfl⟩
  intro id s₅ h
  rcases h with ⟨σ₅, now, s₅', hflushed₅, -, -, hs₅⟩
  have hlike₅ := hlike₄.trans hflushed₅.toLike
  have hnone₅ : forall i, σ₅.documents i = none := fun i => (hlike₅.none_iff i).mpr rfl
  refine runs_then (runs_enqueue hs₅ rfl rfl (indexRequest_wellFormed _ _)
    (.inr ⟨_, hnone₅ id, Function.update_self _ _ _⟩)) (fun _ _ h => h) ?_
  intro event s₆ h
  rcases h with ⟨σ₆, hlike₆, hadds, hs₆, hcarries⟩
  refine runs_ret ⟨σ₆, hs₆.start, trivial, ?_⟩
  intro σ' s₇ hflushed hs₇
  have hlike := hlike₆.trans hflushed.toLike
  refine ⟨fun i => (hlike.none_iff i).mpr (hnone₅ i), ?_, fun i hi => ?_, ?_, ?_, ?_, ?_⟩
  · exact ⟨_, (hlike.writes id (hnone₅ id)).trans (Function.update_self _ _ _)⟩
  · rw [hlike.writes i (hnone₅ i)]
    change Function.update σ₅.writes.documents id _ i = none
    rw [Function.update_of_ne hi]
    exact hlike₅.writes i rfl
  · exact hlike.keepsChunks (hlike₅.keepsChunks fun _ => rfl)
  · exact hlike.keepsDeleted (hlike₅.keepsDeleted (Session.ofKnowledgeBase_keepsDeleted kb))
  · intro i e he
    rw [hflushed.events] at he
    refine Session.OnlyEvent.of_adds hadds (fun j => ?_) i e he
    change σ₅.writes.events j = none
    rw [hflushed₅.events, hevents₄]
    rfl
  · exact hcarries.within hflushed.events hs₇.advance.toGrows

/-!
# Deleting a knowledge base

The loop marks one document after another, each with a request, while the requests before it
stay among the pending events or the committed ones.
-/

structure Session.Deleting (s : State) (σ : Session) (kb : KnowledgeBase)
    (rest : List Document) : Prop where
  knowledgeBase : exists flushed,
    σ.knowledgeBases kb.id = some ⟨kb, flushed, { kb with deleted := kb.id }⟩
  others : forall i, i ≠ kb.id -> σ.knowledgeBases i = none
  scanned : σ.scanned = some kb.id
  chunks : σ.KeepsChunks
  writes : forall i, σ.documents i = none -> σ.writes.documents i = none
  entries : forall i e, σ.documents i = some e -> e.loaded.knowledgeBaseId = kb.id ∧
    (e.current = e.loaded ∨ e.current = e.loaded.deleteRequested) ∧
    ((exists d, d ∈ rest ∧ d.id = i) ∨
      (e.current = e.loaded.deleteRequested ∧
        exists event, (s.db.install σ.writes).Carries event (deleteRequest i)))
  rest : forall d, d ∈ rest -> s.Known d.id ∧ exists e, σ.documents d.id = some e
  events : forall i e, σ.writes.events i = some e ->
    e.identity = (deleteRequest e.aggregateId).identity

theorem Db.Carries.adds {event event' : Nat} {request : OutboxEvent}
    (h : (s.db.install σ.writes).Carries event request) (hadds : σ.Adds σ' event')
    (hgrows : Grows s s') (hok : SessionOk s' t σ' allowed) :
    (s'.db.install σ'.writes).Carries event request := by
  rcases h with ⟨e, he, hid⟩
  cases hx : σ.writes.events event with
  | some e' =>
      rw [Db.install_events_of_some hx, Option.some.injEq] at he
      subst he
      exact ⟨e', Db.install_events_of_some (hadds.kept event e' hx), hid⟩
  | none =>
      rw [Db.install_events_of_none hx] at he
      rcases hgrows.events event e he with ⟨e', he', hid'⟩
      rcases hok.events.install_events he' with ⟨e'', he'', hid''⟩
      exact ⟨e'', he'', hid''.trans (hid'.trans hid)⟩

/-- One turn of the loop over the documents of a deleted knowledge base. -/
theorem Session.Deleting.step {kb : KnowledgeBase} {d : Document} {rest : List Document}
    {e : Entry Document} {event : Nat}
    (h : σ.Deleting s kb (d :: rest)) (he : σ.documents d.id = some e)
    (hlike : Session.Like
      { σ with
        documents :=
          Function.update σ.documents d.id
            (some { e with current := { e.current with status := .deleting } }) } σ')
    (hadds : σ.Adds σ' event) (hgrows : Grows s s') (hok : SessionOk s' t σ' allowed)
    (hcarries : (s'.db.install σ'.writes).Carries event (deleteRequest d.id)) :
    σ'.Deleting s' kb rest := by
  constructor
  · rcases h.knowledgeBase with ⟨flushed, hkb⟩
    exact hlike.entryKb hkb
  · intro i hi
    cases hx : σ'.knowledgeBases i with
    | none => rfl
    | some e' =>
        rcases hlike.entryKb_back hx with ⟨flushed, hx'⟩
        rw [h.others i hi] at hx'
        cases hx'
  · exact hlike.scanned.trans h.scanned
  · exact hlike.keepsChunks h.chunks
  · intro i hi
    have hnone := (hlike.none_iff i).mp hi
    have hid : i ≠ d.id := by
      intro heq
      subst heq
      simp at hnone
    simp only [Function.update_of_ne hid] at hnone
    rw [hlike.writes i (by simpa only [Function.update_of_ne hid] using hnone)]
    exact h.writes i hnone
  · intro i e' he'
    rcases hlike.entry_back he' with ⟨flushed, hold⟩
    by_cases hi : i = d.id
    · subst i
      simp only [Function.update_self, Option.some.injEq, Entry.mk.injEq] at hold
      rcases h.entries d.id e he with ⟨hkb, hcurrent, -⟩
      have hdeleting : e'.current = e'.loaded.deleteRequested := by
        rw [← hold.1, ← hold.2.2]
        rcases hcurrent with hcurrent | hcurrent <;> rw [hcurrent] <;> rfl
      rw [← hold.1] at hdeleting ⊢
      exact ⟨hkb, .inr hdeleting, .inr ⟨hdeleting, event, hcarries⟩⟩
    · simp only [Function.update_of_ne hi] at hold
      rcases h.entries i _ hold with ⟨hkb, hcurrent, hrest⟩
      refine ⟨hkb, hcurrent, ?_⟩
      rcases hrest with ⟨d', hd', hid⟩ | ⟨hdeleting, event', hcarries'⟩
      · rcases List.mem_cons.mp hd' with rfl | hd'
        · exact absurd hid.symm hi
        · exact .inl ⟨d', hd', hid⟩
      · exact .inr ⟨hdeleting, event', hcarries'.adds hadds hgrows hok⟩
  · intro d' hd'
    rcases h.rest d' (List.mem_cons_of_mem d hd') with ⟨hknown, e', he'⟩
    refine ⟨hgrows.known hknown, ?_⟩
    have hsome : exists e'', (Function.update σ.documents d.id
        (some { e with current := { e.current with status := .deleting } })) d'.id = some e'' := by
      by_cases hi : d'.id = d.id
      · exact ⟨_, by rw [hi, Function.update_self]⟩
      · exact ⟨e', by rw [Function.update_of_ne hi, he']⟩
    rcases hsome with ⟨e'', he''⟩
    rcases hlike.entry he'' with ⟨flushed, hnew⟩
    exact ⟨_, hnew⟩
  · intro i e' he'
    by_cases hi : i = event
    · subst i
      rcases hcarries with ⟨e'', he'', hid⟩
      rw [Db.install_events_of_some he', Option.some.injEq] at he''
      subst he''
      rw [OutboxEvent.aggregateId_of_identity hid]
      exact hid
    · rw [hadds.other i hi] at he'
      exact h.events i e' he'

theorem deleteKnowledgeBase_safe (pk userId : Nat) (isAdmin : Bool) (hn : s.notes t = n) :
    Runs env allowed t
      (Action.transaction Note.knowledgeBaseDeleted
        (KnowledgeBaseService.delete pk userId isAdmin))
      (fun _ _ => True) (fun _ _ => True) s := by
  refine safe_mono (runs_transaction (R := fun _ _ => True) hn (fun s₁ _ hs₁ => ?_)
    (fun _ _ _ _ h => h)) (fun _ _ _ => trivial) (fun _ _ _ => trivial)
  refine runs_then (runs_getKnowledgeBase pk userId isAdmin true hs₁) (fun _ _ h => h) ?_
  intro kb s₂ h
  rcases h with ⟨hs₂, hdeleted⟩
  have hentry : (Session.ofKnowledgeBase kb).knowledgeBases kb.id = some (Entry.fresh kb) := by
    simp [Session.ofKnowledgeBase]
  refine runs_then (runs_assignKnowledgeBase hs₂ hentry fun _ => rfl) (fun _ _ h => h.notes) ?_
  intro _ s₃ hs₃
  refine runs_then (runs_load (.ofKb kb.id) hs₃ fun _ => rfl) (fun _ _ h => h.notes) ?_
  intro rows s₄ h
  rcases h with ⟨hs₄, hknown, s₅, hrows⟩
  refine runs_then (Y := fun _ s' => s'.notes t = n)
    (safe_forEach
      (fun rest s' => exists σ', σ'.Deleting s' kb rest ∧ Within allowed t n s₁ σ' s')
      ⟨_, ?_, hs₄⟩ ?_) (fun _ _ h => h) ?_
  · constructor
    · exact ⟨kb, Function.update_self _ _ _⟩
    · intro i hi
      change Function.update (Session.ofKnowledgeBase kb).knowledgeBases kb.id _ i = none
      rw [Function.update_of_ne hi]
      simp [Session.ofKnowledgeBase, Function.update_of_ne hi]
    · rfl
    · exact fun _ => rfl
    · exact fun _ _ => rfl
    · intro i e he
      have hload : loadEntries Document.id (fun _ => none) rows i = some e := he
      rcases loadEntries_cases hload with hold | ⟨-, d, hd, hid, rfl⟩
      · cases hold
      · rw [hrows, DocumentQuery.rows, List.mem_filter] at hd
        exact ⟨(of_decide_eq_true hd.2).1, .inl rfl, .inl ⟨d, by
          rw [hrows, DocumentQuery.rows, List.mem_filter]
          exact hd, hid⟩⟩
    · intro d hd
      refine ⟨hknown d hd, ?_⟩
      cases hfind : rows.find? fun row => row.id = d.id with
      | none => simpa using List.find?_eq_none.mp hfind d hd
      | some d' => exact ⟨Entry.fresh d', by simp [loadEntries, hfind, Session.ofKnowledgeBase]⟩
    · intro i e he
      cases he
  · intro d rest s₆ h
    rcases h with ⟨σ₆, hdeleting, hs₆⟩
    rcases hdeleting.rest d (List.mem_cons_self) with ⟨hknown₆, e, he⟩
    refine runs_then (runs_assign hs₆.start he fun _ => rfl) (fun _ _ h => h.notes) ?_
    intro _ s₇ hs₇
    refine runs_then (runs_enqueue hs₇ rfl rfl (deleteRequest_wellFormed _)
      (.inl (hs₇.advance.toGrows.known hknown₆))) (fun _ _ h => h) ?_
    intro event s₈ h
    rcases h with ⟨σ₈, hlike, hadds, hs₈, hcarries⟩
    refine runs_ret ⟨σ₈, ?_, hs₆.trans hs₈⟩
    exact hdeleting.step he hlike ⟨hadds.kept, hadds.other⟩ hs₈.advance.toGrows hs₈.ok hcarries
  · intro _ s₆ h
    rcases h with ⟨σ₆, hdeleting, hs₆⟩
    refine runs_ret ⟨σ₆, hs₆.start, trivial, ?_⟩
    intro σ' s₇ hflushed hs₇
    have hlike := hflushed.toLike
    refine ⟨?_, ?_, hlike.scanned.trans hdeleting.scanned, ?_, ?_,
      hlike.keepsChunks hdeleting.chunks, ?_⟩
    · rcases hdeleting.knowledgeBase with ⟨flushed, hkb⟩
      rcases hlike.entryKb hkb with ⟨flushed', hkb'⟩
      have hpos := (hs₆.ok.knowledgeBases.entry _ _ hkb).2.2.2.1
      refine ⟨_, hkb', ?_⟩
      rw [hdeleted]
      exact Nat.ne_of_gt hpos
    · intro i hi
      cases hx : σ'.knowledgeBases i with
      | none => rfl
      | some e' =>
          rcases hlike.entryKb_back hx with ⟨flushed, hx'⟩
          rw [hdeleting.others i hi] at hx'
          cases hx'
    · intro i e' he'
      rcases hlike.entry_back he' with ⟨flushed, he⟩
      rcases hdeleting.entries i _ he with ⟨hkb, -, ⟨d, hd, -⟩ | ⟨hcurrent, event, hcarries⟩⟩
      · cases hd
      · rcases hcarries.within hflushed.events hs₇.advance.toGrows with ⟨e₀, he₀, hid⟩
        exact ⟨hkb, hcurrent, event, e₀, he₀, hid⟩
    · intro i hi
      have hnone := (hlike.none_iff i).mp hi
      rw [hlike.writes i hnone]
      exact hdeleting.writes i hnone
    · intro i e he
      rw [hflushed.events] at he
      exact hdeleting.events i e he

end

end RagService
