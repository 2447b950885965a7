import RagService.Properties.IndexProfiles
import RagService.Properties.ProfileRequests

/-!
# Attached profiles

The profile of a row has the hash of the settings of the upload or the retry that attached it.
So a worker finds its own settings described just when it has settings with the same payload.
-/

namespace RagService

open Interleaving Interleaving.Discipline IndexProfileService

/-!
# Profiles of an operation

The profile of an operation is found under its id by the transaction, and has the hash of its
settings.  A row of the table has its key as its id, and the hash of its own payload.
-/

def Op.Attaches (env : Env) (op : Op) (profiles : Nat -> Option IndexProfile)
    (i : Option Nat) : Prop :=
  exists cfg p, op.attaches = some cfg ∧ i.bind profiles = some p ∧
    p.profileHash = profileHash env (buildIndexProfilePayload cfg)

def IndexProfile.Keyed (env : Env) (i : Nat) (p : IndexProfile) : Prop :=
  p.id = i ∧ p.profileHash = IndexProfileService.profileHash env p.payload

/-- The commit that last changed the profile of a document. -/
def State.attached (s : State) (d : Nat) : Option Commit :=
  s.history.reverse.find? fun c =>
    (c.before.documents d).bind Document.indexProfileId ≠
      (c.after.documents d).bind Document.indexProfileId

structure State.ProfilesKeyed (env : Env) (s : State) : Prop where
  committed : forall i p, s.db.profiles i = some p -> p.Keyed env i
  pending : forall t σ, s.sessions t = some σ ->
    forall i p, σ.writes.profiles i = some p -> p.Keyed env i

/-- What a transaction has attached, and the id that it has got, are of its operation. -/
structure Session.Attaching (env : Env) (op : Op) (db : Db) (got : Option Nat)
    (σ : Session) : Prop where
  got : got = none ∨ op.Attaches env (db.install σ.writes).profiles got
  entry : forall d e, σ.documents d = some e ->
    e.current.indexProfileId = e.loaded.indexProfileId ∨
      op.Attaches env (db.install σ.writes).profiles e.current.indexProfileId
  inserted : forall d row, σ.Inserts d row ->
    op.Attaches env (db.install σ.writes).profiles row.indexProfileId

/-- The profile of a row is one of the operation that has committed it. -/
def RagConfig.AttachedBy (env : Env) (cfg : RagConfig) (s : State) (d : Nat)
    (row : Document) : Prop :=
  exists c th, s.attached d = some c ∧ cfg.threads c.thread = some th ∧
    th.op.Attaches env s.db.profiles row.indexProfileId

/-- What holds of a configuration: threads keep to their protocols, and rows have profiles. -/
structure AttachKept (env : Env) (cfg : RagConfig) : Prop where
  fresh : cfg.shared.ProfilesFresh
  keyed : cfg.shared.ProfilesKeyed env
  unstarted : forall t, cfg.threads t = none -> cfg.shared.sessions t = none
  threads : forall t th, cfg.threads t = some th -> exists got,
    (attachProtocol env th.op).Follows (fun _ _ => True) got th.program ∧
      forall σ, cfg.shared.sessions t = some σ -> σ.Attaching env th.op cfg.shared.db got
  attached : forall d row, cfg.shared.db.documents d = some row ->
    cfg.AttachedBy env cfg.shared d row

/-!
# Profiles stay

A profile that a transaction has found stays under its key.
-/

section

variable {env : Env} {op : Op} {s s' : State} {t : Nat} {σ σ' : Session} {c : Command}
variable {got : Option Nat} {db db' : Db}

theorem Op.Attaches.mono {profiles profiles' : Nat -> Option IndexProfile} {i : Option Nat}
    (h : op.Attaches env profiles i)
    (hkept : forall j p, profiles j = some p -> profiles' j = some p) :
    op.Attaches env profiles' i := by
  rcases h with ⟨cfg, p, hop, hp, hhash⟩
  rcases Option.bind_eq_some_iff.mp hp with ⟨j, hj, hp⟩
  exact ⟨cfg, p, hop, Option.bind_eq_some_iff.mpr ⟨j, hj, hkept j p hp⟩, hhash⟩

theorem Db.install_profiles_of_some {w : Writes} {i : Nat} {p : IndexProfile}
    (h : w.profiles i = some p) : (db.install w).profiles i = some p := by
  simp [Db.install, h]

theorem Db.install_profiles_cases {w : Writes} {i : Nat} {p : IndexProfile}
    (h : (db.install w).profiles i = some p) : w.profiles i = some p ∨ db.profiles i = some p := by
  cases hw : w.profiles i with
  | some q =>
      rw [Db.install_profiles_of_some hw] at h
      exact .inl h
  | none =>
      rw [Db.install_profiles_of_none hw] at h
      exact .inr h

theorem State.Step.profiles (hstep : State.Step s t c s') (hfresh : s.ProfilesFresh) {i : Nat}
    {p : IndexProfile} (hp : s.db.profiles i = some p) : s'.db.profiles i = some p := by
  cases hstep with
  | commit note σ hσ => exact hfresh.install hσ hp
  | nothing | begin | rollback | statement | putObject | deleteObject | send => exact hp

/-- What a transaction has attached stays so while the others commit. -/
theorem Session.Attaching.mono (h : σ.Attaching env op db got)
    (hkept : forall i p, db.profiles i = some p -> db'.profiles i = some p) :
    σ.Attaching env op db' got := by
  have hview : forall i p, (db.install σ.writes).profiles i = some p ->
      (db'.install σ.writes).profiles i = some p := by
    intro i p hp
    cases hw : σ.writes.profiles i with
    | some q =>
        rw [Db.install_profiles_of_some hw] at hp ⊢
        exact hp
    | none =>
        rw [Db.install_profiles_of_none hw] at hp ⊢
        exact hkept i p hp
  constructor
  · exact h.got.imp_right fun hgot => hgot.mono hview
  · intro d e he
    exact (h.entry d e he).imp_right fun hentry => hentry.mono hview
  · intro d row hrow
    exact (h.inserted d row hrow).mono hview

theorem Session.Attaching.forget (h : σ.Attaching env op db got) :
    σ.Attaching env op db none :=
  ⟨.inl rfl, h.entry, h.inserted⟩

theorem Session.Attaching.empty : ({} : Session).Attaching env op db none := by
  constructor
  · exact .inl rfl
  · intro d e he
    cases he
  · intro d row hrow
    cases hrow.2

/-!
# Statements

What a statement leaves attached is of the operation again.
-/

/-- The entries that a query loads are as they were loaded. -/
theorem Session.Attaching.load (h : σ.Attaching env op db got) {rows : List Document}
    {scanned : Option Nat} :
    ({ σ with documents := loadEntries Document.id σ.documents rows, scanned := scanned } :
      Session).Attaching env op db got := by
  constructor
  · exact h.got
  · intro d e he
    change (σ.documents d).or _ = some e at he
    cases hold : σ.documents d with
    | some e' =>
        rw [hold, Option.some_or, Option.some.injEq] at he
        subst he
        exact h.entry d e' hold
    | none =>
        rw [hold, Option.none_or] at he
        rcases Option.map_eq_some_iff.mp he with ⟨row, -, hfresh⟩
        subst hfresh
        exact .inl rfl
  · intro d row hrow
    have hnone : (σ.documents d).or _ = none := hrow.1
    exact h.inserted d row ⟨(Option.or_eq_none_iff.mp hnone).1, hrow.2⟩

/-- An object of the session is loaded, assigned, flushed or removed. -/
theorem Session.Attaching.replace (h : σ.Attaching env op db got) {id : Nat}
    {entry : Option (Entry Document)}
    (hdocuments : σ'.documents = Function.update σ.documents id entry)
    (hwrites : forall d, d ≠ id -> σ'.writes.documents d = σ.writes.documents d)
    (hprofiles : σ'.writes.profiles = σ.writes.profiles)
    (hentry : forall e, entry = some e -> e.current.indexProfileId = e.loaded.indexProfileId ∨
      op.Attaches env (db.install σ.writes).profiles e.current.indexProfileId)
    (hnone : entry = none -> σ'.writes.documents id = some none) : σ'.Attaching env op db got := by
  have hview : (db.install σ'.writes).profiles = (db.install σ.writes).profiles := by
    simp only [Db.install, hprofiles]
  constructor
  · rw [hview]
    exact h.got
  · rw [hview, hdocuments]
    intro d e he
    by_cases hd : d = id
    · subst hd
      rw [Function.update_self] at he
      exact hentry e he
    · rw [Function.update_of_ne hd] at he
      exact h.entry d e he
  · rw [hview]
    unfold Session.Inserts
    rw [hdocuments]
    intro d row hrow
    by_cases hd : d = id
    · subst hd
      rw [Function.update_self] at hrow
      rw [hnone hrow.1] at hrow
      cases hrow.2
    · rw [Function.update_of_ne hd, hwrites d hd] at hrow
      exact h.inserted d row hrow

/-- A statement writes no document and no profile. -/
theorem Session.Attaching.congr (h : σ.Attaching env op db got)
    (hdocuments : σ'.documents = σ.documents)
    (hwrites : σ'.writes.documents = σ.writes.documents)
    (hprofiles : σ'.writes.profiles = σ.writes.profiles) : σ'.Attaching env op db got := by
  have hview : (db.install σ'.writes).profiles = (db.install σ.writes).profiles := by
    simp only [Db.install, hprofiles]
  constructor
  · rw [hview]
    exact h.got
  · rw [hview, hdocuments]
    exact h.entry
  · rw [hview]
    unfold Session.Inserts
    rw [hdocuments, hwrites]
    exact h.inserted

theorem Session.Attaching.step {rs : List Resource} {n : Nat}
    (h : σ.Attaching env op s.db got) (hfresh : s.ProfilesFresh) (hσ : s.sessions t = some σ)
    (hmay : op.MayIssue env got c) (hstep : Session.Step s t σ c rs n σ') :
    σ'.Attaching env op s.db got := by
  cases hstep with
  | load q => exact h.load
  | lock q rows hrows => exact h.load
  | assign id f e he =>
      refine h.replace rfl (fun _ _ => rfl) rfl (fun e' he' => ?_)
        fun hnone => by cases hnone
      cases he'
      rcases hmay e.current with hkept | ⟨i, hi, hattached⟩
      · rw [hkept]
        exact h.entry id e he
      · right
        rw [hattached, ← hi]
        exact h.got.resolve_left (by rw [hi]; exact Option.some_ne_none i)
  | update id now e base he hbase hlock =>
      refine h.replace rfl (fun d hd => Function.update_of_ne hd _ _) rfl (fun e' he' => ?_)
        fun hnone => by cases hnone
      cases he'
      exact h.entry id e he
  | remove id base hbase hlock hkey =>
      apply h.replace rfl
      · intro d hd
        exact Function.update_of_ne hd _ _
      · rfl
      · intro e he
        cases he
      · intro _
        exact Function.update_self id (some none) σ.writes.documents
  | insert row now hkey hlock hfree =>
      cases row with
      | knowledgeBase row | event row => exact h.congr rfl rfl rfl
      | document row =>
          constructor
          · exact h.got
          · exact h.entry
          · intro d row' hrow
            by_cases hd : d = s.nextId
            · subst hd
              have hnew := hrow.2
              simp only [NewRow.place, Function.update_self, Option.some.injEq] at hnew
              subst hnew
              rcases hmay with ⟨i, hi, hattached⟩
              change op.Attaches env _ row.indexProfileId
              rw [hattached, ← hi]
              exact h.got.resolve_left (by rw [hi]; exact Option.some_ne_none i)
            · have hwrite := hrow.2
              simp only [NewRow.place, Function.update_of_ne hd] at hwrite
              exact h.inserted d row' ⟨hrow.1, hwrite⟩
      | profile row =>
          -- the new profile has a key of its own
          have hview : forall i p, (s.db.install σ.writes).profiles i = some p ->
              (s.db.install ((NewRow.profile row).place s.nextId now σ.writes)).profiles i =
                some p := by
            intro i p hp
            have hi : i ≠ s.nextId := by
              intro heq
              subst heq
              rcases Db.install_profiles_cases hp with hw | hdb
              · have hused : σ.writes.profiles s.nextId ≠ none := by
                  rw [hw]
                  exact Option.some_ne_none p
                exact absurd (hfresh.pending t σ hσ s.nextId hused).1 (Nat.lt_irrefl _)
              · have hused : s.db.profiles s.nextId ≠ none := by
                  rw [hdb]
                  exact Option.some_ne_none p
                exact absurd (hfresh.committed s.nextId hused) (Nat.lt_irrefl _)
            simpa [Db.install, NewRow.place, Function.update_of_ne hi] using hp
          constructor
          · exact h.got.imp_right fun hgot => hgot.mono hview
          · intro d e he
            exact (h.entry d e he).imp_right fun hentry => hentry.mono hview
          · intro d row' hrow
            exact (h.inserted d row' hrow).mono hview
  | loadKnowledgeBase | lockEvents | assignKnowledgeBase | updateKnowledgeBase | updateEvent
  | deleteChunks | insertChunks => exact h.congr rfl rfl rfl

/-!
# Commands of a thread

The id that a query or an insert answers with is that of a profile of the operation.
-/

theorem exec_select {q : Query} {ch : Choice} {a : q.Result}
    (h : exec t (.select q) ch s = some (s', .ok a)) :
    s' = s ∧ exists σ, s.sessions t = some σ ∧ a = q.answer (s.db.install σ.writes) s.nextId := by
  cases ch with
  | fail e => cases h
  | proceed now vectors =>
      cases hσ : s.sessions t with
      | none =>
          simp only [exec, Command.outside, hσ] at h
          cases h
      | some σ =>
          simp only [exec, Command.outside, hσ] at h
          cases h
          exact ⟨rfl, σ, rfl, rfl⟩

theorem exec_insert {row : NewRow} {ch : Choice} {id : Nat}
    (h : exec t (.insert row) ch s = some (s', .ok id)) :
    id = s.nextId ∧ exists σ now, s.sessions t = some σ ∧
      s'.sessions t = some { σ with writes := row.place s.nextId now σ.writes } := by
  cases ch with
  | fail e => cases h
  | proceed now vectors =>
      cases hσ : s.sessions t with
      | none =>
          simp only [exec, Command.outside, hσ] at h
          cases h
      | some σ =>
          simp only [exec, Command.outside, hσ, State.perform, Bool.false_eq_true, if_false] at h
          split at h
          · split at h
            · cases h
            · cases h
              exact ⟨rfl, σ, now, rfl, Function.update_self _ _ _⟩
          · cases h

theorem State.ProfilesKeyed.view (h : s.ProfilesKeyed env) (hσ : s.sessions t = some σ) {i : Nat}
    {p : IndexProfile} (hp : (s.db.install σ.writes).profiles i = some p) : p.Keyed env i := by
  cases Db.install_profiles_cases hp with
  | inl hw => exact h.pending t σ hσ i p hw
  | inr hdb => exact h.committed i p hdb

/-- A profile that is found by its hash is one of the operation. -/
theorem Session.Attaching.found (h : σ.Attaching env op db got) {hash : Text} {n : Nat}
    {found : Option IndexProfile} (hmay : op.MayIssue env got (.select (.indexProfile hash)))
    (hkeyed : forall {i p}, (db.install σ.writes).profiles i = some p -> p.Keyed env i)
    (hfound : found = Query.answer (db.install σ.writes) n (.indexProfile hash)) :
    σ.Attaching env op db (found.map IndexProfile.id) := by
  refine ⟨?_, h.entry, h.inserted⟩
  cases found with
  | none => exact .inl rfl
  | some p =>
      right
      rcases hmay with ⟨cfg, hop, hhash⟩
      have hfind : (scan (db.install σ.writes).profiles n).find? (fun p => p.profileHash = hash) =
          some p := hfound.symm
      rcases mem_scan.mp (List.mem_of_find?_eq_some hfind) with ⟨i, -, hp⟩
      have hi : p.id = i := (hkeyed hp).1
      refine ⟨cfg, p, hop, ?_, ?_⟩
      · rw [Option.map_some, Option.bind_some, hi]
        exact hp
      · rw [← hhash]
        simpa using List.find?_some hfind

/-- What a transaction has attached after a command of its own. -/
theorem Session.Attaching.command {ch : Choice} {r : Except Exception c.Result}
    (h : σ.Attaching env op s.db got) (hfresh : s.ProfilesFresh) (hkeyed : s.ProfilesKeyed env)
    (hσ : s.sessions t = some σ) (hmay : op.MayIssue env got c)
    (hexec : exec t c ch s = some (s', r)) (hσ' : s'.sessions t = some σ') :
    σ'.Attaching env op s'.db (nextProfile got c r) := by
  have hold : σ'.Attaching env op s'.db got := by
    have hsame : s'.sessions t = s.sessions t -> s'.db = s.db -> σ'.Attaching env op s'.db got := by
      intro hsession hdb
      rw [hsession, hσ, Option.some.injEq] at hσ'
      rw [hdb, ← hσ']
      exact h
    cases exec_step hexec with
    | nothing => exact hsame rfl rfl
    | begin hnone =>
        rw [hσ] at hnone
        cases hnone
    | commit note τ hτ =>
        simp [State.commit, State.close] at hσ'
    | rollback =>
        simp [State.close] at hσ'
    | statement τ rs n τ' hτ hstep =>
        rw [hσ, Option.some.injEq] at hτ
        subst hτ
        have hself : (s.work t rs n τ').sessions t = some τ' := by
          simp [State.work, State.setSession]
        rw [hself, Option.some.injEq] at hσ'
        subst hσ'
        exact h.step hfresh hσ hmay hstep
    | putObject | deleteObject | send => exact hsame rfl rfl
  cases c with
  | begin | commit note | rollback => exact hold.forget
  | select q =>
      cases q with
      | documentIdsByStatus status => exact hold
      | outboxEvent eventType aggregateId dedupeKey => exact hold
      | indexProfile hash =>
          cases r with
          | error e => exact hold
          | ok found =>
              rcases exec_select hexec with ⟨rfl, τ, hτ, hfound⟩
              rw [hσ', Option.some.injEq] at hτ
              subst hτ
              exact hold.found hmay (hkeyed.view hσ') hfound
  | insert row =>
      cases row with
      | knowledgeBase row | document row | event row => exact hold
      | profile row =>
          cases r with
          | error e => exact hold
          | ok id =>
              rcases exec_insert hexec with ⟨rfl, τ, now, -, hτ⟩
              rw [hσ', Option.some.injEq] at hτ
              subst hτ
              refine ⟨.inr ?_, hold.entry, hold.inserted⟩
              rcases hmay with ⟨cfg, hop, hpayload, hhash⟩
              refine ⟨cfg, { row with id := s.nextId }, hop, ?_, ?_⟩
              · exact Db.install_profiles_of_some (Function.update_self _ _ _)
              · rw [← hpayload]
                exact hhash
  | _ => exact hold

/-!
# Other transactions

What a command does to the profile table and to the transactions of the other threads.
-/

theorem State.ProfilesKeyed.command {ch : Choice} {r : Except Exception c.Result}
    (h : s.ProfilesKeyed env) (hmay : op.MayIssue env got c)
    (hexec : exec t c ch s = some (s', r)) : s'.ProfilesKeyed env := by
  have hopen : forall u τ, (s.close t).sessions u = some τ -> s.sessions u = some τ := by
    intro u τ hτ
    by_cases hu : u = t
    · subst hu
      simp [State.close] at hτ
    · simpa [State.close, Function.update_of_ne hu] using hτ
  cases exec_step hexec with
  | nothing => exact h
  | rollback => exact ⟨h.committed, fun u τ hτ => h.pending u τ (hopen u τ hτ)⟩
  | commit note σ hσ =>
      exact ⟨fun i p hp => h.view hσ hp, fun u τ hτ => h.pending u τ (hopen u τ hτ)⟩
  | putObject | deleteObject | send => exact ⟨h.committed, h.pending⟩
  | begin hnone =>
      refine ⟨h.committed, fun u τ hτ i p hp => ?_⟩
      by_cases hu : u = t
      · subst hu
        simp only [State.work, State.setSession, Function.update_self, Option.some.injEq] at hτ
        subst hτ
        cases hp
      · simp only [State.work, State.setSession, State.acquire, Function.update_of_ne hu] at hτ
        exact h.pending u τ hτ i p hp
  | statement σ rs n σ' hσ hstep =>
      refine ⟨h.committed, fun u τ hτ i p hp => ?_⟩
      by_cases hu : u = t
      · subst hu
        simp only [State.work, State.setSession, Function.update_self, Option.some.injEq] at hτ
        subst hτ
        cases hstep with
        | insert row now hkey hlock hfree =>
            cases row with
            | profile row =>
                by_cases hi : i = s.nextId
                · subst hi
                  simp only [NewRow.place, Function.update_self, Option.some.injEq] at hp
                  subst hp
                  rcases hmay with ⟨cfg, -, -, hhash⟩
                  exact ⟨rfl, hhash⟩
                · simp only [NewRow.place, Function.update_of_ne hi] at hp
                  exact h.pending u σ hσ i p hp
            | knowledgeBase | document | event => exact h.pending u σ hσ i p hp
        | loadKnowledgeBase | load | lock | lockEvents | assign | assignKnowledgeBase | update
        | updateKnowledgeBase | updateEvent | remove | deleteChunks | insertChunks =>
            exact h.pending u σ hσ i p hp
      · simp only [State.work, State.setSession, State.acquire, Function.update_of_ne hu] at hτ
        exact h.pending u τ hτ i p hp

/-!
# Commits

A commit that changes the profile of a document is of an upload or a retry, which has attached
it.
-/

theorem State.attached_commit (s : State) (t : Nat) (note : Note) (σ : Session) (d : Nat) :
    (s.commit t note σ).attached d =
      if (s.db.documents d).bind Document.indexProfileId ≠
          ((s.db.install σ.writes).documents d).bind Document.indexProfileId
      then some ⟨t, note, s.db, s.db.install σ.writes⟩
      else s.attached d := by
  unfold State.attached State.commit
  rw [List.reverse_append, List.reverse_singleton, List.singleton_append, List.find?_cons]
  split
  · rename_i heq
    rw [if_pos (of_decide_eq_true heq)]
  · rename_i heq
    rw [if_neg (of_decide_eq_false heq)]

/-- The profile that a commit leaves in a row is the one before, or is of the operation. -/
theorem Session.Attaching.commit {allowed : Settings -> Prop} {note : Note}
    (h : σ.Attaching env op s.db got) (hdocuments : DocumentsOk s t σ) (hclean : σ.Clean)
    (heffect : σ.Effect env allowed s t note) {d : Nat} {row : Document}
    (hrow : (s.db.install σ.writes).documents d = some row) :
    (exists base, s.db.documents d = some base ∧ row.indexProfileId = base.indexProfileId) ∨
      op.Attaches env (s.db.install σ.writes).profiles row.indexProfileId := by
  rcases heffect.document_cases hdocuments hclean hrow with
    hsame | ⟨event, -, hinserts⟩ | ⟨base, hbase, hstep⟩
  · exact .inl ⟨row, hsame, rfl⟩
  · exact .inr (h.inserted d row hinserts)
  · cases hstep with
    | retried event profileId loaded base now =>
        clear hbase
        rcases heffect with ⟨⟨loaded, profileId, hfocus, -⟩, -⟩
        rcases hfocus.entry with ⟨flushed, he⟩
        rcases hfocus.row hdocuments hclean (Document.retried_ne loaded profileId) with
          ⟨base, now, hbase, hnew⟩
        rw [hrow, Option.some.injEq] at hnew
        rw [hnew]
        rcases writeColumn_cases loaded.indexProfileId (some profileId) base.indexProfileId with
          ⟨-, hkept⟩ | ⟨hne, hwritten⟩
        · exact .inl ⟨base, hbase, hkept⟩
        · right
          change op.Attaches env _ (writeColumn loaded.indexProfileId (some profileId) _)
          rw [hwritten]
          exact (h.entry d _ he).resolve_left hne
    | indexed | failed | knowledgeBaseDeleted | deleteRequested | claimed | recovered =>
        exact .inl ⟨base, hbase, writeColumn_self _ _⟩

theorem Session.Attaching.begun {ch : Choice} {r : Except Exception c.Result}
    (hnone : s.sessions t = none) (hexec : exec t c ch s = some (s', r))
    (hσ' : s'.sessions t = some σ') : σ'.Attaching env op s'.db (nextProfile got c r) := by
  have hopened : s'.sessions t = s.sessions t ->
      σ'.Attaching env op s'.db (nextProfile got c r) := by
    intro hsame
    rw [hσ', hnone] at hsame
    cases hsame
  cases exec_step hexec with
  | nothing => exact hopened rfl
  | putObject key content => exact hopened rfl
  | deleteObject key => exact hopened rfl
  | send m => exact hopened rfl
  | begin =>
      simp only [State.work, State.setSession, Function.update_self, Option.some.injEq] at hσ'
      subst hσ'
      exact .empty
  | rollback => simp [State.close] at hσ'
  | commit note σ hσ =>
      rw [hnone] at hσ
      cases hσ
  | statement σ rs n τ hσ hstep =>
      rw [hnone] at hσ
      cases hσ

/-!
# Configurations

Starts, commands and crashes keep what holds of a configuration.
-/

variable {cfg cfg' : RagConfig} {th : Thread interface Op}

theorem RagConfig.AttachedBy.later {d : Nat} {row : Document}
    (h : cfg.AttachedBy env s d row) (hops : forall u, System.SameOp cfg cfg' u) :
    cfg'.AttachedBy env s d row := by
  rcases h with ⟨c, th, hc, hth, hattaches⟩
  rcases hops c.thread th hth with ⟨th', hth', hop⟩
  refine ⟨c, th', hc, hth', ?_⟩
  rw [hop]
  exact hattaches

theorem AttachKept.start (h : AttachKept env cfg) (hfree : cfg.threads t = none)
    (hshared : cfg'.shared = cfg.shared)
    (hthreads : cfg'.threads = Function.update cfg.threads t (some ⟨op, op.body env⟩)) :
    AttachKept env cfg' := by
  constructor
  · rw [hshared]
    exact h.fresh
  · rw [hshared]
    exact h.keyed
  · rw [hthreads, hshared]
    intro u hu
    by_cases hut : u = t
    · rw [hut, Function.update_self] at hu
      cases hu
    · rw [Function.update_of_ne hut] at hu
      exact h.unstarted u hu
  · rw [hthreads, hshared]
    intro u th hth
    by_cases hut : u = t
    · rw [hut, Function.update_self, Option.some.injEq] at hth
      subst hth
      refine ⟨none, body_follows env op none, fun σ hσ => ?_⟩
      rw [hut, h.unstarted t hfree] at hσ
      cases hσ
    · rw [Function.update_of_ne hut] at hth
      exact h.threads u th hth
  · rw [hshared]
    intro d row hrow
    apply (h.attached d row hrow).later
    intro u th hth
    refine ⟨th, ?_, rfl⟩
    rw [hthreads, Function.update_of_ne, hth]
    intro hut
    rw [hut, hfree] at hth
    cases hth

theorem AttachKept.crash (h : AttachKept env cfg) (hthread : cfg.threads t = some th)
    (hshared : cfg'.shared = cfg.shared.close t)
    (hthreads : cfg'.threads = Function.update cfg.threads t (some ⟨th.op, .ret ()⟩)) :
    AttachKept env cfg' := by
  have hself : (cfg.shared.close t).sessions t = none := by
    simp [State.close]
  constructor
  · rw [hshared]
    exact h.fresh.close t
  · rw [hshared]
    refine ⟨h.keyed.committed, fun u τ hτ => h.keyed.pending u τ ?_⟩
    by_cases hut : u = t
    · rw [hut, hself] at hτ
      cases hτ
    · rwa [State.close_session_other hut] at hτ
  · rw [hthreads, hshared]
    intro u hu
    by_cases hut : u = t
    · rw [hut]
      exact hself
    · rw [Function.update_of_ne hut] at hu
      exact (State.close_session_other hut).trans (h.unstarted u hu)
  · rw [hthreads, hshared]
    intro u th' hth
    by_cases hut : u = t
    · rw [hut, Function.update_self, Option.some.injEq] at hth
      subst hth
      refine ⟨none, trivial, fun σ hσ => ?_⟩
      rw [hut, hself] at hσ
      cases hσ
    · rw [Function.update_of_ne hut] at hth
      rcases h.threads u th' hth with ⟨got, hfollows, hattaching⟩
      refine ⟨got, hfollows, fun σ hσ => hattaching σ ?_⟩
      rwa [State.close_session_other hut] at hσ
  · rw [hshared]
    intro d row hrow
    exact RagConfig.AttachedBy.later (h.attached d row hrow)
      (System.SameOp.of_update hthread hthreads rfl)

theorem AttachKept.attached_command {allowed : Settings -> Prop} {ch : Choice}
    {r : Except Exception c.Result} {k : Except Exception c.Result -> Action Unit}
    (h : AttachKept env cfg) (hinv : cfg.shared.Inv allowed)
    (hthread : cfg.threads t = some ⟨op, .call c k⟩)
    (hguard : guard env allowed cfg.shared t c ch)
    (hexec : exec t c ch cfg.shared = some (s', r)) {d : Nat} {row : Document}
    (hrow : s'.db.documents d = some row) : cfg.AttachedBy env s' d row := by
  have hsame : s'.db = cfg.shared.db -> s'.history = cfg.shared.history ->
      cfg.AttachedBy env s' d row := by
    intro hdb hhistory
    rw [hdb] at hrow
    unfold RagConfig.AttachedBy State.attached
    rw [hdb, hhistory]
    exact h.attached d row hrow
  rcases exec_cases hinv hguard hexec with
    rfl | ⟨note, σ, -, hσ, hclean, heffect, rfl⟩ | ⟨-, rfl⟩ | ⟨hdb, hhistory, -⟩ |
    ⟨rs, n, σ', -, -, rfl, -⟩
  · exact hsame rfl rfl
  · have hnew : (cfg.shared.db.install σ.writes).documents d = some row := hrow
    rcases h.threads t _ hthread with ⟨got, -, hattaching⟩
    have hcommit := (hattaching σ hσ).commit (hinv.session t σ hσ).documents hclean heffect hnew
    unfold RagConfig.AttachedBy
    rw [State.attached_commit, hnew, Option.bind_some]
    by_cases hprofile : (cfg.shared.db.documents d).bind Document.indexProfileId =
        row.indexProfileId
    · rw [if_neg (not_not.mpr hprofile)]
      have hbase : exists base, cfg.shared.db.documents d = some base ∧
          row.indexProfileId = base.indexProfileId := by
        rcases hcommit with hkept | hattaches
        · exact hkept
        · -- a row without a profile is not left behind
          rcases hattaches with ⟨settings, p, -, hp, -⟩
          rcases Option.bind_eq_some_iff.mp hp with ⟨i, hi, -⟩
          rw [hi] at hprofile ⊢
          rcases Option.bind_eq_some_iff.mp hprofile with ⟨base, hbase, hid⟩
          exact ⟨base, hbase, hid.symm⟩
      rcases hbase with ⟨base, hbase, hid⟩
      rcases h.attached d base hbase with ⟨c, th, hc, hth, hattaches⟩
      refine ⟨c, th, hc, hth, ?_⟩
      rw [hid]
      exact hattaches.mono fun i p hp => h.fresh.install hσ hp
    · rw [if_pos hprofile]
      refine ⟨_, _, rfl, hthread, ?_⟩
      rcases hcommit with ⟨base, hbase, hid⟩ | hattaches
      · rw [hbase, Option.bind_some] at hprofile
        exact absurd hid.symm hprofile
      · exact hattaches
  · exact hsame rfl rfl
  · exact hsame hdb hhistory
  · exact hsame rfl rfl

theorem AttachKept.command {allowed : Settings -> Prop} {ch : Choice}
    {r : Except Exception c.Result} {k : Except Exception c.Result -> Action Unit}
    (h : AttachKept env cfg) (hinv : cfg.shared.Inv allowed)
    (hthread : cfg.threads t = some ⟨op, .call c k⟩)
    (hguard : guard env allowed cfg.shared t c ch)
    (hexec : exec t c ch cfg.shared = some (s', r)) (hshared : cfg'.shared = s')
    (hthreads : cfg'.threads = Function.update cfg.threads t (some ⟨op, k r⟩)) :
    AttachKept env cfg' := by
  rcases h.threads t _ hthread with ⟨got, hfollows, hattaching⟩
  have hmay : op.MayIssue env got c := hfollows.1
  have hkept : forall i p, cfg.shared.db.profiles i = some p -> s'.db.profiles i = some p :=
    fun i p hp => (exec_step hexec).profiles h.fresh hp
  constructor
  · rw [hshared]
    exact h.fresh.step (fun i d hd => (hinv.coherent.document i d hd).1) (exec_step hexec)
  · rw [hshared]
    exact h.keyed.command hmay hexec
  · rw [hthreads, hshared]
    intro u hu
    by_cases hut : u = t
    · rw [hut, Function.update_self] at hu
      cases hu
    · rw [Function.update_of_ne hut] at hu
      exact (exec_frame hinv hguard hexec hut).session.trans (h.unstarted u hu)
  · rw [hthreads, hshared]
    intro u th hth
    by_cases hut : u = t
    · rw [hut, Function.update_self, Option.some.injEq] at hth
      subst hth
      refine ⟨nextProfile got c r, hfollows.2 r trivial, fun σ' hσ' => ?_⟩
      rw [hut] at hσ'
      cases hσ : cfg.shared.sessions t with
      | some σ => exact (hattaching σ hσ).command h.fresh h.keyed hσ hmay hexec hσ'
      | none => exact .begun hσ hexec hσ'
    · rw [Function.update_of_ne hut] at hth
      rcases h.threads u th hth with ⟨got', hfollows', hattaching'⟩
      refine ⟨got', hfollows', fun σ hσ => ?_⟩
      rw [(exec_frame hinv hguard hexec hut).session] at hσ
      exact (hattaching' σ hσ).mono hkept
  · rw [hshared]
    intro d row hrow
    exact RagConfig.AttachedBy.later (h.attached_command hinv hthread hguard hexec hrow)
      (System.SameOp.of_update hthread hthreads rfl)

end

/-!
# Runs

In every run the profile of a row is that of its last upload or retry.  When no two payloads have
one hash, a worker finds its settings described just when they give the payload of that request.
-/

section

variable {env : Env} {last : RagConfig}

/-- The settings of the request that runs as a thread. -/
def requestSettings (cfg : RagConfig) (t : Nat) : Option Settings :=
  (cfg.threads t).bind fun th => th.op.attaches

theorem attachKept_initial : AttachKept env initial where
  fresh := by
    constructor
    · intro i hi
      exact absurd rfl hi
    · intro t σ hσ
      cases hσ
    · intro t σ u τ hσ
      cases hσ
  keyed := by
    constructor
    · intro i p hp
      cases hp
    · intro t σ hσ
      cases hσ
  unstarted := fun _ _ => rfl
  threads := by
    intro t th hth
    cases hth
  attached := by
    intro d row hrow
    cases hrow

theorem reaches_attachKept {C : System.Condition (system env)}
    (hrun : System.Reaches (system env) C initial last) : AttachKept env last := by
  have hinitial : Discipline.Sound (S := system env) (discipline env fun _ => True) initial :=
    initial_sound
  refine (sound_reaches (fun _ op _ _ => body_safe fun _ _ => trivial) (AttachKept env) ?_ ?_ ?_
    hinitial attachKept_initial hrun).2
  · intro cfg t op h hfree
    exact h.start hfree rfl rfl
  · intro cfg t op c k ch s' r hinv hthread hguard _ h hexec
    exact h.command hinv hthread hguard hexec rfl rfl
  · intro cfg t th _ h hthread
    exact h.crash hthread rfl rfl

/-- The profile of a row describes the settings of the upload or retry that attached it. -/
theorem profile_describes_request {C : System.Condition (system env)}
    (hhash : Function.Injective (profileHash env))
    (hrun : System.Reaches (system env) C initial last) {d : Nat} {row : Document}
    (hrow : last.shared.db.documents d = some row) : exists c settings,
      last.shared.attached d = some c ∧ requestSettings last c.thread = some settings ∧
        last.shared.db.profilePayload row = some (buildIndexProfilePayload settings) := by
  have hkept := reaches_attachKept hrun
  rcases hkept.attached d row hrow with ⟨c, th, hc, hth, settings, p, hop, hp, hsettings⟩
  refine ⟨c, settings, hc, ?_, ?_⟩
  · rw [requestSettings, hth, Option.bind_some, hop]
  · rcases Option.bind_eq_some_iff.mp hp with ⟨i, -, hi⟩
    have hpayload : p.payload = buildIndexProfilePayload settings :=
      hhash ((hkept.keyed.committed i p hi).2.symm.trans hsettings)
    rw [Db.profilePayload, hp, Option.map_some, hpayload]

/-- A worker that indexes has settings with the payload of the request that attached the profile. -/
def IndexedAsAttached (cfg : RagConfig) (t : Nat) (c : Command) (ch : Choice) : Prop :=
  forall d, d ∈ c.indexes ch -> cfg.shared.db.documents d ≠ none ->
    exists settings, settings ∈ indexSettings cfg t ∧
      exists commit, commit ∈ cfg.shared.attached d ∧
        exists request, request ∈ requestSettings cfg commit.thread ∧
          buildIndexProfilePayload request = buildIndexProfilePayload settings

theorem indexedAsDescribed_iff {C : System.Condition (system env)}
    (hhash : Function.Injective (profileHash env))
    (hrun : System.Reaches (system env) C initial last) (t : Nat) (c : Command) (ch : Choice) :
    IndexedAsDescribed last t c ch ↔ IndexedAsAttached last t c ch := by
  constructor
  · intro h d hd hne
    rcases Option.ne_none_iff_exists'.mp hne with ⟨row, hrow⟩
    rcases h d hd row hrow with ⟨settings, hsettings, hpayload⟩
    rcases profile_describes_request hhash hrun hrow with ⟨commit, request, hc, hrequest, hstored⟩
    refine ⟨settings, hsettings, commit, hc, request, hrequest, ?_⟩
    rw [hstored, Option.some.injEq] at hpayload
    exact hpayload
  · intro h d hd row hrow
    have hne : last.shared.db.documents d ≠ none := by
      rw [show last.shared.db.documents d = some row from hrow]
      nofun
    rcases h d hd hne with ⟨settings, hsettings, commit, hc, request, hrequest, hpayload⟩
    rcases profile_describes_request hhash hrun hrow with
      ⟨commit', request', hc', hrequest', hstored⟩
    rw [show last.shared.attached d = some commit from hc, Option.some.injEq] at hc'
    subst hc'
    rw [show requestSettings last commit.thread = some request from hrequest,
      Option.some.injEq] at hrequest'
    subst hrequest'
    exact ⟨settings, hsettings, by rw [hstored, hpayload]⟩

def attachedRuns (env : Env) : System.Condition (system env) where
  starts := fun _ => True
  steps := fun cfg t c ch => IndexedAsAttached cfg t c ch ∧ RetryKeepsProfile cfg.shared t c ch

/--
The runs in which workers have the settings of the request that attached the profile are those
in which they find their settings described.
-/
theorem profileRuns_iff_attachedRuns (hhash : Function.Injective (profileHash env)) :
    System.Reaches (system env) (profileRuns env) initial last ↔
      System.Reaches (system env) (attachedRuns env) initial last := by
  constructor
  · apply System.Reaches.mono
    · exact fun _ _ => trivial
    · intro mid t c ch hrun h
      exact ⟨(indexedAsDescribed_iff hhash hrun t c ch).mp h.1, h.2⟩
  · apply System.Reaches.mono
    · exact fun _ _ => trivial
    · intro mid t c ch hrun h
      exact ⟨(indexedAsDescribed_iff hhash hrun t c ch).mpr h.1, h.2⟩

end

end RagService
