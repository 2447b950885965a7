import RagService.Discipline.Workers

/-!
# Runs of the service

Every operation meets its guards, so the invariant holds along every run.  What
is left for a property of the committed states is what one commit does to it.
-/

namespace RagService

open Interleaving Interleaving.Discipline

section

variable {env : Env} {allowed : Settings -> Prop} {t : Nat} {s : State}

/-!
# The system

The operations of the service run with settings, which a property may restrict for the workers
and the dispatchers.
-/

def Op.settings : Op -> Option Settings
  | .indexDocument cfg _ _ _ | .dispatchOutbox cfg _ => some cfg
  | _ => none

def Op.Allowed (allowed : Settings -> Prop) (op : Op) : Prop :=
  forall cfg, op.settings = some cfg -> allowed cfg

theorem body_safe {op : Op} (hop : op.Allowed allowed)
    (hfresh : (discipline env allowed).fresh t s) :
    (discipline env allowed).SafeToRun t (op.body env) s := by
  have hn : s.notes t = [] := hfresh.2
  -- a request is one transaction, whose result the handler drops
  have hrequest : forall {α : Type} {p : Action α},
      Runs env allowed t p (fun _ _ => True) (fun _ _ => True) s ->
        Runs env allowed t (p >>= fun _ => pure ()) (fun _ _ => True) (fun _ _ => True) s :=
    fun h => runs_then h (fun _ _ _ => trivial) fun _ _ _ => runs_ret trivial
  cases op with
  | createKnowledgeBase userId name description isPublic =>
      exact hrequest (createKnowledgeBase_safe userId name description isPublic hn)
  | updateKnowledgeBase pk userId isAdmin obj =>
      exact hrequest (updateKnowledgeBase_safe pk userId isAdmin obj hn)
  | deleteKnowledgeBase pk userId isAdmin =>
      exact hrequest (deleteKnowledgeBase_safe pk userId isAdmin hn)
  | createDocument cfg knowledgeBaseId userId isAdmin filename content mimeType =>
      exact hrequest
        (createDocument_safe cfg knowledgeBaseId userId isAdmin filename content mimeType hn)
  | retryDocument cfg knowledgeBaseId pk userId isAdmin =>
      exact hrequest (retryDocument_safe cfg knowledgeBaseId pk userId isAdmin hn)
  | requestDelete knowledgeBaseId pk userId isAdmin =>
      exact hrequest (requestDelete_safe knowledgeBaseId pk userId isAdmin hn)
  | indexDocument cfg documentId indexVersion retries =>
      exact indexDocument_safe documentId indexVersion retries (hop cfg rfl) hn
  | deleteDocument documentId => exact deleteDocument_safe documentId hn
  | dispatchOutbox cfg limit => exact hrequest (dispatchOutbox_safe limit (hop cfg rfl) hn)
  | repairStuckDocument cfg => exact repairStuckDocument_safe cfg hn

theorem initial_inv : State.empty.Inv allowed where
  positive := Nat.one_pos
  coherent := by
    constructor
    · intro i d hd
      cases hd
    · intro i kb hkb
      cases hkb
    · intro i e he
      cases he
    · intro i d hd
      cases hd
    · intro i d hd
      cases hd
    · intro i j d d' hd
      cases hd
    · intro i j e e' he
      cases he
  bounded := by
    intro i h
    rcases h with ⟨c, hc, -⟩
    cases hc
  known := fun i d hd => by cases hd
  aggregate := fun i e he => by cases he
  dispatched := fun i e he => by cases he
  session := fun t σ hσ => by cases hσ

theorem initial_sound :
    Discipline.Sound (S := system env) (discipline env allowed) initial where
  inv := initial_inv
  unstarted := fun _ _ => ⟨rfl, rfl⟩
  threads := fun t th hth => by cases hth

/-!
# Restrictions on runs

Conditions on the steps of a run: the settings are allowed, or every retry that commits meets a
condition on the row it started from and the committed one.
-/

def allowedRuns (env : Env) (allowed : Settings -> Prop) : System.Condition (system env) where
  starts := Op.Allowed allowed
  steps := fun _ _ _ _ => True

/-- The row that the retry of a document started from, and the committed one. -/
def State.retryRows (s : State) (t d : Nat) : Option (Document × Document) :=
  match s.sessions t with
  | some σ =>
      match σ.documents d, s.db.documents d with
      | some e, some base => some (e.loaded, base)
      | _, _ => none
  | none => none

def Command.retries : Command -> Choice -> Option Nat
  | .commit (.documentRetried d _), .proceed _ _ => some d
  | _, _ => none

def retryMeets (P : Document -> Document -> Prop) (s : State) (t : Nat) (c : Command)
    (ch : Choice) : Prop :=
  forall d, d ∈ c.retries ch -> forall p, p ∈ s.retryRows t d -> P p.1 p.2

def retryRuns (env : Env) (allowed : Settings -> Prop) (P : Document -> Document -> Prop) :
    System.Condition (system env) where
  starts := Op.Allowed allowed
  steps := fun cfg t c ch => retryMeets P cfg.shared t c ch

instance (allowed : Settings -> Prop) [DecidablePred allowed] :
    DecidablePred (Op.Allowed allowed) :=
  fun op => inferInstanceAs (Decidable (forall cfg, cfg ∈ op.settings -> allowed cfg))

instance retryMeetsDecidable (P : Document -> Document -> Prop)
    [forall d e, Decidable (P d e)] (s : State) (t : Nat) (c : Command) (ch : Choice) :
    Decidable (retryMeets P s t c ch) :=
  inferInstanceAs (Decidable (forall d, d ∈ c.retries ch -> forall p, p ∈ s.retryRows t d ->
    P p.1 p.2))

instance (env : Env) (allowed : Settings -> Prop) [DecidablePred allowed] :
    DecidablePred (allowedRuns env allowed).starts :=
  inferInstanceAs (DecidablePred (Op.Allowed allowed))

instance (env : Env) (allowed : Settings -> Prop) (cfg : RagConfig) (t : Nat)
    (c : interface.Command) (ch : (system env).Choice) :
    Decidable ((allowedRuns env allowed).steps cfg t c ch) :=
  .isTrue trivial

instance (env : Env) (allowed : Settings -> Prop) [DecidablePred allowed]
    (P : Document -> Document -> Prop) : DecidablePred (retryRuns env allowed P).starts :=
  inferInstanceAs (DecidablePred (Op.Allowed allowed))

instance (env : Env) (allowed : Settings -> Prop) (P : Document -> Document -> Prop)
    [forall d e, Decidable (P d e)] (cfg : RagConfig) (t : Nat) (c : interface.Command)
    (ch : (system env).Choice) : Decidable ((retryRuns env allowed P).steps cfg t c ch) :=
  retryMeetsDecidable P cfg.shared t c ch

/-- What the condition says of a retry at its commit. -/
theorem retryMeets_commit {P : Document -> Document -> Prop} {d event now : Nat}
    {vectors : List Embedding} {σ : Session} {e : Entry Document} {base : Document}
    (h : retryMeets P s t (.commit (.documentRetried d event)) (.proceed now vectors))
    (hσ : s.sessions t = some σ) (he : σ.documents d = some e)
    (hbase : s.db.documents d = some base) : P e.loaded base := by
  refine h d rfl (e.loaded, base) ?_
  simp [State.retryRows, hσ, he, hbase]

/-!
# Invariant rules

A property of the shared state holds along a run if every command preserves it; a property of
the committed states if every commit that the run allows does.
-/

variable {C : System.Condition (system env)} {first last : RagConfig}

theorem reaches_sound (hstarts : forall op, C.starts op -> op.Allowed allowed)
    (hrun : System.Reaches (system env) C initial last) :
    Discipline.Sound (S := system env) (discipline env allowed) last :=
  (sound_reaches_shared (fun _ _ _ hop => body_safe (hstarts _ hop)) (fun _ => True)
    (fun _ _ _ _ _ => trivial) (fun _ _ => trivial) initial_sound trivial hrun).1

def State.Quiet (s : State) : Prop :=
  forall t, s.sessions t = none

theorem exists_quiet (env : Env) (schedule : List (Label Op Choice)) (n : Nat)
    (P : RagConfig -> Prop) [DecidablePred P]
    (hn : forall l, l ∈ schedule -> l.thread < n)
    (h : (System.follow (system env) (system env).anyRun initial schedule).any
      (fun last => P last ∧ forall t, t < n -> last.shared.sessions t matches none) = true) :
    exists last, System.Reaches (system env) (system env).anyRun initial last ∧
      last.shared.Quiet ∧ P last := by
  rcases System.exists_reaches_within (system env).anyRun initial schedule n
    (fun last : RagConfig => P last ∧ forall t, t < n -> last.shared.sessions t matches none)
    hn h with ⟨last, hrun, ⟨hP, hclosed⟩, hidle⟩
  refine ⟨last, hrun, fun t => ?_, hP⟩
  by_cases ht : t < n
  · have hnone := hclosed t ht
    split at hnone
    · assumption
    · cases hnone
  · have hsound : Discipline.Sound (S := system env) (discipline env fun _ => True) last :=
      reaches_sound (fun _ _ _ _ => trivial) hrun
    exact (hsound.unstarted t (hidle t (Nat.le_of_not_lt ht))).1

/-- A property of the shared state holds along a run if every command preserves it. -/
theorem commands_preserve (hstarts : forall op, C.starts op -> op.Allowed allowed)
    (J : State -> Prop)
    (hstep : forall {cfg : RagConfig} {t c now vectors s'}, cfg.shared.Inv allowed ->
      guard env allowed cfg.shared t c (.proceed now vectors) ->
      C.steps cfg t c (.proceed now vectors) -> J cfg.shared ->
      State.Step cfg.shared t c s' -> J s')
    (hclose : forall {s : State} {t}, J s -> J (s.close t))
    (hfirst : Discipline.Sound (S := system env) (discipline env allowed) first)
    (hJ : J first.shared) (hrun : System.Reaches (system env) C first last) : J last.shared := by
  refine (sound_reaches_shared (fun _ _ _ hop => body_safe (hstarts _ hop)) J ?_
    (fun _ hJ => hclose hJ) hfirst hJ hrun).2
  intro cfg t c ch s' r hinv hguard hsteps hJ hexec
  change exec t c ch cfg.shared = some (s', r) at hexec
  change guard env allowed cfg.shared t c ch at hguard
  cases ch with
  | fail e => cases c <;> cases hexec <;> exact hJ
  | proceed now vectors => exact hstep hinv hguard hsteps hJ (exec_step hexec)

/--
A property of the committed states and the broker holds along a run if every commit
that the run allows and every message that is sent preserve it.
-/
theorem steps_preserve (hstarts : forall op, C.starts op -> op.Allowed allowed)
    (J : State -> Prop)
    (hcongr : forall {s s' : State}, s'.db = s.db -> s'.history = s.history ->
      s'.broker = s.broker -> J s -> J s')
    (hsend : forall {s s' : State} {m}, s.Inv allowed -> s.Requested m -> s'.db = s.db ->
      s'.history = s.history -> s'.broker = s.broker ++ [m] -> J s -> J s')
    (hcommit : forall {cfg : RagConfig} {t note now vectors σ}, cfg.shared.Inv allowed ->
      cfg.shared.sessions t = some σ -> σ.Clean -> σ.Effect env allowed cfg.shared t note ->
      C.steps cfg t (.commit note) (.proceed now vectors) -> J cfg.shared ->
      J (cfg.shared.commit t note σ))
    (hfirst : Discipline.Sound (S := system env) (discipline env allowed) first)
    (hJ : J first.shared) (hrun : System.Reaches (system env) C first last) : J last.shared := by
  refine commands_preserve hstarts J ?_ ?_ hfirst hJ hrun
  · intro cfg t c now vectors s' hinv hguard hsteps hJ hstep
    cases hstep with
    | nothing => exact hJ
    | commit note σ hσ =>
        rcases hguard.2 σ hσ with ⟨hclean, heffect⟩
        exact hcommit hinv hσ hclean heffect hsteps hJ
    | send m => exact hsend hinv hguard.1 rfl rfl rfl hJ
    | begin | rollback | statement | putObject | deleteObject =>
        exact hcongr (s := cfg.shared) rfl rfl rfl hJ
  · intro s t hJ
    exact hcongr (s := s) rfl rfl rfl hJ

theorem commits_preserve (hstarts : forall op, C.starts op -> op.Allowed allowed)
    (J : State -> Prop)
    (hcongr : forall {s s' : State}, s'.db = s.db -> s'.history = s.history -> J s -> J s')
    (hcommit : forall {cfg : RagConfig} {t note now vectors σ}, cfg.shared.Inv allowed ->
      cfg.shared.sessions t = some σ -> σ.Clean -> σ.Effect env allowed cfg.shared t note ->
      C.steps cfg t (.commit note) (.proceed now vectors) -> J cfg.shared ->
      J (cfg.shared.commit t note σ))
    (hfirst : Discipline.Sound (S := system env) (discipline env allowed) first)
    (hJ : J first.shared) (hrun : System.Reaches (system env) C first last) : J last.shared :=
  steps_preserve hstarts J (fun hdb hhistory _ hJ => hcongr hdb hhistory hJ)
    (fun _ _ hdb hhistory _ hJ => hcongr hdb hhistory hJ) hcommit hfirst hJ hrun

end

end RagService
