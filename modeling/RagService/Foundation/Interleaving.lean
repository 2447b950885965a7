import Mathlib.Logic.Function.Basic

/-!
# Interleaved programs over atomic commands

A program issues one command at a time and continues with the reply, which may
be an exception.  Threads that run such programs are interleaved at their
commands over one shared state.  This module gives the programs, the
interleaving semantics, and a rely-guarantee discipline: each program is proved
once, against what the other threads may do to its view of the shared state,
and the composed system keeps the shared invariant along every run.

Nothing here depends on a particular set of commands.
-/

namespace RagService
namespace Interleaving

/-!
# Programs

Programs in continuation style: a command with what follows each of its results, a return, or
an exception.  Loops and handlers are programs over programs.
-/

/-- The commands a program may issue, the type of each result, and exceptions. -/
structure Interface where
  Command : Type
  Result : Command -> Type
  Error : Type

/-- A program that issues commands and may raise. -/
inductive Program (I : Interface) (α : Type) where
  | ret (a : α)
  | raise (e : I.Error)
  | call (c : I.Command) (k : Except I.Error (I.Result c) -> Program I α)

namespace Program

variable {I : Interface} {α β : Type}

def bind : Program I α -> (α -> Program I β) -> Program I β
  | ret a, f => f a
  | raise e, _ => raise e
  | call c k, f => call c (fun r => (k r).bind f)

/-- Run a handler where the program raises. -/
def handle : Program I α -> (I.Error -> Program I α) -> Program I α
  | ret a, _ => ret a
  | raise e, h => h e
  | call c k, h => call c (fun r => (k r).handle h)

def outcome : Program I α -> Program I (Except I.Error α)
  | ret a => ret (.ok a)
  | raise e => ret (.error e)
  | call c k => call c (fun r => (k r).outcome)

instance : Monad (Program I) where
  pure := ret
  bind := bind

def issue (c : I.Command) : Program I (I.Result c) :=
  call c fun
    | .ok a => ret a
    | .error e => raise e

def forEach : List β -> (β -> Program I Unit) -> Program I Unit
  | [], _ => ret ()
  | x :: xs, f => (f x).bind fun _ => forEach xs f

def mapEach : List β -> (β -> Program I α) -> Program I (List α)
  | [], _ => ret []
  | x :: xs, f => (f x).bind fun y => (mapEach xs f).bind fun ys => ret (y :: ys)

theorem bind_def (p : Program I α) (f : α -> Program I β) : (p >>= f) = p.bind f :=
  rfl

end Program

/-!
# Interleaving

A machine executes one command of a thread; its choice resolves what the environment decides,
and a command may be blocked.  A run follows the labels of a scheduler, under a condition on
its steps, and a schedule that can be followed is a run.
-/

/--
How a machine executes one command of a thread.  The choice resolves what the
environment decides; `none` means the command is blocked.
-/
structure Machine (I : Interface) (State : Type) where
  Choice : Type
  exec : Nat -> (c : I.Command) -> Choice -> State ->
    Option (State × Except I.Error (I.Result c))
  crash : Nat -> State -> State

structure System (I : Interface) (State : Type) (Op : Type) extends Machine I State where
  body : Op -> Program I Unit

structure Thread (I : Interface) (Op : Type) where
  op : Op
  program : Program I Unit

structure Config (I : Interface) (State : Type) (Op : Type) where
  shared : State
  threads : Nat -> Option (Thread I Op)

/-- The scheduler starts a thread, lets one issue a command, or crashes one. -/
inductive Label (Op Choice : Type) where
  | start (t : Nat) (op : Op)
  | step (t : Nat) (ch : Choice)
  | crash (t : Nat)

def Label.thread {Op Choice : Type} : Label Op Choice -> Nat
  | .start t _ | .step t _ | .crash t => t

namespace System

variable {I : Interface} {State Op : Type}

def step (S : System I State Op) (cfg : Config I State Op) :
    Label Op S.Choice -> Option (Config I State Op)
  | .start t op =>
      match cfg.threads t with
      | none =>
          some { cfg with threads := Function.update cfg.threads t (some ⟨op, S.body op⟩) }
      | some _ => none
  | .step t ch =>
      match cfg.threads t with
      | some ⟨op, .call c k⟩ =>
          match S.exec t c ch cfg.shared with
          | some (s', r) =>
              some { shared := s'
                     threads := Function.update cfg.threads t (some ⟨op, k r⟩) }
          | none => none
      | _ => none
  | .crash t =>
      match cfg.threads t with
      | some ⟨op, _⟩ =>
          some { shared := S.crash t cfg.shared
                 threads := Function.update cfg.threads t (some ⟨op, .ret ()⟩) }
      | none => none

/--
Restrictions on a run: which operations start, and in which configurations a
thread issues which command.
-/
structure Condition (S : System I State Op) where
  starts : Op -> Prop
  steps : Config I State Op -> Nat -> (c : I.Command) -> S.Choice -> Prop

def anyRun (S : System I State Op) : Condition S where
  starts := fun _ => True
  steps := fun _ _ _ _ => True

def Condition.Permits {S : System I State Op} (C : Condition S) (cfg : Config I State Op) :
    Label Op S.Choice -> Prop
  | .start _ op => C.starts op
  | .step t ch =>
      match cfg.threads t with
      | some ⟨_, .call c _⟩ => C.steps cfg t c ch
      | _ => True
  | .crash _ => True

/-- Runs whose every step meets a condition. -/
inductive Reaches (S : System I State Op) (C : Condition S) :
    Config I State Op -> Config I State Op -> Prop where
  | refl (cfg : Config I State Op) : Reaches S C cfg cfg
  | tail {cfg mid last : Config I State Op} {l : Label Op S.Choice} :
      Reaches S C cfg mid ->
      C.Permits mid l ->
      S.step mid l = some last ->
      Reaches S C cfg last

def follow (S : System I State Op) (C : Condition S)
    [forall cfg l, Decidable (C.Permits cfg l)] :
    Config I State Op -> List (Label Op S.Choice) -> Option (Config I State Op)
  | cfg, [] => some cfg
  | cfg, l :: ls =>
      if C.Permits cfg l then
        match S.step cfg l with
        | some next => follow S C next ls
        | none => none
      else
        none

instance {S : System I State Op} (C : Condition S) [DecidablePred C.starts]
    [forall cfg t c ch, Decidable (C.steps cfg t c ch)] (cfg : Config I State Op) :
    (l : Label Op S.Choice) -> Decidable (C.Permits cfg l)
  | .start _ op => inferInstanceAs (Decidable (C.starts op))
  | .step t ch =>
      match h : cfg.threads t with
      | some ⟨_, .call c _⟩ =>
          decidable_of_iff (C.steps cfg t c ch) (by simp only [Condition.Permits, h])
      | some ⟨_, .ret _⟩ => .isTrue (by simp only [Condition.Permits, h])
      | some ⟨_, .raise _⟩ => .isTrue (by simp only [Condition.Permits, h])
      | none => .isTrue (by simp only [Condition.Permits, h])
  | .crash _ => .isTrue trivial

instance (S : System I State Op) : DecidablePred S.anyRun.starts :=
  fun _ => .isTrue trivial

instance (S : System I State Op) (cfg : Config I State Op) (t : Nat) (c : I.Command)
    (ch : S.Choice) : Decidable (S.anyRun.steps cfg t c ch) :=
  .isTrue trivial

theorem Reaches.trans {S : System I State Op} {C : Condition S}
    {first mid last : Config I State Op}
    (hfirst : Reaches S C first mid) (hlast : Reaches S C mid last) :
    Reaches S C first last := by
  induction hlast with
  | refl => exact hfirst
  | tail _ hpermits hstep ih => exact Reaches.tail ih hpermits hstep

/-- A condition may be replaced by one that the steps of the run meet as well. -/
theorem Reaches.mono {S : System I State Op} {C D : Condition S} {first last : Config I State Op}
    (hstarts : forall op, C.starts op -> D.starts op)
    (hsteps : forall {mid t c ch}, Reaches S C first mid -> C.steps mid t c ch ->
      D.steps mid t c ch)
    (h : Reaches S C first last) : Reaches S D first last := by
  induction h with
  | refl => exact Reaches.refl _
  | tail hrun hpermits hstep ih =>
      rename_i l
      refine Reaches.tail ih ?_ hstep
      cases l with
      | start t op => exact hstarts op hpermits
      | step t ch =>
          simp only [Condition.Permits] at hpermits ⊢
          split
          · rename_i hthread
            rw [hthread] at hpermits
            exact hsteps hrun hpermits
          · trivial
      | crash t => trivial

theorem Reaches.head {S : System I State Op} {C : Condition S}
    {first mid last : Config I State Op} {l : Label Op S.Choice}
    (hpermits : C.Permits first l) (hstep : S.step first l = some mid)
    (hlast : Reaches S C mid last) :
    Reaches S C first last :=
  (Reaches.tail (Reaches.refl first) hpermits hstep).trans hlast

theorem reaches_of_follow {S : System I State Op} {C : Condition S}
    [forall cfg l, Decidable (C.Permits cfg l)]
    {schedule : List (Label Op S.Choice)} {cfg last : Config I State Op}
    (h : follow S C cfg schedule = some last) :
    Reaches S C cfg last := by
  induction schedule generalizing cfg with
  | nil =>
      cases h
      exact Reaches.refl _
  | cons l ls ih =>
      unfold follow at h
      split at h
      · rename_i hpermits
        split at h
        · rename_i next hstep
          exact Reaches.head hpermits hstep (ih h)
        · cases h
      · cases h

theorem exists_reaches {S : System I State Op} (C : Condition S)
    [forall cfg l, Decidable (C.Permits cfg l)] (cfg : Config I State Op)
    (schedule : List (Label Op S.Choice)) (P : Config I State Op -> Prop) [DecidablePred P]
    (h : (follow S C cfg schedule).any (fun last => P last) = true) :
    exists last, Reaches S C cfg last ∧ P last := by
  rcases (Option.any_eq_true ..).mp h with ⟨last, hlast, hP⟩
  exact ⟨last, reaches_of_follow hlast, of_decide_eq_true hP⟩

theorem exists_reaches_twice {S : System I State Op} (C : Condition S)
    [forall cfg l, Decidable (C.Permits cfg l)] (cfg : Config I State Op)
    (first second : List (Label Op S.Choice)) (P Q : Config I State Op -> Prop)
    [DecidablePred P] [DecidablePred Q]
    (h : (follow S C cfg first).any (fun mid => decide (P mid) &&
      (follow S C mid second).any (fun last => Q last)) = true) :
    exists mid last, Reaches S C cfg mid ∧ P mid ∧ Reaches S C mid last ∧ Q last := by
  rcases (Option.any_eq_true ..).mp h with ⟨mid, hmid, hrest⟩
  rw [Bool.and_eq_true, decide_eq_true_eq] at hrest
  rcases exists_reaches C mid second Q hrest.2 with ⟨last, hlast, hQ⟩
  exact ⟨mid, last, reaches_of_follow hmid, hrest.1, hlast, hQ⟩

theorem step_threads {S : System I State Op} {cfg last : Config I State Op}
    {l : Label Op S.Choice} (h : S.step cfg l = some last) {u : Nat} (hu : u ≠ l.thread) :
    last.threads u = cfg.threads u := by
  cases l with
  | start t op =>
      simp only [step] at h
      split at h
      · cases h
        exact Function.update_of_ne hu _ _
      · cases h
  | step t ch =>
      simp only [step] at h
      split at h
      · split at h
        · cases h
          exact Function.update_of_ne hu _ _
        · cases h
      · cases h
  | crash t =>
      simp only [step] at h
      split at h
      · cases h
        exact Function.update_of_ne hu _ _
      · cases h

theorem follow_threads {S : System I State Op} {C : Condition S}
    [forall cfg l, Decidable (C.Permits cfg l)]
    {schedule : List (Label Op S.Choice)} {cfg last : Config I State Op}
    (h : follow S C cfg schedule = some last) {u : Nat}
    (hu : forall l, l ∈ schedule -> u ≠ l.thread) : last.threads u = cfg.threads u := by
  induction schedule generalizing cfg with
  | nil =>
      cases h
      rfl
  | cons l ls ih =>
      unfold follow at h
      split at h
      · split at h
        · rename_i next hstep
          have hrest := ih h fun l' hl' => hu l' (List.mem_cons_of_mem l hl')
          exact hrest.trans (step_threads hstep (hu l List.mem_cons_self))
        · cases h
      · cases h

/-- A schedule of the first `n` threads leaves the other threads alone. -/
theorem exists_reaches_within {S : System I State Op} (C : Condition S)
    [forall cfg l, Decidable (C.Permits cfg l)] (cfg : Config I State Op)
    (schedule : List (Label Op S.Choice)) (n : Nat) (P : Config I State Op -> Prop)
    [DecidablePred P] (hn : forall l, l ∈ schedule -> l.thread < n)
    (h : (follow S C cfg schedule).any (fun last => P last) = true) :
    exists last, Reaches S C cfg last ∧ P last ∧
      forall t, n ≤ t -> last.threads t = cfg.threads t := by
  rcases (Option.any_eq_true ..).mp h with ⟨last, hlast, hP⟩
  refine ⟨last, reaches_of_follow hlast, of_decide_eq_true hP, fun t ht => ?_⟩
  exact follow_threads hlast fun l hl => Nat.ne_of_gt (Nat.lt_of_lt_of_le (hn l hl) ht)

/-!
# The operations of threads

No label changes the operation of a thread that has started, so the operations of the last
configuration of a run are known at every step of it.
-/

def SameOp (cfg last : Config I State Op) (t : Nat) : Prop :=
  forall th, cfg.threads t = some th -> exists th', last.threads t = some th' ∧ th'.op = th.op

theorem SameOp.refl (cfg : Config I State Op) (t : Nat) : SameOp cfg cfg t :=
  fun th hth => ⟨th, hth, rfl⟩

theorem SameOp.trans {cfg mid last : Config I State Op} {t : Nat} (h : SameOp cfg mid t)
    (h' : SameOp mid last t) : SameOp cfg last t := by
  intro th hth
  rcases h th hth with ⟨mid, hmid, hop⟩
  rcases h' mid hmid with ⟨last, hlast, hop'⟩
  exact ⟨last, hlast, hop'.trans hop⟩

theorem SameOp.of_update {cfg last : Config I State Op} {t : Nat} {th th' : Thread I Op}
    (hthread : cfg.threads t = some th)
    (hthreads : last.threads = Function.update cfg.threads t (some th')) (hop : th'.op = th.op)
    (u : Nat) : SameOp cfg last u := by
  intro old hold
  rw [hthreads]
  by_cases hu : u = t
  · rw [hu, hthread, Option.some.injEq] at hold
    rw [hu, Function.update_self, ← hold]
    exact ⟨th', rfl, hop⟩
  · rw [Function.update_of_ne hu]
    exact ⟨old, hold, rfl⟩

theorem step_sameOp {S : System I State Op} {cfg last : Config I State Op}
    {l : Label Op S.Choice} (h : S.step cfg l = some last) (u : Nat) : SameOp cfg last u := by
  by_cases hu : u = l.thread
  · intro th hth
    subst hu
    cases l with
    | start t op =>
        simp only [Label.thread] at hth
        simp only [step, hth] at h
        cases h
    | step t ch =>
        simp only [Label.thread] at hth ⊢
        simp only [step, hth] at h
        split at h
        · rename_i heq
          cases heq
          split at h
          · cases h
            exact ⟨_, Function.update_self _ _ _, rfl⟩
          · cases h
        · cases h
    | crash t =>
        simp only [Label.thread] at hth ⊢
        simp only [step, hth] at h
        cases h
        exact ⟨_, Function.update_self _ _ _, rfl⟩
  · intro th hth
    exact ⟨th, (step_threads h hu).trans hth, rfl⟩

/-- The same runs, with the operations of their last configuration known at every step. -/
def Condition.withOps {S : System I State Op} (C : Condition S) (last : Config I State Op) :
    Condition S where
  starts := C.starts
  steps := fun cfg t c ch => C.steps cfg t c ch ∧ SameOp cfg last t

theorem Permits.withOps {S : System I State Op} {C : Condition S} {cfg last : Config I State Op}
    {l : Label Op S.Choice} (h : C.Permits cfg l) (hops : forall t, SameOp cfg last t) :
    (C.withOps last).Permits cfg l := by
  cases l with
  | start t op => exact h
  | step t ch =>
      simp only [Condition.Permits] at h ⊢
      split
      · rename_i hthread
        rw [hthread] at h
        exact ⟨h, hops t⟩
      · trivial
  | crash t => trivial

theorem Reaches.withOps_of_sameOp {S : System I State Op} {C : Condition S}
    {first mid last : Config I State Op} (h : Reaches S C first mid)
    (hops : forall t, SameOp mid last t) : Reaches S (C.withOps last) first mid := by
  induction h with
  | refl => exact Reaches.refl _
  | tail hrun hpermits hstep ih =>
      have hbefore := fun t => (step_sameOp hstep t).trans (hops t)
      exact Reaches.tail (ih hbefore) (Permits.withOps hpermits hbefore) hstep

theorem Reaches.withOps {S : System I State Op} {C : Condition S}
    {first last : Config I State Op} (h : Reaches S C first last) :
    Reaches S (C.withOps last) first last :=
  h.withOps_of_sameOp (SameOp.refl last)

end System

/-!
# The rely-guarantee discipline

A thread may rely on `frame t s s'` for every change the other threads make and has to meet
`guard` whenever it issues a command.  Before it starts, the state is `fresh` for it.  A loop
keeps an invariant of the elements done and to do, and facts about the whole run accumulate in
a preorder that the frame and every guarded command respect.
-/

structure Discipline {I : Interface} {State : Type} (M : Machine I State) where
  inv : State -> Prop
  frame : Nat -> State -> State -> Prop
  guard : Nat -> (c : I.Command) -> M.Choice -> State -> Prop
  fresh : Nat -> State -> Prop
  frame_refl : forall t s, frame t s s
  frame_trans : forall {t s₁ s₂ s₃}, frame t s₁ s₂ -> frame t s₂ s₃ -> frame t s₁ s₃
  fresh_frame : forall {t s s'}, fresh t s -> frame t s s' -> fresh t s'
  exec_inv : forall {t c ch s s' r},
    inv s -> guard t c ch s -> M.exec t c ch s = some (s', r) -> inv s'
  exec_frame : forall {t t' c ch s s' r},
    inv s -> guard t c ch s -> M.exec t c ch s = some (s', r) -> t' ≠ t -> frame t' s s'
  crash_inv : forall {t s}, inv s -> inv (M.crash t s)
  crash_frame : forall {t t' s}, inv s -> t' ≠ t -> frame t' s (M.crash t s)

namespace Discipline

variable {I : Interface} {State : Type} {M : Machine I State} {α β : Type}

/--
From `s`, thread `t` may run the program among threads that respect
its frame: every command meets its guard, a return meets `Q` and an
exception meets `X`.
-/
def Safe (D : Discipline M) (t : Nat) :
    Program I α -> (α -> State -> Prop) -> (I.Error -> State -> Prop) -> State -> Prop
  | .ret a, Q, _, s => Q a s
  | .raise e, _, X, s => X e s
  | .call c k, Q, X, s =>
      forall s', D.inv s' -> D.frame t s s' ->
        forall ch s'' r, M.exec t c ch s' = some (s'', r) ->
          D.guard t c ch s' ∧ Safe D t (k r) Q X s''

def SafeToRun (D : Discipline M) (t : Nat) (p : Program I α) (s : State) : Prop :=
  D.Safe t p (fun _ _ => True) (fun _ _ => True) s

variable {D : Discipline M} {t : Nat}

theorem safe_ret {a : α} {Q : α -> State -> Prop} {X : I.Error -> State -> Prop}
    {s : State} (h : Q a s) : D.Safe t (.ret a) Q X s :=
  h

theorem safe_raise {e : I.Error} {Q : α -> State -> Prop} {X : I.Error -> State -> Prop}
    {s : State} (h : X e s) : D.Safe t (.raise e) Q X s :=
  h

theorem safe_mono {p : Program I α} {Q Q' : α -> State -> Prop}
    {X X' : I.Error -> State -> Prop} {s : State}
    (h : D.Safe t p Q X s)
    (hQ : forall a s, Q a s -> Q' a s) (hX : forall e s, X e s -> X' e s) :
    D.Safe t p Q' X' s := by
  induction p generalizing s with
  | ret a => exact hQ a s h
  | raise e => exact hX e s h
  | call c k ih =>
      intro s' hinv hframe ch s'' r hexec
      rcases h s' hinv hframe ch s'' r hexec with ⟨hguard, hrest⟩
      exact ⟨hguard, ih r hrest⟩

theorem safe_bind {p : Program I α} {f : α -> Program I β}
    {Q : β -> State -> Prop} {X : I.Error -> State -> Prop} {s : State}
    (h : D.Safe t p (fun a s => D.Safe t (f a) Q X s) X s) :
    D.Safe t (p >>= f) Q X s := by
  induction p generalizing s with
  | ret a => exact h
  | raise e => exact h
  | call c k ih =>
      intro s' hinv hframe ch s'' r hexec
      rcases h s' hinv hframe ch s'' r hexec with ⟨hguard, hrest⟩
      exact ⟨hguard, ih r hrest⟩

theorem safe_handle {p : Program I α} {f : I.Error -> Program I α}
    {Q : α -> State -> Prop} {X : I.Error -> State -> Prop} {s : State}
    (h : D.Safe t p Q (fun e s => D.Safe t (f e) Q X s) s) :
    D.Safe t (p.handle f) Q X s := by
  induction p generalizing s with
  | ret a => exact h
  | raise e => exact h
  | call c k ih =>
      intro s' hinv hframe ch s'' r hexec
      rcases h s' hinv hframe ch s'' r hexec with ⟨hguard, hrest⟩
      exact ⟨hguard, ih r hrest⟩

theorem safe_outcome {p : Program I α} {Q : Except I.Error α -> State -> Prop}
    {X : I.Error -> State -> Prop} {s : State}
    (h : D.Safe t p (fun a => Q (.ok a)) (fun e => Q (.error e)) s) :
    D.Safe t p.outcome Q X s := by
  induction p generalizing s with
  | ret a => exact h
  | raise e => exact h
  | call c k ih =>
      intro s' hinv hframe ch s'' r hexec
      rcases h s' hinv hframe ch s'' r hexec with ⟨hguard, hrest⟩
      exact ⟨hguard, ih r hrest⟩

theorem safe_issue {c : I.Command} {Q : I.Result c -> State -> Prop}
    {X : I.Error -> State -> Prop} {s : State}
    (h : forall s', D.inv s' -> D.frame t s s' ->
      forall ch s'' r, M.exec t c ch s' = some (s'', r) ->
        D.guard t c ch s' ∧
          match r with
          | .ok a => Q a s''
          | .error e => X e s'') :
    D.Safe t (Program.issue c) Q X s := by
  intro s' hinv hframe ch s'' r hexec
  have hstep := h s' hinv hframe ch s'' r hexec
  cases r with
  | ok a => exact hstep
  | error e => exact hstep

theorem safe_forEach {f : β -> Program I Unit} {X : I.Error -> State -> Prop}
    (L : List β -> State -> Prop) {xs : List β} {s : State}
    (hstart : L xs s)
    (hbody : forall x rest s, L (x :: rest) s -> D.Safe t (f x) (fun _ => L rest) X s) :
    D.Safe t (Program.forEach xs f) (fun _ => L []) X s := by
  induction xs generalizing s with
  | nil => exact hstart
  | cons x rest ih =>
      apply safe_bind (f := fun _ => Program.forEach rest f)
      exact safe_mono (hbody x rest s hstart) (fun _ s hL => ih hL) (fun _ _ hX => hX)

theorem safe_mapEach_append {f : β -> Program I α} {X : I.Error -> State -> Prop}
    (L : List β -> List α -> State -> Prop) {xs : List β} {done : List α} {s : State}
    (hstart : L xs done s)
    (hbody : forall x rest done s, L (x :: rest) done s ->
      D.Safe t (f x) (fun y => L rest (done ++ [y])) X s) :
    D.Safe t (Program.mapEach xs f) (fun ys => L [] (done ++ ys)) X s := by
  induction xs generalizing s done with
  | nil => simpa [Program.mapEach, Safe] using hstart
  | cons x rest ih =>
      apply safe_bind (f := fun y =>
        (Program.mapEach rest f).bind fun ys => Program.ret (y :: ys))
      refine safe_mono (hbody x rest done s hstart) (fun y s hL => ?_) (fun _ _ hX => hX)
      apply safe_bind (f := fun ys => Program.ret (y :: ys))
      refine safe_mono (ih hL) (fun ys s hdone => ?_) (fun _ _ hX => hX)
      simpa [Safe] using hdone

theorem safe_mapEach {f : β -> Program I α} {X : I.Error -> State -> Prop}
    (L : List β -> List α -> State -> Prop) {xs : List β} {s : State}
    (hstart : L xs [] s)
    (hbody : forall x rest done s, L (x :: rest) done s ->
      D.Safe t (f x) (fun y => L rest (done ++ [y])) X s) :
    D.Safe t (Program.mapEach xs f) (fun ys => L [] ys) X s :=
  safe_mapEach_append L hstart hbody

/--
Facts about the whole run accumulate in a preorder that the frame and every
guarded command respect.
-/
theorem safe_along (R : State -> State -> Prop)
    (hrefl : forall s, R s s)
    (htrans : forall {s₁ s₂ s₃}, R s₁ s₂ -> R s₂ s₃ -> R s₁ s₃)
    (hframe : forall {s s'}, D.frame t s s' -> R s s')
    (hexec : forall {c ch s s' r}, D.inv s -> D.guard t c ch s ->
      M.exec t c ch s = some (s', r) -> R s s')
    {p : Program I α} {Q : α -> State -> Prop} {X : I.Error -> State -> Prop} {s : State}
    (h : D.Safe t p Q X s) :
    D.Safe t p (fun a s' => Q a s' ∧ R s s') (fun e s' => X e s' ∧ R s s') s := by
  induction p generalizing s with
  | ret a => exact ⟨h, hrefl s⟩
  | raise e => exact ⟨h, hrefl s⟩
  | call c k ih =>
      intro s' hinv hfr ch s'' r hex
      rcases h s' hinv hfr ch s'' r hex with ⟨hguard, hrest⟩
      have hR : R s s'' := htrans (hframe hfr) (hexec hinv hguard hex)
      refine ⟨hguard, safe_mono (ih r hrest) ?_ ?_⟩
      · intro a s₃ h
        rcases h with ⟨hQ, hlater⟩
        exact ⟨hQ, htrans hR hlater⟩
      · intro e s₃ h
        rcases h with ⟨hX, hlater⟩
        exact ⟨hX, htrans hR hlater⟩

theorem safeToRun_frame {p : Program I α} {s s' : State}
    (h : D.SafeToRun t p s) (hframe : D.frame t s s') : D.SafeToRun t p s' := by
  cases p with
  | ret a => trivial
  | raise e => trivial
  | call c k =>
      intro s₁ hinv hframe'
      exact h s₁ hinv (D.frame_trans hframe hframe')

/-!
# Soundness of the discipline

A sound configuration stays sound, so a property holds along a run if every start, every
guarded command that meets the run condition and every crash preserves it.
-/

section Soundness

variable {Op : Type} {S : System I State Op} (D : Discipline S.toMachine)

/-- The shared invariant holds and every thread may safely start or go on. -/
structure Sound (cfg : Config I State Op) : Prop where
  inv : D.inv cfg.shared
  unstarted : forall t, cfg.threads t = none -> D.fresh t cfg.shared
  threads : forall t th, cfg.threads t = some th -> D.SafeToRun t th.program cfg.shared

variable {D}

theorem sound_start {cfg last : Config I State Op} {t : Nat} {op : Op}
    (hbody : D.fresh t cfg.shared -> D.SafeToRun t (S.body op) cfg.shared)
    (h : D.Sound cfg) (hstep : S.step cfg (.start t op) = some last) :
    cfg.threads t = none ∧
      last = { cfg with threads := Function.update cfg.threads t (some ⟨op, S.body op⟩) } ∧
      D.Sound last := by
  simp only [System.step] at hstep
  split at hstep
  · rename_i hfree
    cases hstep
    refine ⟨hfree, rfl, h.inv, fun u hu => ?_, fun u th hth => ?_⟩
    · by_cases hut : u = t
      · subst u
        simp at hu
      · simp only [Function.update_of_ne hut] at hu
        exact h.unstarted u hu
    · by_cases hu : u = t
      · subst u
        simp only [Function.update_self, Option.some.injEq] at hth
        subst th
        exact hbody (h.unstarted t hfree)
      · simp only [Function.update_of_ne hu] at hth
        exact h.threads u th hth
  · cases hstep

theorem sound_exec {cfg last : Config I State Op} {t : Nat} {ch : S.Choice}
    (h : D.Sound cfg) (hstep : S.step cfg (.step t ch) = some last) :
    exists op c k s' r,
      cfg.threads t = some ⟨op, .call c k⟩ ∧
      S.exec t c ch cfg.shared = some (s', r) ∧
      D.guard t c ch cfg.shared ∧
      last = ⟨s', Function.update cfg.threads t (some ⟨op, k r⟩)⟩ ∧
      D.Sound last := by
  simp only [System.step] at hstep
  split at hstep
  · rename_i op c k hthread
    split at hstep
    · rename_i s' r hexec
      cases hstep
      have hsafe := h.threads t _ hthread
      rcases hsafe cfg.shared h.inv (D.frame_refl t cfg.shared) ch s' r hexec with
        ⟨hguard, hrest⟩
      refine ⟨op, c, k, s', r, hthread, hexec, hguard, rfl,
        D.exec_inv h.inv hguard hexec, fun u hu => ?_, fun u th hth => ?_⟩
      · by_cases hut : u = t
        · subst u
          simp at hu
        · simp only [Function.update_of_ne hut] at hu
          exact D.fresh_frame (h.unstarted u hu) (D.exec_frame h.inv hguard hexec hut)
      · by_cases hu : u = t
        · subst u
          simp only [Function.update_self, Option.some.injEq] at hth
          subst th
          exact hrest
        · simp only [Function.update_of_ne hu] at hth
          exact safeToRun_frame (h.threads u th hth) (D.exec_frame h.inv hguard hexec hu)
    · cases hstep
  · cases hstep

theorem sound_crash {cfg last : Config I State Op} {t : Nat}
    (h : D.Sound cfg) (hstep : S.step cfg (.crash t) = some last) :
    exists th,
      cfg.threads t = some th ∧
      last = ⟨S.crash t cfg.shared,
        Function.update cfg.threads t (some ⟨th.op, .ret ()⟩)⟩ ∧
      D.Sound last := by
  simp only [System.step] at hstep
  split at hstep
  · rename_i op program hthread
    cases hstep
    refine ⟨_, hthread, rfl, D.crash_inv h.inv, fun u hu => ?_, fun u th hth => ?_⟩
    · by_cases hut : u = t
      · subst u
        simp at hu
      · simp only [Function.update_of_ne hut] at hu
        exact D.fresh_frame (h.unstarted u hu) (D.crash_frame h.inv hut)
    · by_cases hu : u = t
      · subst u
        simp only [Function.update_self, Option.some.injEq] at hth
        subst th
        trivial
      · simp only [Function.update_of_ne hu] at hth
        exact safeToRun_frame (h.threads u th hth) (D.crash_frame h.inv hu)
  · cases hstep

/--
Invariant rule: a property of configurations that every start, every guarded
command meeting the run condition and every crash preserves holds along every
such run.
-/
theorem sound_reaches {C : System.Condition S}
    (hbody : forall t op s, C.starts op -> D.fresh t s -> D.SafeToRun t (S.body op) s)
    (J : Config I State Op -> Prop)
    (hstart : forall {cfg t op}, J cfg -> cfg.threads t = none ->
      J { cfg with threads := Function.update cfg.threads t (some ⟨op, S.body op⟩) })
    (hexec : forall {cfg : Config I State Op} {t op c k ch s' r}, D.inv cfg.shared ->
      cfg.threads t = some ⟨op, .call c k⟩ -> D.guard t c ch cfg.shared ->
      C.steps cfg t c ch -> J cfg -> S.exec t c ch cfg.shared = some (s', r) ->
      J ⟨s', Function.update cfg.threads t (some ⟨op, k r⟩)⟩)
    (hcrash : forall {cfg t th}, D.inv cfg.shared -> J cfg -> cfg.threads t = some th ->
      J ⟨S.crash t cfg.shared, Function.update cfg.threads t (some ⟨th.op, .ret ()⟩)⟩)
    {first last : Config I State Op}
    (hfirst : D.Sound first) (hJ : J first) (hrun : System.Reaches S C first last) :
    D.Sound last ∧ J last := by
  induction hrun with
  | refl => exact ⟨hfirst, hJ⟩
  | tail _ hpermits hstep ih =>
      rename_i mid last l hrun
      rcases ih with ⟨hmid, hJmid⟩
      cases l with
      | start t op =>
          rcases sound_start (hbody t op mid.shared hpermits) hmid hstep with
            ⟨hfree, hlast, hsound⟩
          refine ⟨hsound, ?_⟩
          rw [hlast]
          exact hstart hJmid hfree
      | step t ch =>
          rcases sound_exec hmid hstep with
            ⟨op, c, k, s', r, hthread, hex, hguard, hlast, hsound⟩
          refine ⟨hsound, ?_⟩
          simp only [System.Condition.Permits, hthread] at hpermits
          rw [hlast]
          exact hexec hmid.inv hthread hguard hpermits hJmid hex
      | crash t =>
          rcases sound_crash hmid hstep with ⟨th, hthread, hlast, hsound⟩
          refine ⟨hsound, ?_⟩
          rw [hlast]
          exact hcrash hmid.inv hJmid hthread

/-- The invariant rule for a property of the shared state alone. -/
theorem sound_reaches_shared {C : System.Condition S}
    (hbody : forall t op s, C.starts op -> D.fresh t s -> D.SafeToRun t (S.body op) s)
    (J : State -> Prop)
    (hexec : forall {cfg : Config I State Op} {t c ch s' r}, D.inv cfg.shared ->
      D.guard t c ch cfg.shared -> C.steps cfg t c ch -> J cfg.shared ->
      S.exec t c ch cfg.shared = some (s', r) -> J s')
    (hcrash : forall {s t}, D.inv s -> J s -> J (S.crash t s))
    {first last : Config I State Op}
    (hfirst : D.Sound first) (hJ : J first.shared) (hrun : System.Reaches S C first last) :
    D.Sound last ∧ J last.shared :=
  sound_reaches hbody (fun cfg => J cfg.shared)
    (fun hJ _ => hJ)
    (fun hinv _ hguard hsteps hJ hex => hexec hinv hguard hsteps hJ hex)
    (fun hinv hJ _ => hcrash hinv hJ) hfirst hJ hrun

end Soundness

end Discipline

end Interleaving
end RagService
