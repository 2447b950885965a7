import Mathlib.Data.List.Forall2
import Mathlib.Data.List.Nodup
import RagService.Foundation.Interleaving
import RagService.Foundation.Transitions

/-!
# Calls

Programs run alone, and systems of calls that are interleaved at their commands and keep
their results.  Each call carries its progress, a history variable.  A protocol says
which commands a call may issue at which progress: each program is proved to follow it
once, and invariants of the system are then about progress and not about programs.
-/

namespace RagService
namespace Interleaving

variable {I : Interface} {S G Op α β : Type}

/-!
# Running alone

What the commands of a program keep, the program keeps; a loop keeps what its body keeps.
-/

namespace Program

def run (exec : (c : I.Command) -> S -> S × Except I.Error (I.Result c)) :
    Program I α -> S -> S × Except I.Error α
  | ret a, s => (s, .ok a)
  | raise e, s => (s, .error e)
  | call c k, s => (k (exec c s).2).run exec (exec c s).1

/-- Every command that the program may issue has a property, and so has every result. -/
def Issues (P : I.Command -> Prop) (R : α -> Prop) : Program I α -> Prop
  | ret a => R a
  | raise _ => True
  | call c k => P c ∧ forall r, (k r).Issues P R

variable {exec : (c : I.Command) -> S -> S × Except I.Error (I.Result c)}
variable {P Q : I.Command -> Prop} {R : α -> Prop} {R' : β -> Prop}

theorem run_bind (p : Program I α) (f : α -> Program I β) (s : S) :
    (p.bind f).run exec s =
      match p.run exec s with
      | (s', .ok a) => (f a).run exec s'
      | (s', .error e) => (s', .error e) := by
  induction p generalizing s with
  | ret a => rfl
  | raise e => rfl
  | call c k ih => exact ih _ _

theorem run_bind_ok {p : Program I α} {s s' : S} {a : α} (h : p.run exec s = (s', .ok a))
    (f : α -> Program I β) : (p.bind f).run exec s = (f a).run exec s' := by
  rw [run_bind, h]

theorem run_bind_error {p : Program I α} {s s' : S} {e : I.Error}
    (h : p.run exec s = (s', .error e)) (f : α -> Program I β) :
    (p.bind f).run exec s = (s', .error e) := by
  rw [run_bind, h]

theorem run_issue_ok {c : I.Command} {s s' : S} {a : I.Result c}
    (h : exec c s = (s', .ok a)) : (issue c).run exec s = (s', .ok a) := by
  simp only [issue, run, h]

theorem run_issue_error {c : I.Command} {s s' : S} {e : I.Error}
    (h : exec c s = (s', .error e)) : (issue c).run exec s = (s', .error e) := by
  simp only [issue, run, h]

theorem run_handle (p : Program I α) (f : I.Error -> Program I α) (s : S) :
    (p.handle f).run exec s =
      match p.run exec s with
      | (s', .ok a) => (s', .ok a)
      | (s', .error e) => (f e).run exec s' := by
  induction p generalizing s with
  | ret a => rfl
  | raise e => rfl
  | call c k ih => exact ih _ _

theorem run_handle_ok {p : Program I α} {s s' : S} {a : α} (h : p.run exec s = (s', .ok a))
    (f : I.Error -> Program I α) : (p.handle f).run exec s = (s', .ok a) := by
  rw [run_handle, h]

theorem run_handle_error {p : Program I α} {s s' : S} {e : I.Error}
    (h : p.run exec s = (s', .error e)) (f : I.Error -> Program I α) :
    (p.handle f).run exec s = (f e).run exec s' := by
  rw [run_handle, h]

theorem run_outcome (p : Program I α) (s : S) :
    p.outcome.run exec s = ((p.run exec s).1, .ok (p.run exec s).2) := by
  induction p generalizing s with
  | ret a => rfl
  | raise e => rfl
  | call c k ih => exact ih _ _

theorem run_outcome_ok {p : Program I α} {s s' : S} {a : α} (h : p.run exec s = (s', .ok a)) :
    p.outcome.run exec s = (s', .ok (.ok a)) := by
  rw [run_outcome, h]

theorem run_forEach {f : β -> Program I Unit} (L : List β -> S -> Prop)
    (hbody : forall x rest s, L (x :: rest) s ->
      exists s', (f x).run exec s = (s', .ok ()) ∧ L rest s') {xs : List β} {s : S}
    (hs : L xs s) : exists s', (forEach xs f).run exec s = (s', .ok ()) ∧ L [] s' := by
  induction xs generalizing s with
  | nil => exact ⟨s, rfl, hs⟩
  | cons x rest ih =>
      rcases hbody x rest s hs with ⟨s₁, hx, hs₁⟩
      rcases ih hs₁ with ⟨s₂, hrest, hs₂⟩
      exact ⟨s₂, (run_bind_ok hx _).trans hrest, hs₂⟩

theorem run_mapEach {f : β -> Program I α} {J : S -> Prop} {R : β -> α -> Prop}
    (hbody : forall x s, J s -> exists s' y, (f x).run exec s = (s', .ok y) ∧ R x y ∧ J s')
    (xs : List β) {s : S} (hs : J s) :
    exists s' ys, (mapEach xs f).run exec s = (s', .ok ys) ∧ List.Forall₂ R xs ys ∧ J s' := by
  induction xs generalizing s with
  | nil => exact ⟨s, [], rfl, .nil, hs⟩
  | cons x rest ih =>
      rcases hbody x s hs with ⟨s₁, y, hx, hy, hs₁⟩
      rcases ih hs₁ with ⟨s₂, ys, hrest, hys, hs₂⟩
      exists s₂, y :: ys
      constructor
      · rw [mapEach, run_bind_ok hx, run_bind_ok hrest]
        rfl
      · exact ⟨.cons hy hys, hs₂⟩

theorem issues_bind {p : Program I α} {f : α -> Program I β} (hp : p.Issues P R)
    (hf : forall a, R a -> (f a).Issues P R') : (p.bind f).Issues P R' := by
  induction p with
  | ret a => exact hf a hp
  | raise e => trivial
  | call c k ih => exact ⟨hp.1, fun r => ih r (hp.2 r)⟩

theorem issues_issue_bind (c : I.Command) {f : I.Result c -> Program I β} (h : P c)
    (hf : forall a, (f a).Issues P R') : ((issue c).bind f).Issues P R' := by
  refine ⟨h, fun r => ?_⟩
  cases r with
  | ok a => exact hf a
  | error e => trivial

theorem Issues.mono {p : Program I α} (hp : p.Issues P R) (hle : forall c, P c -> Q c) :
    p.Issues Q R := by
  induction p with
  | ret a => exact hp
  | raise e => trivial
  | call c k ih => exact ⟨hle c hp.1, fun r => ih r (hp.2 r)⟩

theorem issues_issue (c : I.Command) (h : P c) : (issue c).Issues P fun _ => True := by
  refine ⟨h, fun r => ?_⟩
  cases r with
  | ok a => trivial
  | error e => trivial

theorem issues_handle {p : Program I α} {f : I.Error -> Program I α} (hp : p.Issues P R)
    (hf : forall e, (f e).Issues P R) : (p.handle f).Issues P R := by
  induction p with
  | ret a => exact hp
  | raise e => exact hf e
  | call c k ih => exact ⟨hp.1, fun r => ih r (hp.2 r)⟩

theorem issues_forEach {f : β -> Program I Unit}
    (hf : forall x, (f x).Issues P fun _ => True) (xs : List β) :
    (forEach xs f).Issues P fun _ => True := by
  induction xs with
  | nil => trivial
  | cons x rest ih => exact issues_bind (hf x) fun _ _ => ih

theorem issues_mapEach {f : β -> Program I α}
    (hf : forall x, (f x).Issues P fun _ => True) (xs : List β) :
    (mapEach xs f).Issues P fun _ => True := by
  induction xs with
  | nil => trivial
  | cons x rest ih =>
      apply issues_bind (hf x)
      intro y _
      apply issues_bind ih
      intro ys _
      trivial

theorem issues_outcome {p : Program I α} (hp : p.Issues P R) :
    p.outcome.Issues P fun _ => True := by
  induction p with
  | ret a => trivial
  | raise e => trivial
  | call c k ih => exact ⟨hp.1, fun r => ih r (hp.2 r)⟩

theorem Issues.run_result {p : Program I α} (hp : p.Issues P R) {s s' : S} {a : α}
    (h : p.run exec s = (s', .ok a)) : R a := by
  induction p generalizing s with
  | ret a =>
      cases h
      exact hp
  | raise e => cases h
  | call c k ih => exact ih _ (hp.2 _) h

theorem Issues.run_keeps {p : Program I α} (hp : p.Issues P R) {J : S -> Prop}
    (hexec : forall c s, P c -> J s -> J (exec c s).1) {s : S} (hs : J s) :
    J (p.run exec s).1 := by
  induction p generalizing s with
  | ret a => exact hs
  | raise e => exact hs
  | call c k ih => exact ih _ (hp.2 _) (hexec c s hp.1 hs)

end Program

/-!
# Protocols

A protocol says which commands are allowed at a progress, which results commands may have, and
the progress after a command.  Loops whose body leaves the progress as it is follow it.
-/

/--
The commands that are allowed at a progress, the results that commands may have, and the
progress after a command.
-/
structure Protocol (I : Interface) (G : Type) where
  allowed : G -> I.Command -> Prop
  possible : (c : I.Command) -> Except I.Error (I.Result c) -> Prop
  next : G -> (c : I.Command) -> Except I.Error (I.Result c) -> G

namespace Protocol

variable {T : Protocol I G}

/-- A program keeps to the protocol and ends with a progress and an outcome. -/
def Follows (T : Protocol I G) (Q : G -> Except I.Error α -> Prop) : G -> Program I α -> Prop
  | g, .ret a => Q g (.ok a)
  | g, .raise e => Q g (.error e)
  | g, .call c k =>
      T.allowed g c ∧ forall r, T.possible c r -> T.Follows Q (T.next g c r) (k r)

theorem follows_bind {Q : G -> Except I.Error α -> Prop} {R : G -> Except I.Error β -> Prop}
    {p : Program I α} {f : α -> Program I β} {g : G} (hp : T.Follows Q g p)
    (hok : forall g' a, Q g' (.ok a) -> T.Follows R g' (f a))
    (herror : forall g' e, Q g' (.error e) -> R g' (.error e)) :
    T.Follows R g (p.bind f) := by
  induction p generalizing g with
  | ret a => exact hok g a hp
  | raise e => exact herror g e hp
  | call c k ih => exact ⟨hp.1, fun r hr => ih r (hp.2 r hr)⟩

theorem follows_issue_bind {R : G -> Except I.Error β -> Prop} (c : I.Command)
    {f : I.Result c -> Program I β} {g : G} (hallowed : T.allowed g c)
    (hok : forall a, T.possible c (.ok a) -> T.Follows R (T.next g c (.ok a)) (f a))
    (herror : forall e, T.possible c (.error e) -> R (T.next g c (.error e)) (.error e)) :
    T.Follows R g ((Program.issue c).bind f) := by
  refine ⟨hallowed, fun r hr => ?_⟩
  cases r with
  | ok a => exact hok a hr
  | error e => exact herror e hr

theorem follows_mono {Q R : G -> Except I.Error α -> Prop} {p : Program I α} {g : G}
    (hp : T.Follows Q g p) (hle : forall g' o, Q g' o -> R g' o) : T.Follows R g p := by
  induction p generalizing g with
  | ret a => exact hle g _ hp
  | raise e => exact hle g _ hp
  | call c k ih => exact ⟨hp.1, fun r hr => ih r (hp.2 r hr)⟩

theorem follows_forEach {f : β -> Program I Unit} {g : G} {xs : List β}
    (hbody : forall x, x ∈ xs -> T.Follows (fun g' _ => g' = g) g (f x)) :
    T.Follows (fun g' _ => g' = g) g (Program.forEach xs f) := by
  induction xs with
  | nil => rfl
  | cons x rest ih =>
      apply follows_bind (hbody x (.head _))
      · intro g' _ hsame
        rw [hsame]
        exact ih fun y hy => hbody y (.tail _ hy)
      · intro g' _ hsame
        exact hsame

/-- A program whose commands are allowed at every progress. -/
theorem follows_of_issues {P : I.Command -> Prop} {R : α -> Prop} {p : Program I α}
    (hp : p.Issues P R) (hallowed : forall g c, P c -> T.allowed g c) (g : G) :
    T.Follows (fun _ _ => True) g p := by
  induction p generalizing g with
  | ret a => trivial
  | raise e => trivial
  | call c k ih => exact ⟨hallowed g c hp.1, fun r _ => ih r (hp.2 r) _⟩

/-- A program whose commands are allowed, and leave the progress as it is. -/
theorem follows_kept_of_issues {P : I.Command -> Prop} {R : α -> Prop} {p : Program I α}
    (hp : p.Issues P R) {g : G} (hallowed : forall c, P c -> T.allowed g c)
    (hnext : forall c r, P c -> T.next g c r = g) :
    T.Follows (fun g' _ => g' = g) g p := by
  induction p with
  | ret a => rfl
  | raise e => rfl
  | call c k ih =>
      refine ⟨hallowed c hp.1, fun r _ => ?_⟩
      rw [hnext c r hp.1]
      exact ih r (hp.2 r)

theorem follows_outcome {R : G -> Except I.Error (Except I.Error α) -> Prop} {p : Program I α}
    {g : G} (hp : T.Follows (fun g' o => R g' (.ok o)) g p) : T.Follows R g p.outcome := by
  induction p generalizing g with
  | ret a => exact hp
  | raise e => exact hp
  | call c k ih => exact ⟨hp.1, fun r hr => ih r (hp.2 r hr)⟩

end Protocol

/-!
# Systems of calls

A call is started once, issues its commands, and has ended when it returns or raises; it keeps
its operation, and an ended call stays.
-/

/-- What a system runs: its operations, how a command acts, and how progress is kept. -/
structure CallSystem (I : Interface) (S Op α G : Type) where
  exec : (c : I.Command) -> S -> S × Except I.Error (I.Result c)
  body : Op -> Program I α
  start : G
  next : Op -> G -> (c : I.Command) -> Except I.Error (I.Result c) -> G

structure Call (I : Interface) (Op α G : Type) where
  op : Op
  program : Program I α
  progress : G

def Call.Ended (call : Call I Op α G) : Prop :=
  match call.program with
  | .ret _ | .raise _ => True
  | .call _ _ => False

def Call.Returned (call : Call I Op α G) : Prop :=
  match call.program with
  | .ret _ => True
  | .raise _ | .call _ _ => False

def Call.command (call : Call I Op α G) : Option I.Command :=
  match call.program with
  | .ret _ | .raise _ => none
  | .call c _ => some c

instance (call : Call I Op α G) : Decidable call.Ended := by
  unfold Call.Ended
  split <;> infer_instance

instance (call : Call I Op α G) : Decidable call.Returned := by
  unfold Call.Returned
  split <;> infer_instance

structure Calls (I : Interface) (S Op α G : Type) where
  shared : S
  calls : List (Call I Op α G)

inductive CallAction (Op : Type) where
  | start (op : Op)
  /-- the call with this number issues its next command -/
  | advance (i : Nat)

namespace Calls

variable {cfg cfg' : Calls I S Op α G} {call new : Call I Op α G}

theorem mem_start (hcalls : cfg'.calls = cfg.calls ++ [new]) (h : call ∈ cfg'.calls) :
    call ∈ cfg.calls ∨ call = new := by
  rw [hcalls, List.mem_append, List.mem_singleton] at h
  exact h

theorem mem_advance {i : Nat} (hcalls : cfg'.calls = cfg.calls.set i new)
    (h : call ∈ cfg'.calls) : call ∈ cfg.calls ∨ call = new := by
  rw [hcalls] at h
  exact List.mem_or_eq_of_mem_set h

end Calls

namespace CallSystem

def step (M : CallSystem I S Op α G) (cfg : Calls I S Op α G) :
    CallAction Op -> Option (Calls I S Op α G)
  | .start op => some { cfg with calls := cfg.calls ++ [⟨op, M.body op, M.start⟩] }
  | .advance i =>
      match cfg.calls[i]? with
      | some ⟨op, .call c k, g⟩ =>
          some { shared := (M.exec c cfg.shared).1
                 calls := cfg.calls.set i
                   ⟨op, k (M.exec c cfg.shared).2, M.next op g c (M.exec c cfg.shared).2⟩ }
      | _ => none

variable {M : CallSystem I S Op α G} {cfg cfg' : Calls I S Op α G}

/-- All that a step can do. -/
theorem step_cases {a : CallAction Op} (h : M.step cfg a = some cfg') :
    (exists op, a = .start op ∧ cfg'.shared = cfg.shared ∧
      cfg'.calls = cfg.calls ++ [⟨op, M.body op, M.start⟩]) ∨
    exists i op c k g, a = .advance i ∧ cfg.calls[i]? = some ⟨op, .call c k, g⟩ ∧
      cfg'.shared = (M.exec c cfg.shared).1 ∧
      cfg'.calls = cfg.calls.set i
        ⟨op, k (M.exec c cfg.shared).2, M.next op g c (M.exec c cfg.shared).2⟩ := by
  cases a with
  | start op =>
      cases h
      exact .inl ⟨op, rfl, rfl, rfl⟩
  | advance i =>
      simp only [step] at h
      split at h
      · rename_i op c k g hcall
        cases h
        exact .inr ⟨i, op, c, k, g, rfl, hcall, rfl, rfl⟩
      · cases h

theorem mem_of_ended {a : CallAction Op} (h : M.step cfg a = some cfg')
    {call : Call I Op α G} (hcall : call ∈ cfg.calls) (hended : call.Ended) :
    call ∈ cfg'.calls := by
  cases step_cases h with
  | inl hstart =>
      rcases hstart with ⟨op, -, -, hcalls⟩
      rw [hcalls]
      exact List.mem_append_left _ hcall
  | inr hadvance =>
      rcases hadvance with ⟨i, op, c, k, g, -, hi, -, hcalls⟩
      rcases List.mem_iff_getElem.mp hcall with ⟨j, hj, hget⟩
      have hij : i ≠ j := by
        intro heq
        subst heq
        rw [List.getElem?_eq_getElem hj, hget] at hi
        cases hi
        exact hended
      rw [hcalls]
      refine List.mem_iff_getElem.mpr ⟨j, by simpa using hj, ?_⟩
      rw [List.getElem_set_ne hij]
      exact hget

theorem op_of_step {a : CallAction Op} (h : M.step cfg a = some cfg')
    {call : Call I Op α G} (hcall : call ∈ cfg'.calls) :
    (exists old, old ∈ cfg.calls ∧ old.op = call.op) ∨ a = .start call.op := by
  cases step_cases h with
  | inl hstart =>
      rcases hstart with ⟨op, ha, -, hcalls⟩
      cases Calls.mem_start hcalls hcall with
      | inl hold => exact .inl ⟨call, hold, rfl⟩
      | inr hnew =>
          rw [ha, hnew]
          exact .inr rfl
  | inr hadvance =>
      rcases hadvance with ⟨i, op, c, k, g, -, hi, -, hcalls⟩
      cases Calls.mem_advance hcalls hcall with
      | inl hold => exact .inl ⟨call, hold, rfl⟩
      | inr hnew =>
          rw [hnew]
          exact .inl ⟨_, List.mem_of_getElem? hi, rfl⟩

theorem exists_of_step {a : CallAction Op} (h : M.step cfg a = some cfg')
    {call : Call I Op α G} (hcall : call ∈ cfg.calls) :
    exists call', call' ∈ cfg'.calls ∧ call'.op = call.op := by
  rcases step_cases h with ⟨op, -, -, hcalls⟩ | ⟨i, op, c, k, g, -, hi, -, hcalls⟩
  · refine ⟨call, ?_, rfl⟩
    rw [hcalls]
    exact List.mem_append_left _ hcall
  · rcases List.mem_iff_getElem?.mp hcall with ⟨j, hj⟩
    rw [hcalls]
    by_cases hij : i = j
    · rw [← hij, hi] at hj
      rw [← Option.some.inj hj]
      exact ⟨_, List.mem_set (List.getElem?_eq_some_iff.mp hi).1 _, rfl⟩
    · refine ⟨call, List.mem_iff_getElem?.mpr ⟨j, ?_⟩, rfl⟩
      rw [List.getElem?_set_ne hij]
      exact hj

/-!
# Calls that follow a protocol

When every operation follows its protocol from the start, the rest of each call does in every
state that is reached.
-/

variable {allowed : Op -> G -> I.Command -> Prop}
variable {possible : (c : I.Command) -> Except I.Error (I.Result c) -> Prop}
variable {Q : Op -> G -> Except I.Error α -> Prop}

def protocol (M : CallSystem I S Op α G) (allowed : Op -> G -> I.Command -> Prop)
    (possible : (c : I.Command) -> Except I.Error (I.Result c) -> Prop) (op : Op) :
    Protocol I G :=
  ⟨allowed op, possible, M.next op⟩

/-- The rest of each call follows its protocol. -/
def Followed (M : CallSystem I S Op α G) (allowed : Op -> G -> I.Command -> Prop)
    (possible : (c : I.Command) -> Except I.Error (I.Result c) -> Prop)
    (Q : Op -> G -> Except I.Error α -> Prop) (cfg : Calls I S Op α G) : Prop :=
  forall call, call ∈ cfg.calls ->
    (M.protocol allowed possible call.op).Follows (Q call.op) call.progress call.program

theorem followed_step
    (hbody : forall op, (M.protocol allowed possible op).Follows (Q op) M.start (M.body op))
    (hpossible : forall c, possible c (M.exec c cfg.shared).2)
    (h : M.Followed allowed possible Q cfg) {a : CallAction Op}
    (hstep : M.step cfg a = some cfg') : M.Followed allowed possible Q cfg' := by
  intro call hcall
  rcases step_cases hstep with ⟨op, -, -, hcalls⟩ | ⟨i, op, c, k, g, -, hi, -, hcalls⟩
  · cases Calls.mem_start hcalls hcall with
    | inl hold => exact h call hold
    | inr hnew =>
        rw [hnew]
        exact hbody op
  · cases Calls.mem_advance hcalls hcall with
    | inl hold => exact h call hold
    | inr hnew =>
        rw [hnew]
        exact (h _ (List.mem_of_getElem? hi)).2 _ (hpossible c)

end CallSystem

/-!
# Calls by a key

Operations that start once each are told apart by a key.  A call that starts adds its key, and
a call that takes a step keeps it.
-/

namespace Calls

variable {K : Type} {key : Op -> K} {cfg : Calls I S Op α G}

def keys (key : Op -> K) (cfg : Calls I S Op α G) : List K :=
  cfg.calls.map fun call => key call.op

def progressOf [DecidableEq K] (key : Op -> K) (cfg : Calls I S Op α G) (k : K) : Option G :=
  (cfg.calls.find? fun call => key call.op = k).map Call.progress

theorem keys_start {cfg' : Calls I S Op α G} {call : Call I Op α G}
    (hcalls : cfg'.calls = cfg.calls ++ [call]) :
    cfg'.keys key = cfg.keys key ++ [key call.op] := by
  simp [keys, hcalls]

theorem nodup_keys_start {cfg' : Calls I S Op α G} {call : Call I Op α G}
    (hkeys : (cfg.keys key).Nodup) (hcalls : cfg'.calls = cfg.calls ++ [call])
    (hnew : key call.op ∉ cfg.keys key) : (cfg'.keys key).Nodup := by
  rw [keys_start hcalls, ← List.concat_eq_append]
  exact List.Nodup.concat hnew hkeys

variable [DecidableEq K]

theorem progressOf_eq_some (hkeys : (cfg.keys key).Nodup) {k : K} {g : G} :
    cfg.progressOf key k = some g ↔
      exists call, call ∈ cfg.calls ∧ key call.op = k ∧ call.progress = g := by
  unfold progressOf keys at *
  generalize cfg.calls = calls at hkeys ⊢
  induction calls with
  | nil => simp
  | cons first rest ih =>
      rw [List.map_cons, List.nodup_cons] at hkeys
      rw [List.find?_cons]
      by_cases hfirst : key first.op = k
      · rw [decide_eq_true hfirst]
        constructor
        · intro h
          exact ⟨first, .head _, hfirst, Option.some.inj h⟩
        · intro h
          rcases h with ⟨call, hcall, hkey, hprogress⟩
          cases List.mem_cons.mp hcall with
          | inl heq =>
              rw [← hprogress, heq]
              rfl
          | inr hrest =>
              apply absurd _ hkeys.1
              rw [hfirst, ← hkey]
              exact List.mem_map_of_mem (f := fun call => key call.op) hrest
      · rw [decide_eq_false hfirst]
        dsimp only
        rw [ih hkeys.2]
        constructor
        · intro h
          rcases h with ⟨call, hcall, h⟩
          exact ⟨call, .tail _ hcall, h⟩
        · intro h
          rcases h with ⟨call, hcall, hkey, hprogress⟩
          cases List.mem_cons.mp hcall with
          | inl heq =>
              rw [heq] at hkey
              exact absurd hkey hfirst
          | inr hrest => exact ⟨call, hrest, hkey, hprogress⟩

theorem progressOf_eq_none {k : K} : cfg.progressOf key k = none ↔ k ∉ cfg.keys key := by
  simp [progressOf, keys]

theorem progressOf_start {cfg' : Calls I S Op α G} {call : Call I Op α G}
    (hcalls : cfg'.calls = cfg.calls ++ [call]) (hnew : key call.op ∉ cfg.keys key) :
    cfg'.progressOf key =
      Function.update (cfg.progressOf key) (key call.op) (some call.progress) := by
  funext k
  by_cases hk : k = key call.op
  · subst hk
    have hnone : cfg.calls.find? (fun c => key c.op = key call.op) = none := by
      apply List.find?_eq_none.mpr
      intro c hc heq
      apply hnew
      rw [← of_decide_eq_true heq]
      exact List.mem_map_of_mem (f := fun call => key call.op) hc
    rw [Function.update_self, progressOf, hcalls, List.find?_append, hnone]
    simp
  · rw [Function.update_of_ne hk, progressOf, hcalls, List.find?_append]
    have hlast : [call].find? (fun c => key c.op = k) = none := by
      simp [Ne.symm hk]
    rw [hlast, Option.or_none]
    rfl

theorem progressOf_advance {cfg' : Calls I S Op α G} {call call' : Call I Op α G} {i : Nat}
    (hkeys : (cfg.keys key).Nodup) (hcalls : cfg'.calls = cfg.calls.set i call')
    (hi : cfg.calls[i]? = some call) (hop : call'.op = call.op) :
    cfg'.keys key = cfg.keys key ∧ cfg.progressOf key (key call.op) = some call.progress ∧
      cfg'.progressOf key =
        Function.update (cfg.progressOf key) (key call.op) (some call'.progress) := by
  rcases List.getElem?_eq_some_iff.mp hi with ⟨hlt, hget⟩
  have hsame : cfg'.keys key = cfg.keys key := by
    unfold keys
    rw [hcalls, List.map_set, hop, ← hget]
    apply List.ext_getElem?
    intro j
    by_cases hj : i = j
    · subst hj
      simp [hlt]
    · simp [hj]
  have hkeys' : (cfg'.keys key).Nodup := by
    rw [hsame]
    exact hkeys
  refine ⟨hsame, (progressOf_eq_some hkeys).mpr ⟨call, List.mem_of_getElem? hi, rfl, rfl⟩, ?_⟩
  funext k
  by_cases hk : k = key call.op
  · subst hk
    rw [Function.update_self]
    apply (progressOf_eq_some hkeys').mpr
    refine ⟨call', ?_, by rw [hop], rfl⟩
    rw [hcalls]
    exact List.mem_set hlt call'
  · rw [Function.update_of_ne hk]
    apply Option.ext
    intro g
    rw [progressOf_eq_some hkeys, progressOf_eq_some hkeys', hcalls]
    constructor
    · intro h
      rcases h with ⟨c, hc, hkey, hprogress⟩
      cases List.mem_or_eq_of_mem_set hc with
      | inl hold => exact ⟨c, hold, hkey, hprogress⟩
      | inr hnew =>
          rw [hnew, hop] at hkey
          exact absurd hkey.symm hk
    · intro h
      rcases h with ⟨c, hc, hkey, hprogress⟩
      rcases List.mem_iff_getElem.mp hc with ⟨j, hj, hjc⟩
      have hij : i ≠ j := by
        intro heq
        subst heq
        rw [← hjc, hget] at hkey
        exact hk hkey.symm
      refine ⟨c, List.mem_iff_getElem.mpr ⟨j, by simpa using hj, ?_⟩, hkey, hprogress⟩
      rw [List.getElem_set_ne hij]
      exact hjc

end Calls

/-!
# What calls have

What the calls have, in the order in which they started.  When only one call has something, it
is the one that takes the step.
-/

namespace Calls

variable {cfg cfg' : Calls I S Op α G} {f : Call I Op α G -> Option β}
variable {call call' : Call I Op α G} {i : Nat}

def collect (f : Call I Op α G -> Option β) (cfg : Calls I S Op α G) : List β :=
  cfg.calls.filterMap f

theorem collect_start (hcalls : cfg'.calls = cfg.calls ++ [call]) (hnone : f call = none) :
    cfg'.collect f = cfg.collect f := by
  simp [collect, hcalls, hnone]

theorem calls_advance (hi : cfg.calls[i]? = some call)
    (hcalls : cfg'.calls = cfg.calls.set i call') :
    exists before after, cfg.calls = before ++ call :: after ∧
      cfg'.calls = before ++ call' :: after := by
  rcases List.getElem?_eq_some_iff.mp hi with ⟨hlt, hget⟩
  refine ⟨cfg.calls.take i, cfg.calls.drop (i + 1), ?_, ?_⟩
  · rw [← hget, ← List.drop_eq_getElem_cons hlt, List.take_append_drop]
  · rw [hcalls, List.set_eq_take_append_cons_drop, if_pos hlt]

theorem collect_advance (hi : cfg.calls[i]? = some call)
    (hcalls : cfg'.calls = cfg.calls.set i call') (hsame : f call' = f call) :
    cfg'.collect f = cfg.collect f := by
  rcases calls_advance hi hcalls with ⟨before, after, hbefore, hafter⟩
  unfold collect
  rw [hbefore, hafter]
  simp only [List.filterMap_append, List.filterMap_cons, hsame]

theorem mem_collect_advance
    (hcalls : cfg'.calls = cfg.calls.set i call') {x : β} (hx : x ∈ cfg'.collect f) :
    x ∈ cfg.collect f ∨ f call' = some x := by
  rcases List.mem_filterMap.mp hx with ⟨c, hc, hfc⟩
  cases mem_advance hcalls hc with
  | inl hold => exact .inl (List.mem_filterMap.mpr ⟨c, hold, hfc⟩)
  | inr hnew =>
      rw [← hnew]
      exact .inr hfc

theorem collect_advance_new (hi : cfg.calls[i]? = some call)
    (hcalls : cfg'.calls = cfg.calls.set i call') (hnone : f call = none) {x : β}
    (hsome : f call' = some x) : (cfg'.collect f).Perm (x :: cfg.collect f) := by
  rcases calls_advance hi hcalls with ⟨before, after, hbefore, hafter⟩
  unfold collect
  rw [hbefore, hafter]
  simp only [List.filterMap_append, List.filterMap_cons, hnone, hsome]
  exact List.perm_middle

/-- When only one call has something, it is the one that takes the step. -/
theorem collect_advance_only (hi : cfg.calls[i]? = some call)
    (hcalls : cfg'.calls = cfg.calls.set i call') {x y : β} (hone : cfg.collect f = [y])
    (hsome : f call = some x) : y = x ∧ cfg'.collect f = (f call').toList := by
  rcases calls_advance hi hcalls with ⟨before, after, hbefore, hafter⟩
  unfold collect at hone ⊢
  rw [hbefore, List.filterMap_append, List.filterMap_cons_some hsome] at hone
  cases hfirst : before.filterMap f with
  | nil =>
      rw [hfirst] at hone
      rcases List.cons.inj hone with ⟨hxy, hlast⟩
      rw [hafter, List.filterMap_append, hfirst, List.filterMap_cons, hlast]
      refine ⟨hxy.symm, ?_⟩
      cases f call' with
      | none => rfl
      | some _ => rfl
  | cons z rest =>
      rw [hfirst] at hone
      rcases List.cons.inj hone with ⟨-, hrest⟩
      have hlength := congrArg List.length hrest
      simp at hlength

end Calls
end Interleaving
end RagService
