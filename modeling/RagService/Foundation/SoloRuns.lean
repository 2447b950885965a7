import RagService.Foundation.Calls

/-!
# Solo runs

A thread that runs its program with no other thread in between, on a machine whose
commands go through or fail as the environment chooses.
-/

namespace RagService
namespace Interleaving

variable {I : Interface} {State α β : Type}

/-- The program ends with an outcome in a state, for some choices of the environment. -/
inductive Ends (M : Machine I State) (t : Nat) :
    Program I α -> State -> Except I.Error α -> State -> Prop where
  | ret (a : α) (s : State) : Ends M t (.ret a) s (.ok a) s
  | raise (e : I.Error) (s : State) : Ends M t (.raise e) s (.error e) s
  | call {c : I.Command} {k : Except I.Error (I.Result c) -> Program I α} {ch : M.Choice}
      {s s' last : State} {r : Except I.Error (I.Result c)} {out : Except I.Error α} :
      M.exec t c ch s = some (s', r) ->
      Ends M t (k r) s' out last ->
      Ends M t (.call c k) s out last

/-- However the environment chooses, the program ends as the postcondition says, if it ends. -/
def Ensures (M : Machine I State) (t : Nat) :
    Program I α -> (Except I.Error α -> State -> Prop) -> State -> Prop
  | .ret a, Q, s => Q (.ok a) s
  | .raise e, Q, s => Q (.error e) s
  | .call c k, Q, s =>
      forall ch s' r, M.exec t c ch s = some (s', r) -> Ensures M t (k r) Q s'

variable {M : Machine I State} {t : Nat} {s s' last : State}

theorem Ensures.ends {p : Program I α} {Q : Except I.Error α -> State -> Prop}
    {out : Except I.Error α} (h : Ensures M t p Q s) (hends : Ends M t p s out last) :
    Q out last := by
  induction hends with
  | ret a s => exact h
  | raise e s => exact h
  | call hexec _ ih => exact ih (h _ _ _ hexec)

/-!
# Rules for every run

What every run of a program does, by its parts; what the commands of a program keep, the
program keeps.
-/

theorem ensures_mono {p : Program I α} {Q Q' : Except I.Error α -> State -> Prop}
    (h : Ensures M t p Q s) (hQ : forall out s, Q out s -> Q' out s) : Ensures M t p Q' s := by
  induction p generalizing s with
  | ret a => exact hQ _ _ h
  | raise e => exact hQ _ _ h
  | call c k ih =>
      intro ch s' r hexec
      exact ih r (h ch s' r hexec)

theorem ensures_bind {p : Program I α} {f : α -> Program I β}
    {Q : Except I.Error β -> State -> Prop}
    (h : Ensures M t p (fun out s =>
      match out with
      | .ok a => Ensures M t (f a) Q s
      | .error e => Q (.error e) s) s) :
    Ensures M t (p >>= f) Q s := by
  induction p generalizing s with
  | ret a => exact h
  | raise e => exact h
  | call c k ih =>
      intro ch s' r hexec
      exact ih r (h ch s' r hexec)

theorem ensures_outcome {p : Program I α} {Q : Except I.Error (Except I.Error α) -> State -> Prop}
    (h : Ensures M t p (fun out => Q (.ok out)) s) : Ensures M t p.outcome Q s := by
  induction p generalizing s with
  | ret a => exact h
  | raise e => exact h
  | call c k ih =>
      intro ch s' r hexec
      exact ih r (h ch s' r hexec)

theorem ensures_issue {c : I.Command} {Q : Except I.Error (I.Result c) -> State -> Prop}
    (h : forall ch s' r, M.exec t c ch s = some (s', r) -> Q r s') :
    Ensures M t (Program.issue c) Q s := by
  intro ch s' r hexec
  have hQ := h ch s' r hexec
  cases r with
  | ok a => exact hQ
  | error e => exact hQ

/-- What the commands of a program keep, the program keeps. -/
theorem ensures_of_issues {p : Program I α} {P : I.Command -> Prop} {R : α -> Prop}
    (hp : p.Issues P R) {J : State -> Prop}
    (hexec : forall c ch s s' r, P c -> J s -> M.exec t c ch s = some (s', r) -> J s')
    (hs : J s) : Ensures M t p (fun _ => J) s := by
  induction p generalizing s with
  | ret a => exact hs
  | raise e => exact hs
  | call c k ih =>
      intro ch s' r hstep
      exact ih r (hp.2 r) (hexec c ch s s' r hp.1 hs hstep)

/-!
# Building one run

A run is built from the choices of the environment for its commands.
-/

theorem Ends.bind_ok {p : Program I α} {f : α -> Program I β} {a : α}
    {out : Except I.Error β} (hp : Ends M t p s (.ok a) s') (hf : Ends M t (f a) s' out last) :
    Ends M t (p >>= f) s out last := by
  generalize hok : Except.ok a = first at hp
  induction hp with
  | ret b s =>
      cases hok
      exact hf
  | raise e s => cases hok
  | call hexec _ ih => exact .call hexec (ih hf hok)

theorem Ends.bind_error {p : Program I α} {f : α -> Program I β} {e : I.Error}
    (hp : Ends M t p s (.error e) s') : Ends M t (p >>= f) s (.error e) s' := by
  generalize herror : Except.error e = first at hp
  induction hp with
  | ret b s => cases herror
  | raise e' s =>
      cases herror
      exact .raise e s
  | call hexec _ ih => exact .call hexec (ih herror)

theorem Ends.outcome {p : Program I α} {out : Except I.Error α} (hp : Ends M t p s out s') :
    Ends M t p.outcome s (.ok out) s' := by
  induction hp with
  | ret a s => exact .ret (Except.ok a) s
  | raise e s => exact .ret (Except.error e) s
  | call hexec _ ih => exact .call hexec ih

theorem Ends.issue {c : I.Command} {r : Except I.Error (I.Result c)} (ch : M.Choice)
    (hexec : M.exec t c ch s = some (s', r)) : Ends M t (Program.issue c) s r s' := by
  refine .call hexec ?_
  cases r with
  | ok a => exact .ret a s'
  | error e => exact .raise e s'

def play (M : Machine I State) (t : Nat) :
    Program I α -> List M.Choice -> State -> Option (State × Except I.Error α)
  | .ret a, _, s => some (s, .ok a)
  | .raise e, _, s => some (s, .error e)
  | .call _ _, [], _ => none
  | .call c k, ch :: chs, s =>
      match M.exec t c ch s with
      | some (s', r) => play M t (k r) chs s'
      | none => none

theorem ends_of_play {p : Program I α} {chs : List M.Choice} {out : Except I.Error α}
    (h : play M t p chs s = some (last, out)) : Ends M t p s out last := by
  induction p generalizing s chs with
  | ret a =>
      cases h
      exact .ret a _
  | raise e =>
      cases h
      exact .raise e _
  | call c k ih =>
      cases chs with
      | nil => cases h
      | cons ch chs =>
          unfold play at h
          split at h
          · rename_i s' r hexec
            exact .call hexec (ih r h)
          · cases h

theorem exists_ends {p : Program I α} (chs : List M.Choice) (P : State -> Prop) [DecidablePred P]
    (h : (play M t p chs s).any (fun last => P last.1) = true) :
    exists out last, Ends M t p s out last ∧ P last := by
  rcases (Option.any_eq_true ..).mp h with ⟨⟨last, out⟩, hplay, hP⟩
  exact ⟨out, last, ends_of_play hplay, of_decide_eq_true hP⟩

end Interleaving
end RagService
