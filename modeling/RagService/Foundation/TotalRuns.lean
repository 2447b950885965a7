import Mathlib.Data.List.Forall2
import RagService.Foundation.Interleaving

/-!
# Total runs

A thread that runs its program with no other thread in between, on a machine whose
environment makes one of the choices that it is allowed.  The program never waits, comes to
an end, and ends as the postcondition says.
-/

namespace RagService
namespace Interleaving

variable {I : Interface} {State α β : Type}

/--
However the environment chooses among what it is allowed, no command waits and the
program ends as the postcondition says.
-/
def Finishes (M : Machine I State) (t : Nat) (E : I.Command -> M.Choice -> Prop) :
    Program I α -> (Except I.Error α -> State -> Prop) -> State -> Prop
  | .ret a, Q, s => Q (.ok a) s
  | .raise e, Q, s => Q (.error e) s
  | .call c k, Q, s =>
      (exists ch, E c ch) ∧
        forall ch, E c ch ->
          exists s' r, M.exec t c ch s = some (s', r) ∧ Finishes M t E (k r) Q s'

variable {M : Machine I State} {t : Nat} {E : I.Command -> M.Choice -> Prop} {s : State}

/-!
# Rules

What comes after a program goes on from each of its ends.  A loop whose body goes through keeps
an invariant of the elements to do; a loop that collects results is ended by a body that
raises.
-/

theorem Finishes.mono {p : Program I α} {Q Q' : Except I.Error α -> State -> Prop}
    (h : Finishes M t E p Q s) (hQ : forall out s, Q out s -> Q' out s) :
    Finishes M t E p Q' s := by
  induction p generalizing s with
  | ret a => exact hQ _ _ h
  | raise e => exact hQ _ _ h
  | call c k ih =>
      constructor
      · exact h.1
      · intro ch hch
        rcases h.2 ch hch with ⟨s', r, hstep, hrest⟩
        exact ⟨s', r, hstep, ih r hrest⟩

/-- What comes after a program, by how it ends. -/
theorem Finishes.bind {p : Program I α} {f : α -> Program I β}
    {P : Except I.Error α -> State -> Prop} {Q : Except I.Error β -> State -> Prop}
    (h : Finishes M t E p P s) (herror : forall e s', P (.error e) s' -> Q (.error e) s')
    (hok : forall a s', P (.ok a) s' -> Finishes M t E (f a) Q s') :
    Finishes M t E (p.bind f) Q s := by
  induction p generalizing s with
  | ret a => exact hok a s h
  | raise e => exact herror e s h
  | call c k ih =>
      constructor
      · exact h.1
      · intro ch hch
        rcases h.2 ch hch with ⟨s', r, hstep, hrest⟩
        exact ⟨s', r, hstep, ih r hrest⟩

theorem Finishes.handle {p : Program I α} {f : I.Error -> Program I α}
    {P Q : Except I.Error α -> State -> Prop} (h : Finishes M t E p P s)
    (hok : forall a s', P (.ok a) s' -> Q (.ok a) s')
    (herror : forall e s', P (.error e) s' -> Finishes M t E (f e) Q s') :
    Finishes M t E (p.handle f) Q s := by
  induction p generalizing s with
  | ret a => exact hok a s h
  | raise e => exact herror e s h
  | call c k ih =>
      constructor
      · exact h.1
      · intro ch hch
        rcases h.2 ch hch with ⟨s', r, hstep, hrest⟩
        exact ⟨s', r, hstep, ih r hrest⟩

theorem Finishes.outcome {p : Program I α} {Q : Except I.Error α -> State -> Prop}
    (h : Finishes M t E p Q s) :
    Finishes M t E p.outcome (fun out s' => exists r, out = .ok r ∧ Q r s') s := by
  induction p generalizing s with
  | ret a => exact ⟨.ok a, rfl, h⟩
  | raise e => exact ⟨.error e, rfl, h⟩
  | call c k ih =>
      constructor
      · exact h.1
      · intro ch hch
        rcases h.2 ch hch with ⟨s', r, hstep, hrest⟩
        exact ⟨s', r, hstep, ih r hrest⟩

theorem finishes_issue {c : I.Command} {Q : Except I.Error (I.Result c) -> State -> Prop}
    (hchoice : exists ch, E c ch)
    (h : forall ch, E c ch -> exists s' r, M.exec t c ch s = some (s', r) ∧ Q r s') :
    Finishes M t E (Program.issue c) Q s := by
  constructor
  · exact hchoice
  · intro ch hch
    rcases h ch hch with ⟨s', r, hstep, hQ⟩
    refine ⟨s', r, hstep, ?_⟩
    cases r with
    | ok a => exact hQ
    | error e => exact hQ

theorem finishes_forEach {f : β -> Program I Unit} (L : List β -> State -> Prop)
    (hbody : forall x rest s, L (x :: rest) s ->
      Finishes M t E (f x) (fun out s' => out = .ok () ∧ L rest s') s) {xs : List β}
    (hs : L xs s) :
    Finishes M t E (Program.forEach xs f) (fun out s' => out = .ok () ∧ L [] s') s := by
  induction xs generalizing s with
  | nil => exact ⟨rfl, hs⟩
  | cons x rest ih =>
      refine (hbody x rest s hs).bind ?_ ?_
      · intro e s' h
        cases h.1
      · intro _ s' h
        exact ih h.2

theorem finishes_mapEach {f : β -> Program I α} {J : State -> Prop} {R : β -> α -> Prop}
    {F : I.Error -> Prop}
    (hbody : forall x s, J s -> Finishes M t E (f x) (fun out s' => J s' ∧
      (forall y, out = .ok y -> R x y) ∧ forall e, out = .error e -> F e) s)
    (xs : List β) (hs : J s) :
    Finishes M t E (Program.mapEach xs f) (fun out s' => J s' ∧
      (forall ys, out = .ok ys -> List.Forall₂ R xs ys) ∧ forall e, out = .error e -> F e) s := by
  induction xs generalizing s with
  | nil =>
      refine ⟨hs, ?_, ?_⟩
      · intro ys hys
        cases hys
        exact .nil
      · intro e he
        cases he
  | cons x rest ih =>
      refine (hbody x s hs).bind ?_ ?_
      · intro e s' h
        refine ⟨h.1, ?_, ?_⟩
        · intro ys hys
          cases hys
        · intro e' he'
          cases he'
          exact h.2.2 e rfl
      · intro y s' h
        refine (ih h.1).bind ?_ ?_
        · intro e s'' h'
          refine ⟨h'.1, ?_, ?_⟩
          · intro ys hys
            cases hys
          · intro e' he'
            cases he'
            exact h'.2.2 e rfl
        · intro ys s'' h'
          refine ⟨h'.1, ?_, ?_⟩
          · intro zs hzs
            cases hzs
            exact .cons (h.2.1 y rfl) (h'.2.1 ys rfl)
          · intro e he
            cases he

end Interleaving
end RagService
