import Mathlib.Control.Lawful
import Mathlib.Data.List.Forall2

/-!
# Ambient state

Computations over a state that is there for all of them, as context variables are, and that
stays as it is when one raises.  Two runs from states of which nothing is known go alike where
a computation reads only what it has written itself, and then a pass over a list gives what
its items give alone.
-/

namespace RagService
namespace Ambient

variable {σ ε α β : Type}

/-- What a run gives, without the state that it leaves. -/
def outcome (x : EStateM ε σ α) (s : σ) : Except ε α :=
  match x s with
  | .ok a _ => .ok a
  | .error e _ => .error e

/-!
# One run

Where the second part of a sequence gives the same from each state that it may meet, the
sequence gives what its parts give.
-/

theorem outcome_eq_ok {x : EStateM ε σ α} {s : σ} {a : α} :
    outcome x s = .ok a ↔ exists t, x s = .ok a t := by
  unfold outcome
  cases x s with
  | ok b t =>
      constructor
      · intro h
        cases h
        exact ⟨t, rfl⟩
      · intro h
        rcases h with ⟨_, h⟩
        cases h
        rfl
  | error e t =>
      constructor
      · intro h
        cases h
      · intro h
        rcases h with ⟨_, h⟩
        cases h

theorem outcome_map (g : α -> β) (x : EStateM ε σ α) (s : σ) :
    outcome (g <$> x) s = g <$> outcome x s := by
  show outcome (EStateM.map g x) s = _
  unfold outcome EStateM.map
  cases x s <;> rfl

@[simp] theorem outcome_pure (a : α) (s : σ) : outcome (pure a : EStateM ε σ α) s = .ok a :=
  rfl

@[simp] theorem outcome_ofExcept_bind (x : Except ε α) (f : α -> EStateM ε σ β) (s : σ) :
    outcome (ofExcept x >>= f) s = x >>= fun a => outcome (f a) s := by
  cases x with
  | ok a => rfl
  | error e => rfl

@[simp] theorem outcome_modify_bind (g : σ -> σ) (f : PUnit -> EStateM ε σ β) (s : σ) :
    outcome (modify g >>= f) s = outcome (f ⟨⟩) (g s) :=
  rfl

/-- What a sequence gives, where the second part gives the same from each state it may meet. -/
theorem outcome_bind {x : EStateM ε σ α} {f : α -> EStateM ε σ β} {g : α -> Except ε β} {s : σ}
    (h : forall a t, x s = .ok a t -> outcome (f a) t = g a) :
    outcome (x >>= f) s = outcome x s >>= g := by
  show outcome (EStateM.bind x f) s = _
  cases hx : x s with
  | ok a t =>
      rw [outcome_eq_ok.mpr ⟨t, hx⟩, outcome, EStateM.bind, hx]
      exact h a t hx
  | error e t =>
      rw [outcome, outcome, EStateM.bind, hx]
      rfl

theorem bind_eq_ok {x : EStateM ε σ α} {f : α -> EStateM ε σ β} {s t : σ} {b : β} :
    (x >>= f) s = .ok b t ↔ exists a m, x s = .ok a m ∧ f a m = .ok b t := by
  show EStateM.bind x f s = .ok b t ↔ _
  unfold EStateM.bind
  cases x s with
  | ok a m =>
      constructor
      · intro h
        exact ⟨a, m, rfl, h⟩
      · intro h
        rcases h with ⟨_, _, hx, h⟩
        cases hx
        exact h
  | error e m =>
      constructor
      · intro h
        cases h
      · intro h
        rcases h with ⟨_, _, hx, -⟩
        cases hx

theorem ofExcept_eq_ok {x : Except ε α} {s t : σ} {a : α} :
    (MonadExcept.ofExcept x : EStateM ε σ α) s = .ok a t ↔ x = .ok a ∧ s = t := by
  cases x with
  | ok b =>
      show EStateM.Result.ok b s = .ok a t ↔ _
      rw [EStateM.Result.ok.injEq, Except.ok.injEq]
  | error e =>
      constructor
      · intro h
        cases h
      · intro h
        cases h.1

/-!
# Two runs

Runs from related states go alike.  What is read is the same where related states have it in
common; a computation that is blind reads only what it has written.
-/

inductive Alike (Q : σ -> σ -> Prop) :
    EStateM.Result ε σ α -> EStateM.Result ε σ α -> Prop where
  | ok {a : α} {t t' : σ} (h : Q t t') : Alike Q (.ok a t) (.ok a t')
  | error {e : ε} {t t' : σ} : Alike Q (.error e t) (.error e t')

/-- Runs from states that `R` relates go alike, and leave states that `Q` relates. -/
def Agrees (R : σ -> σ -> Prop) (x : EStateM ε σ α) (Q : σ -> σ -> Prop) : Prop :=
  forall s s', R s s' -> Alike Q (x s) (x s')

/-- The runs from all states go alike. -/
def Blind (x : EStateM ε σ α) : Prop :=
  Agrees (fun _ _ => True) x fun _ _ => True

variable {R Q T : σ -> σ -> Prop}

theorem agrees_pure (a : α) : Agrees R (pure a : EStateM ε σ α) R :=
  fun _ _ h => .ok h

theorem agrees_ofExcept (x : Except ε α) :
    Agrees R (MonadExcept.ofExcept x : EStateM ε σ α) R := by
  intro s s' h
  cases x with
  | ok a => exact .ok h
  | error e => exact .error

theorem agrees_modify {f : σ -> σ} (h : forall s s', R s s' -> Q (f s) (f s')) :
    Agrees R (modify f : EStateM ε σ PUnit) Q :=
  fun s s' hR => .ok (h s s' hR)

theorem agrees_get {f : σ -> α} (h : forall s s', R s s' -> f s = f s') :
    Agrees R (f <$> get : EStateM ε σ α) R := by
  intro s s' hR
  show Alike R (.ok (f s) s) (.ok (f s') s')
  rw [h s s' hR]
  exact .ok hR

theorem agrees_bind {x : EStateM ε σ α} {f : α -> EStateM ε σ β} (hx : Agrees R x Q)
    (hf : forall a, Agrees Q (f a) T) : Agrees R (x >>= f) T := by
  intro s s' h
  show Alike T (EStateM.bind x f s) (EStateM.bind x f s')
  unfold EStateM.bind
  have hruns := hx s s' h
  generalize x s = r at hruns
  generalize x s' = r' at hruns
  cases hruns with
  | ok hQ => exact hf _ _ _ hQ
  | error => exact .error

theorem Agrees.mono {R' Q' : σ -> σ -> Prop} {x : EStateM ε σ α} (h : Agrees R x Q)
    (hR : forall s s', R' s s' -> R s s') (hQ : forall s s', Q s s' -> Q' s s') :
    Agrees R' x Q' := by
  intro s s' hs
  have hruns := h s s' (hR s s' hs)
  generalize x s = r at hruns
  generalize x s' = r' at hruns
  cases hruns with
  | ok ht => exact .ok (hQ _ _ ht)
  | error => exact .error

theorem Agrees.blind {x : EStateM ε σ α} (h : Agrees (fun _ _ => True) x Q) : Blind x :=
  h.mono (fun _ _ _ => trivial) fun _ _ _ => trivial

theorem Blind.outcome_eq {x : EStateM ε σ α} (h : Blind x) (s s' : σ) :
    outcome x s = outcome x s' := by
  have hruns := h s s' trivial
  unfold outcome
  generalize x s = r at hruns
  generalize x s' = r' at hruns
  cases hruns with
  | ok _ => rfl
  | error => rfl

/-!
# Passes over lists

A pass succeeds with the results of its items, in order, and each item gives what it gives from
any state at all.
-/

/-- A pass succeeds with the results of its items, in order. -/
theorem mapM_eq_ok {f : α -> Except ε β} {xs : List α} {ys : List β} :
    xs.mapM f = .ok ys ↔ List.Forall₂ (fun x y => f x = .ok y) xs ys := by
  induction xs generalizing ys with
  | nil =>
      rw [List.forall₂_nil_left_iff]
      constructor
      · intro h
        cases h
        rfl
      · intro h
        rw [h]
        rfl
  | cons x rest ih =>
      rw [List.mapM_cons, List.forall₂_cons_left_iff]
      cases hx : f x with
      | error e =>
          constructor
          · intro h
            cases h
          · intro h
            rcases h with ⟨_, _, h, -⟩
            cases h
      | ok y =>
          have hrest : (do
              let zs ← rest.mapM f
              pure (y :: zs) : Except ε (List β)) = .ok ys ↔
                exists zs, rest.mapM f = .ok zs ∧ ys = y :: zs := by
            cases rest.mapM f with
            | error e =>
                constructor
                · intro h
                  cases h
                · intro h
                  rcases h with ⟨_, h, -⟩
                  cases h
            | ok zs =>
                constructor
                · intro h
                  cases h
                  exact ⟨zs, rfl, rfl⟩
                · intro h
                  rcases h with ⟨_, hzs, rfl⟩
                  cases hzs
                  rfl
          refine hrest.trans ?_
          constructor
          · intro h
            rcases h with ⟨zs, hzs, rfl⟩
            exact ⟨y, zs, rfl, ih.mp hzs, rfl⟩
          · intro h
            rcases h with ⟨_, zs, hy, hzs, rfl⟩
            cases hy
            exact ⟨zs, ih.mpr hzs, rfl⟩

theorem outcome_mapM {f : α -> EStateM ε σ β} {xs : List α} (h : forall x, x ∈ xs -> Blind (f x))
    (s s₀ : σ) : outcome (xs.mapM f) s = xs.mapM fun x => outcome (f x) s₀ := by
  induction xs generalizing s with
  | nil => rfl
  | cons x rest ih =>
      have hrest := ih fun x hx => h x (.tail _ hx)
      rw [List.mapM_cons, List.mapM_cons, (h x (.head _)).outcome_eq s₀ s]
      apply outcome_bind
      intro y t _
      rw [bind_pure_comp, bind_pure_comp, outcome_map, hrest]

end Ambient
end RagService
