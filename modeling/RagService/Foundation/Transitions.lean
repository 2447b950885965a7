import Mathlib.Logic.Function.Basic

/-!
# Runs of a state machine

A state machine takes a step at an action that is enabled.  A condition says which steps a run
may take.  What holds at first and is kept by every step of a run holds wherever the run
arrives, and actions that can be taken to a state with a property reach one.
-/

namespace RagService
namespace Transitions

variable {State Action : Type}

/-- The states that runs from a first state reach with steps that meet a condition. -/
inductive Reaches (step : State -> Action -> Option State) (C : State -> Action -> Prop)
    (first : State) : State -> Prop where
  | refl : Reaches step C first first
  | tail {mid last : State} {a : Action} :
      Reaches step C first mid -> C mid a -> step mid a = some last ->
        Reaches step C first last

variable {step : State -> Action -> Option State} {C D : State -> Action -> Prop}
variable {first mid last : State}

/-- What holds at first and is kept by every step of a run holds wherever the run arrives. -/
theorem Reaches.invariant (I : State -> Prop) (hfirst : I first)
    (hstep : forall {s a s'}, I s -> C s a -> step s a = some s' -> I s')
    (hrun : Reaches step C first last) : I last := by
  induction hrun with
  | refl => exact hfirst
  | tail _ hcond htaken ih => exact hstep ih hcond htaken

theorem Reaches.trans (h : Reaches step C first mid) (h' : Reaches step C mid last) :
    Reaches step C first last := by
  induction h' with
  | refl => exact h
  | tail _ hcond htaken ih => exact ih.tail hcond htaken

def follow (step : State -> Action -> Option State) (C : State -> Action -> Prop)
    [forall s a, Decidable (C s a)] : State -> List Action -> Option State
  | s, [] => some s
  | s, a :: rest =>
      if C s a then
        match step s a with
        | some next => follow step C next rest
        | none => none
      else
        none

theorem reaches_of_follow [forall s a, Decidable (C s a)] {actions : List Action}
    (h : follow step C first actions = some last) : Reaches step C first last := by
  induction actions generalizing first with
  | nil =>
      cases h
      exact .refl
  | cons a rest ih =>
      unfold follow at h
      split at h
      · rename_i hcond
        split at h
        · rename_i next htaken
          exact (Reaches.refl.tail hcond htaken).trans (ih h)
        · cases h
      · cases h

theorem exists_reaches (step : State -> Action -> Option State) (C : State -> Action -> Prop)
    [forall s a, Decidable (C s a)] (first : State) (actions : List Action)
    (P : State -> Prop) [DecidablePred P]
    (h : (follow step C first actions).any (fun last => P last) = true) :
    exists last, Reaches step C first last ∧ P last := by
  rcases (Option.any_eq_true ..).mp h with ⟨last, hlast, hP⟩
  exact ⟨last, reaches_of_follow hlast, of_decide_eq_true hP⟩

theorem exists_reaches_later (step : State -> Action -> Option State)
    (C : State -> Action -> Prop) [forall s a, Decidable (C s a)] (first : State)
    (actions later : List Action) (P Q : State -> Prop) [DecidablePred P] [DecidablePred Q]
    (h : (follow step C first actions).any (fun mid =>
      P mid && (follow step C mid later).any fun last => Q last) = true) :
    exists mid last, Reaches step C first mid ∧ P mid ∧ Reaches step C mid last ∧ Q last := by
  rcases (Option.any_eq_true ..).mp h with ⟨mid, hmid, hboth⟩
  rcases (Bool.and_eq_true _ _).mp hboth with ⟨hP, hlater⟩
  rcases (Option.any_eq_true ..).mp hlater with ⟨last, hlast, hQ⟩
  exact ⟨mid, last, reaches_of_follow hmid, of_decide_eq_true hP, reaches_of_follow hlast,
    of_decide_eq_true hQ⟩

end Transitions
end RagService
