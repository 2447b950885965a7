import RagService.Foundation.Transitions

/-!
# Histories

A run with the steps that it takes, each with the state it starts from.  What a state has
was brought about by some step of its history, and no later step took it away.
-/

namespace RagService
namespace Transitions

variable {State Action : Type}

inductive History (step : State -> Action -> Option State) (first : State) :
    List (State × Action) -> State -> Prop where
  | nil : History step first [] first
  | snoc {taken : List (State × Action)} {mid last : State} {a : Action} :
      History step first taken mid -> step mid a = some last ->
        History step first (taken ++ [(mid, a)]) last

/-- Some step is as `P` asks after the steps before it, and every later one as `Q` asks. -/
def Since (P : List (State × Action) -> State -> Action -> Prop) (Q : State -> Action -> Prop)
    (taken : List (State × Action)) : Prop :=
  exists before s a after, taken = before ++ (s, a) :: after ∧ P before s a ∧
    forall later, later ∈ after -> Q later.1 later.2

section

variable {P : List (State × Action) -> State -> Action -> Prop} {Q : State -> Action -> Prop}
variable {taken : List (State × Action)} {s : State} {a : Action}

theorem Since.now (h : P taken s a) : Since P Q (taken ++ [(s, a)]) := by
  refine ⟨taken, s, a, [], rfl, h, ?_⟩
  intro later hlater
  cases hlater

theorem Since.still (h : Since P Q taken) (hQ : Q s a) : Since P Q (taken ++ [(s, a)]) := by
  rcases h with ⟨before, mid, b, after, rfl, hP, hafter⟩
  refine ⟨before, mid, b, after ++ [(s, a)], ?_, hP, ?_⟩
  · rw [List.append_assoc, List.cons_append]
  · intro later hlater
    cases List.mem_append.mp hlater with
    | inl hold => exact hafter later hold
    | inr hnew =>
        rw [List.mem_singleton.mp hnew]
        exact hQ

end

variable {step : State -> Action -> Option State} {first last : State}
variable {taken : List (State × Action)}

theorem History.reaches (h : History step first taken last) :
    Reaches step (fun _ _ => True) first last := by
  induction h with
  | nil => exact .refl
  | snoc _ htaken ih => exact ih.tail trivial htaken

/-- What the last state has and the first one does not was brought about and not undone. -/
theorem History.since (Has : State -> Prop)
    {P : List (State × Action) -> State -> Action -> Prop} {Q : State -> Action -> Prop}
    (hfirst : ¬ Has first)
    (hstep : forall {before s a s'}, History step first before s -> step s a = some s' ->
      Has s' -> P before s a ∨ Has s ∧ Q s a)
    (h : History step first taken last) : Has last -> Since P Q taken := by
  induction h with
  | nil =>
      intro hlast
      exact absurd hlast hfirst
  | snoc hbefore htaken ih =>
      intro hlast
      cases hstep hbefore htaken hlast with
      | inl hnow => exact .now hnow
      | inr hold => exact (ih hold.1).still hold.2

def note (step : State -> Action -> Option State) :
    State -> List Action -> Option (List (State × Action) × State)
  | s, [] => some ([], s)
  | s, a :: rest =>
      match step s a with
      | none => none
      | some next => (note step next rest).map fun out => ((s, a) :: out.1, out.2)

theorem History.append_note {noted : List (State × Action)} {actions : List Action} {mid : State}
    (h : History step first taken mid) (hnoted : note step mid actions = some (noted, last)) :
    History step first (taken ++ noted) last := by
  induction actions generalizing taken mid noted with
  | nil =>
      cases hnoted
      rw [List.append_nil]
      exact h
  | cons a rest ih =>
      unfold note at hnoted
      split at hnoted
      · cases hnoted
      · rename_i next htaken
        rcases Option.map_eq_some_iff.mp hnoted with ⟨out, hout, heq⟩
        cases heq
        rw [List.append_cons]
        exact ih (h.snoc htaken) hout

theorem history_of_note {actions : List Action}
    (h : note step first actions = some (taken, last)) : History step first taken last :=
  History.nil.append_note h

theorem exists_history (step : State -> Action -> Option State) (first : State)
    (actions : List Action) (P : State -> Prop) [DecidablePred P]
    (h : (note step first actions).any (fun out => P out.2) = true) :
    exists taken last, History step first taken last ∧ P last := by
  rcases (Option.any_eq_true ..).mp h with ⟨out, hout, hP⟩
  exact ⟨out.1, out.2, history_of_note hout, of_decide_eq_true hP⟩

end Transitions
end RagService
