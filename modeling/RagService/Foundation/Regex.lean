import RagService.Foundation.Text

/-!
# Backtracking regular expressions

Patterns of character classes, sequences, alternatives and greedy repetitions: what their
matches leave of a text, in the order in which backtracking finds them, and the matches of
`re.finditer`.  None of these patterns matches the empty text.
-/

namespace RagService
namespace Regex

inductive Pattern where
  | oneOf (p : Char -> Bool)
  | seq (first second : Pattern)
  | alt (first second : Pattern)
  | plus (body : Pattern)

def repeats (step : Text -> List Text) : Nat -> Text -> List Text
  | 0, s => [s]
  | n + 1, s => (step s).flatMap (repeats step n) ++ [s]

namespace Pattern

def rests : Pattern -> Text -> List Text
  | oneOf _, [] => []
  | oneOf p, c :: rest => if p c then [rest] else []
  | seq first second, s => (first.rests s).flatMap second.rests
  | alt first second, s => first.rests s ++ second.rests s
  | plus body, s => (body.rests s).flatMap fun rest => repeats body.rests rest.length rest

/-- The matches from left to right; the number bounds the characters looked at. -/
def finditer (pattern : Pattern) : Nat -> Text -> List Text
  | 0, _ => []
  | _, [] => []
  | n + 1, c :: s =>
      match pattern.rests (c :: s) with
      | last :: _ => (c :: s).take (s.length + 1 - last.length) :: pattern.finditer n last
      | [] => pattern.finditer n s

end Pattern

/-!
# The first match

Greedy repetition goes on with the first match as long as there is one.
-/

theorem head?_flatMap {α β : Type} {f : α -> List β} {items : List α}
    (h : forall x, x ∈ items -> f x ≠ []) :
    (items.flatMap f).head? = items.head?.bind fun x => (f x).head? := by
  cases items with
  | nil => rfl
  | cons x rest =>
      rw [List.flatMap_cons, List.head?_append, List.head?_cons, Option.bind_some]
      cases hx : f x with
      | nil => exact absurd hx (h x List.mem_cons_self)
      | cons y ys => rfl

theorem repeats_ne_nil (step : Text -> List Text) (n : Nat) (s : Text) : repeats step n s ≠ [] := by
  cases n with
  | zero => exact List.cons_ne_nil _ _
  | succ n => exact List.append_ne_nil_of_right_ne_nil _ (List.cons_ne_nil _ _)

theorem head?_repeats_succ (step : Text -> List Text) (n : Nat) (s : Text) :
    (repeats step (n + 1) s).head? =
      match (step s).head? with
      | some rest => (repeats step n rest).head?
      | none => some s := by
  rw [repeats, List.head?_append, head?_flatMap fun rest _ => repeats_ne_nil step n rest]
  cases (step s).head? with
  | none => rfl
  | some rest =>
      rw [Option.bind_some]
      cases hrepeats : repeats step n rest with
      | nil => exact absurd hrepeats (repeats_ne_nil step n rest)
      | cons first others =>
          dsimp only
          rw [hrepeats]
          rfl

namespace Pattern

theorem head?_rests_plus (body : Pattern) (s : Text) :
    ((plus body).rests s).head? =
      (body.rests s).head?.bind fun rest => (repeats body.rests rest.length rest).head? :=
  head?_flatMap fun rest _ => repeats_ne_nil body.rests rest.length rest

/-!
# Runs of a character class

A greedy run takes all characters of the class first, and then gives some of them back.
-/

variable {p : Char -> Bool}

theorem repeats_oneOf {n : Nat} {s : Text} (hn : s.length ≤ n) :
    exists others, repeats (oneOf p).rests n s = s.dropWhile p :: others ∧
      forall other, other ∈ others -> exists c rest, other = c :: rest ∧ p c = true := by
  induction n generalizing s with
  | zero =>
      rw [List.length_eq_zero_iff.mp (Nat.le_zero.mp hn)]
      exact ⟨[], rfl, fun _ h => absurd h List.not_mem_nil⟩
  | succ n ih =>
      cases s with
      | nil => exact ⟨[], rfl, fun _ h => absurd h List.not_mem_nil⟩
      | cons c rest =>
          rw [repeats, rests]
          cases hc : p c with
          | false =>
              rw [List.dropWhile_cons_of_neg (by rw [hc]; exact Bool.false_ne_true)]
              exact ⟨[], rfl, fun _ h => absurd h List.not_mem_nil⟩
          | true =>
              rcases ih (Nat.le_of_succ_le_succ hn) with ⟨others, hothers, hback⟩
              exists others ++ [c :: rest]
              constructor
              · rw [if_pos rfl, List.flatMap_singleton, hothers, List.dropWhile_cons_of_pos hc]
                rfl
              · intro other hother
                cases List.mem_append.mp hother with
                | inl hin => exact hback other hin
                | inr hlast => exact ⟨c, rest, List.mem_singleton.mp hlast, hc⟩

theorem rests_run {c : Char} (hc : p c = true) (s : Text) :
    exists others, (plus (oneOf p)).rests (c :: s) = s.dropWhile p :: others ∧
      forall other, other ∈ others -> exists c rest, other = c :: rest ∧ p c = true := by
  rw [rests, rests, if_pos hc, List.flatMap_singleton]
  exact repeats_oneOf (Nat.le_refl _)

theorem rests_run_nil {s : Text} (h : forall c rest, s = c :: rest -> p c = false) :
    (plus (oneOf p)).rests s = [] := by
  cases s with
  | nil => rfl
  | cons c rest =>
      rw [rests, rests, h c rest rfl]
      rfl

/-- A sequence of which only the first match of the first part goes on. -/
theorem rests_seq {first second : Pattern} {s rest : Text} {others : List Text}
    (hfirst : first.rests s = rest :: others)
    (hothers : forall other, other ∈ others -> second.rests other = []) :
    (seq first second).rests s = second.rests rest := by
  rw [rests, hfirst, List.flatMap_cons, List.flatMap_eq_nil_iff.mpr hothers, List.append_nil]

end Pattern
end Regex
end RagService
