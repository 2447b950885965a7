import RagService.Foundation.Text

/-!
# Splitting at a separator

`str.split(sep)` and `str.strip(c)`; a joined text is split into its parts again if no part
has the character that the separator starts with.
-/

namespace RagService
namespace Splitting

open Text

/--
`str.split(sep)`: the characters of a separator that are left to skip, the part read so far,
and the text.
-/
def splitFrom (sep : Text) : Nat -> Text -> Text -> List Text
  | _, part, [] => [part]
  | skip + 1, part, _ :: rest => splitFrom sep skip part rest
  | 0, part, c :: rest =>
      if sep.isPrefixOf (c :: rest) then part :: splitFrom sep (sep.length - 1) [] rest
      else splitFrom sep 0 (part ++ [c]) rest

def split (sep s : Text) : List Text :=
  splitFrom sep 0 [] s

/-- `str.strip(c)` for one character. -/
def stripOf (c : Char) (s : Text) : Text :=
  ((s.dropWhile (· = c)).reverse.dropWhile (· = c)).reverse

variable {sep : Text} {c : Char}

theorem splitFrom_skip (sep : Text) (skipped part rest : Text) :
    splitFrom sep skipped.length part (skipped ++ rest) = splitFrom sep 0 part rest := by
  induction skipped with
  | nil => rfl
  | cons d tail ih =>
      rw [List.length_cons, List.cons_append, splitFrom]
      exact ih

theorem splitFrom_part (tail : Text) {more : Text} (hmore : c ∉ more) (part rest : Text) :
    splitFrom (c :: tail) 0 part (more ++ rest) =
      splitFrom (c :: tail) 0 (part ++ more) rest := by
  induction more generalizing part with
  | nil => rw [List.nil_append, List.append_nil]
  | cons d more ih =>
      rw [List.mem_cons, not_or] at hmore
      have hno : (c :: tail).isPrefixOf (d :: (more ++ rest)) = false := by
        rw [List.isPrefixOf_cons_cons, beq_false_of_ne hmore.1, Bool.false_and]
      rw [List.cons_append, splitFrom, hno, if_neg Bool.false_ne_true, ih hmore.2,
        List.append_assoc, List.singleton_append]

theorem splitFrom_separator (c : Char) (tail part rest : Text) :
    splitFrom (c :: tail) 0 part (c :: tail ++ rest) =
      part :: splitFrom (c :: tail) 0 [] rest := by
  have hyes : (c :: tail).isPrefixOf (c :: (tail ++ rest)) = true := by
    rw [List.isPrefixOf_iff_prefix]
    exact ⟨rest, rfl⟩
  rw [List.cons_append, splitFrom, if_pos hyes]
  congr 1
  exact splitFrom_skip (c :: tail) tail [] rest

/-- Joined parts are split into the parts again. -/
theorem split_join (c : Char) (tail : Text) {parts : List Text} (hne : parts ≠ [])
    (hparts : forall part, part ∈ parts -> c ∉ part) :
    split (c :: tail) (join (c :: tail) parts) = parts := by
  unfold split
  induction parts with
  | nil => exact absurd rfl hne
  | cons part rest ih =>
      have hpart := splitFrom_part tail (hparts part List.mem_cons_self) []
      cases rest with
      | nil =>
          have hlast := hpart []
          rw [List.append_nil, List.nil_append] at hlast
          rw [join, hlast]
          rfl
      | cons next rest =>
          rw [join, List.append_assoc, hpart, splitFrom_separator, List.nil_append,
            ih (List.cons_ne_nil _ _) fun p hp => hparts p (List.mem_cons_of_mem _ hp)]

theorem stripOf_quoted {s : Text} (h : c ∉ s) : stripOf c (c :: s ++ [c]) = s := by
  have hfront : forall u : Text, c ∉ u -> u.dropWhile (· = c) = u := by
    intro u hu
    cases u with
    | nil => rfl
    | cons d rest =>
        apply List.dropWhile_cons_of_neg
        rw [decide_eq_true_eq]
        intro heq
        exact hu (heq ▸ List.mem_cons_self)
  unfold stripOf
  have hopen : forall u : Text, (c :: u).dropWhile (· = c) = u.dropWhile (· = c) :=
    fun u => List.dropWhile_cons_of_pos (decide_eq_true rfl)
  cases s with
  | nil =>
      rw [List.cons_append, List.nil_append, hopen, hopen]
      rfl
  | cons d rest =>
      have hd : (d :: rest ++ [c]).dropWhile (· = c) = d :: rest ++ [c] := by
        apply List.dropWhile_cons_of_neg
        rw [decide_eq_true_eq]
        intro heq
        exact h (heq ▸ List.mem_cons_self)
      have hback : c ∉ (d :: rest).reverse := by
        rw [List.mem_reverse]
        exact h
      rw [List.cons_append, hopen, hd, List.reverse_append, List.reverse_singleton,
        List.singleton_append, hopen, hfront _ hback, List.reverse_reverse]

end Splitting
end RagService
