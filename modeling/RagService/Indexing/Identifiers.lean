import RagService.Foundation.Regex
import RagService.Indexing.Lexical

/-!
# Matching identifiers

`_EXACT_TOKEN_PATTERN` as a backtracking pattern, and the scanner that finds its matches: an
identifier goes on while there are alphanumeric characters, or a joiner in front of one.
-/

namespace RagService
namespace Lexical

open Text Regex

def exactTokenPattern : Pattern :=
  .alt (.seq (.plus (.oneOf isAsciiAlnum))
      (.plus (.seq (.oneOf isJoiner) (.plus (.oneOf isAsciiAlnum)))))
    (.plus (.oneOf isAsciiAlnum))

def startsAlnum (s : Text) : Bool :=
  (s.head?.map isAsciiAlnum).getD false

def goesOn : Text -> Bool
  | [] => false
  | c :: rest => isAsciiAlnum c || (isJoiner c && startsAlnum rest)

def readIdentifier : Text -> Text × Text
  | [] => ([], [])
  | c :: rest =>
      if goesOn (c :: rest) then (c :: (readIdentifier rest).1, (readIdentifier rest).2)
      else ([], c :: rest)

/-!
# The scanner

Within a match the scanner reads on to the end of the identifier.  Letters stay alphanumeric in
lower case.
-/

theorem not_isJoiner {c : Char} (h : isAsciiAlnum c = true) : isJoiner c = false := by
  have hjoiner : forall d, isJoiner d = true -> isAsciiAlnum d = false := by
    intro d hd
    unfold isJoiner at hd
    rw [decide_eq_true_eq] at hd
    rcases hd with rfl | rfl | rfl | rfl | rfl <;> decide
  cases hc : isJoiner c with
  | false => rfl
  | true =>
      rw [hjoiner c hc] at h
      cases h

theorem readIdentifier_append (s : Text) : (readIdentifier s).1 ++ (readIdentifier s).2 = s := by
  induction s with
  | nil => rfl
  | cons c rest ih =>
      rw [readIdentifier]
      split
      · rw [List.cons_append, ih]
      · rfl

theorem goesOn_readIdentifier (s : Text) : goesOn (readIdentifier s).2 = false := by
  induction s with
  | nil => rfl
  | cons c rest ih =>
      rw [readIdentifier]
      split
      · exact ih
      · rename_i h
        exact Bool.not_eq_true _ |>.mp h

theorem length_readIdentifier (s : Text) : (readIdentifier s).2.length ≤ s.length := by
  have happend := congrArg List.length (readIdentifier_append s)
  rw [List.length_append] at happend
  omega

theorem exactMatches_skip {c : Char} (h : isAsciiAlnum c = false) (s : Text) :
    exactMatches [] (c :: s) = exactMatches [] s := by
  rw [exactMatches, h]
  rfl

theorem exactMatches_found {found : Text} (hfound : found ≠ []) (s : Text) :
    exactMatches found s =
      (found.reverse ++ (readIdentifier s).1) :: exactMatches [] (readIdentifier s).2 := by
  have hempty : found.isEmpty = false := by
    rw [Bool.eq_false_iff, Ne, List.isEmpty_iff]
    exact hfound
  induction s generalizing found with
  | nil =>
      rw [exactMatches, hempty, readIdentifier, List.append_nil]
      rfl
  | cons c rest ih =>
      have hnext := ih (List.cons_ne_nil c found) rfl
      rw [List.reverse_cons, List.append_assoc, List.singleton_append] at hnext
      rw [exactMatches, readIdentifier, goesOn, hempty]
      cases halnum : isAsciiAlnum c with
      | true => exact hnext
      | false =>
          have hstarts : (rest.head?.map isAsciiAlnum).getD false = startsAlnum rest := rfl
          rw [hstarts, Bool.false_or, Bool.not_false, Bool.true_and]
          cases hjoin : isJoiner c && startsAlnum rest with
          | true => exact hnext
          | false =>
              show found.reverse :: exactMatches [] rest =
                (found.reverse ++ []) :: exactMatches [] (c :: rest)
              rw [List.append_nil, exactMatches_skip halnum]

theorem exactMatches_alnum {c : Char} (h : isAsciiAlnum c = true) (s : Text) :
    exactMatches [] (c :: s) =
      (c :: (readIdentifier s).1) :: exactMatches [] (readIdentifier s).2 := by
  rw [exactMatches, if_pos h, exactMatches_found (List.cons_ne_nil c [])]
  rfl

theorem mem_readIdentifier {s : Text} {c : Char} (h : c ∈ (readIdentifier s).1) :
    isAsciiAlnum c = true ∨ isJoiner c = true := by
  induction s with
  | nil => cases h
  | cons d rest ih =>
      rw [readIdentifier] at h
      split at h
      · rename_i hgoes
        cases List.mem_cons.mp h with
        | inl heq =>
            rw [goesOn, Bool.or_eq_true, Bool.and_eq_true] at hgoes
            rw [heq]
            exact hgoes.imp id And.left
        | inr hin => exact ih hin
      · cases h

theorem mem_exactMatches {s word : Text} (hword : word ∈ exactMatches [] s) {c : Char}
    (hc : c ∈ word) : isAsciiAlnum c = true ∨ isJoiner c = true := by
  induction hlength : s.length using Nat.strongRecOn generalizing s with
  | ind n ih =>
      cases s with
      | nil => cases hword
      | cons d rest =>
          have hrest : rest.length < n := by
            rw [← hlength]
            exact Nat.lt_succ_self _
          cases hd : isAsciiAlnum d with
          | false =>
              rw [exactMatches_skip hd] at hword
              exact ih _ hrest hword rfl
          | true =>
              rw [exactMatches_alnum hd] at hword
              cases List.mem_cons.mp hword with
              | inl heq =>
                  rw [heq] at hc
                  cases List.mem_cons.mp hc with
                  | inl hfirst =>
                      rw [hfirst]
                      exact .inl hd
                  | inr hin => exact mem_readIdentifier hin
              | inr hin =>
                  exact ih _ (Nat.lt_of_le_of_lt (length_readIdentifier rest) hrest) hin rfl

theorem classes_lower {c : Char} (hupper : 'A' ≤ c ∧ c ≤ 'Z') :
    isAsciiAlnum c = true ∧ isAsciiAlnum (Char.ofNat (c.toNat + 32)) = true := by
  have hall : forall k : Fin 26, isAsciiAlnum (Char.ofNat (k + 65)) = true ∧
      isAsciiAlnum (Char.ofNat (k + 65 + 32)) = true := by
    decide
  have hlow : 65 ≤ c.toNat := hupper.1
  have hhigh : c.toNat ≤ 90 := hupper.2
  have hk := hall ⟨c.toNat - 65, by omega⟩
  have hsum : c.toNat - 65 + 65 = c.toNat := Nat.sub_add_cancel hlow
  dsimp only at hk
  rw [hsum, Char.ofNat_toNat] at hk
  exact hk

/-!
# The pattern

The first match of the pattern is the whole identifier: behind an alphanumeric run, greedy
repetition of joined runs goes on to its end.  So the scanner finds what
`_EXACT_TOKEN_PATTERN.finditer` gives.
-/

theorem readIdentifier_dropWhile (s : Text) :
    (readIdentifier s).2 = (readIdentifier (s.dropWhile isAsciiAlnum)).2 := by
  induction s with
  | nil => rfl
  | cons c rest ih =>
      cases hc : isAsciiAlnum c with
      | true =>
          rw [List.dropWhile_cons_of_pos hc, ← ih, readIdentifier, goesOn, hc, Bool.true_or,
            if_pos rfl]
      | false => rw [List.dropWhile_cons_of_neg (by rw [hc]; exact Bool.false_ne_true)]

/-- The part of the pattern that is repeated: a joiner and an alphanumeric run. -/
def joinedRun : Pattern :=
  .seq (.oneOf isJoiner) (.plus (.oneOf isAsciiAlnum))

theorem head?_rests_joinedRun (s : Text) :
    (joinedRun.rests s).head? =
      match s with
      | c :: rest =>
          if isJoiner c && startsAlnum rest then some (rest.dropWhile isAsciiAlnum) else none
      | [] => none := by
  cases s with
  | nil => rfl
  | cons c rest =>
      unfold joinedRun
      rw [Pattern.rests, Pattern.rests]
      dsimp only
      cases hjoin : isJoiner c with
      | false => rfl
      | true =>
          rw [if_pos rfl, List.flatMap_singleton, Bool.true_and]
          cases rest with
          | nil => rfl
          | cons d tail =>
              cases hd : isAsciiAlnum d with
              | true =>
                  rcases Pattern.rests_run hd tail with ⟨others, hrests, -⟩
                  have hstarts : startsAlnum (d :: tail) = true := hd
                  rw [hrests, hstarts, List.head?_cons, if_pos rfl,
                    List.dropWhile_cons_of_pos hd]
              | false =>
                  have hstarts : startsAlnum (d :: tail) = false := hd
                  rw [hstarts, Pattern.rests_run_nil]
                  · rfl
                  · intro d' tail' heq
                    rw [← (List.cons.inj heq).1]
                    exact hd

theorem startsAlnum_dropWhile (s : Text) :
    startsAlnum (s.dropWhile isAsciiAlnum) = false := by
  induction s with
  | nil => rfl
  | cons c rest ih =>
      cases hc : isAsciiAlnum c with
      | true =>
          rw [List.dropWhile_cons_of_pos hc]
          exact ih
      | false =>
          rw [List.dropWhile_cons_of_neg (by rw [hc]; exact Bool.false_ne_true)]
          exact hc

theorem head?_repeats_joinedRun {n : Nat} {s : Text} (hs : startsAlnum s = false)
    (hn : s.length ≤ n) :
    (repeats joinedRun.rests n s).head? = some (readIdentifier s).2 := by
  induction n generalizing s with
  | zero =>
      rw [List.length_eq_zero_iff.mp (Nat.le_zero.mp hn)]
      rfl
  | succ n ih =>
      rw [head?_repeats_succ, head?_rests_joinedRun]
      cases s with
      | nil => rfl
      | cons c rest =>
          have hc : isAsciiAlnum c = false := hs
          dsimp only
          rw [readIdentifier, goesOn, hc, Bool.false_or]
          cases hjoin : isJoiner c && startsAlnum rest with
          | false => rfl
          | true =>
              rw [if_pos rfl, if_pos rfl, readIdentifier_dropWhile]
              apply ih (startsAlnum_dropWhile rest)
              have hdrop := (List.dropWhile_sublist (p := isAsciiAlnum) (l := rest)).length_le
              exact Nat.le_trans hdrop (Nat.le_of_succ_le_succ hn)

theorem head?_rests_exactTokenPattern {c : Char} (hc : isAsciiAlnum c = true) (s : Text) :
    (exactTokenPattern.rests (c :: s)).head? = some (readIdentifier s).2 := by
  rcases Pattern.rests_run hc s with ⟨others, hrun, hback⟩
  -- what a shorter run leaves starts with an alphanumeric character, which is no joiner
  have hothers : forall other, other ∈ others -> (Pattern.plus joinedRun).rests other = [] := by
    intro other hother
    rcases hback other hother with ⟨d, rest, rfl, hd⟩
    rw [Pattern.rests, joinedRun, Pattern.rests, Pattern.rests, not_isJoiner hd]
    rfl
  have hseq := Pattern.rests_seq hrun hothers
  have hpattern : exactTokenPattern.rests (c :: s) =
      (Pattern.seq (.plus (.oneOf isAsciiAlnum)) (.plus joinedRun)).rests (c :: s) ++
        (Pattern.plus (.oneOf isAsciiAlnum)).rests (c :: s) := rfl
  rw [hpattern, hseq, hrun, List.head?_append, Pattern.head?_rests_plus,
    head?_rests_joinedRun, readIdentifier_dropWhile]
  have hstarts := startsAlnum_dropWhile s
  cases hleft : s.dropWhile isAsciiAlnum with
  | nil => rfl
  | cons d rest =>
      rw [hleft] at hstarts
      have hd : isAsciiAlnum d = false := hstarts
      dsimp only
      rw [readIdentifier, goesOn, hd, Bool.false_or]
      cases hjoin : isJoiner d && startsAlnum rest with
      | false => rfl
      | true =>
          rw [if_pos rfl, if_pos rfl, Option.bind_some,
            head?_repeats_joinedRun (startsAlnum_dropWhile rest) (Nat.le_refl _),
            ← readIdentifier_dropWhile]
          rfl

theorem rests_exactTokenPattern_skip {c : Char} (hc : isAsciiAlnum c = false) (s : Text) :
    exactTokenPattern.rests (c :: s) = [] := by
  have hrun : (Pattern.plus (.oneOf isAsciiAlnum)).rests (c :: s) = [] := by
    apply Pattern.rests_run_nil
    intro d rest heq
    rw [← (List.cons.inj heq).1]
    exact hc
  rw [exactTokenPattern, Pattern.rests, Pattern.rests, hrun]
  rfl

theorem exactMatches_eq_finditer {n : Nat} {s : Text} (hn : s.length ≤ n) :
    exactMatches [] s = exactTokenPattern.finditer n s := by
  induction n generalizing s with
  | zero =>
      rw [List.length_eq_zero_iff.mp (Nat.le_zero.mp hn)]
      rfl
  | succ n ih =>
      cases s with
      | nil => rfl
      | cons c rest =>
          have hrest : rest.length ≤ n := Nat.le_of_succ_le_succ hn
          rw [Pattern.finditer]
          cases hc : isAsciiAlnum c with
          | false =>
              rw [exactMatches_skip hc, rests_exactTokenPattern_skip hc]
              exact ih hrest
          | true =>
              have hfirst := head?_rests_exactTokenPattern hc rest
              cases hrests : exactTokenPattern.rests (c :: rest) with
              | nil =>
                  rw [hrests] at hfirst
                  cases hfirst
              | cons last others =>
                  rw [hrests, List.head?_cons, Option.some.injEq] at hfirst
                  have hword : (c :: rest).take (rest.length + 1 - last.length) =
                      c :: (readIdentifier rest).1 := by
                    have happend := readIdentifier_append rest
                    have hlength := congrArg List.length happend
                    rw [List.length_append] at hlength
                    have hcount : rest.length + 1 - last.length =
                        (c :: (readIdentifier rest).1).length := by
                      rw [hfirst, List.length_cons]
                      omega
                    conv_lhs => rw [← happend, ← List.cons_append, happend, hcount, List.take_left]
                  dsimp only
                  rw [exactMatches_alnum hc, hword, hfirst]
                  congr 1
                  exact ih (Nat.le_trans (length_readIdentifier rest) hrest)

end Lexical
end RagService
