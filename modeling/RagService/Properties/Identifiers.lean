import RagService.Foundation.Firsts
import RagService.Indexing.Identifiers

/-!
# Identifiers match

The exact tokens of a text are its maximal identifiers in lower case, each once and in the
order in which they first occur.  So an identifier is found in any context that does not
prolong it, and however its letters are cased.
-/

namespace RagService
namespace Identifiers

open Text Lexical Firsts

structure Run (w : Text) : Prop where
  nonempty : w ≠ []
  alnum : forall c, c ∈ w -> isAsciiAlnum c = true

/-- Alphanumeric runs with a joiner between each two of them. -/
inductive Identifier : Text -> Prop where
  | run {w : Text} : Run w -> Identifier w
  | joined {w v : Text} {c : Char} :
      Run w -> isJoiner c = true -> Identifier v -> Identifier (w ++ c :: v)

/-- An identifier at a place of a text that no other identifier there contains. -/
structure Maximal (text : Text) (i : Nat) (w : Text) : Prop where
  identifier : Identifier w
  occurs : w <+: text.drop i
  maximal : forall j v, Identifier v -> v <+: text.drop j -> j ≤ i ->
    i + w.length ≤ j + v.length -> j = i ∧ v = w

/-- Contexts that do not prolong an identifier between them. -/
structure Apart (left right : Text) : Prop where
  left : forall c, c ∈ left.getLast? -> isAsciiAlnum c = false ∧ isJoiner c = false
  right : forall c, c ∈ right.head? -> isAsciiAlnum c = false ∧ isJoiner c = false

/-!
# Characters of identifiers

Behind an alphanumeric character an identifier goes on as the scanner does.
-/

def endsAlnum (w : Text) : Bool :=
  (w.getLast?.map isAsciiAlnum).getD false

theorem Identifier.ne_nil {w : Text} (h : Identifier w) : w ≠ [] := by
  cases h with
  | run h => exact h.nonempty
  | joined h _ _ => exact List.append_ne_nil_of_left_ne_nil h.nonempty _

theorem Identifier.chars {w : Text} (h : Identifier w) {c : Char} (hc : c ∈ w) :
    isAsciiAlnum c = true ∨ isJoiner c = true := by
  induction h with
  | run h => exact .inl (h.alnum c hc)
  | joined h hjoiner _ ih =>
      cases List.mem_append.mp hc with
      | inl hin => exact .inl (h.alnum c hin)
      | inr hin =>
          cases List.mem_cons.mp hin with
          | inl heq => exact .inr (heq ▸ hjoiner)
          | inr hin => exact ih hin

theorem Identifier.starts {w : Text} (h : Identifier w) : startsAlnum w = true := by
  have hrun : forall {r : Text}, Run r -> forall tail, startsAlnum (r ++ tail) = true := by
    intro r hr tail
    cases r with
    | nil => exact absurd rfl hr.nonempty
    | cons c rest => exact hr.alnum c List.mem_cons_self
  cases h with
  | run h =>
      have hstarts := hrun h []
      rw [List.append_nil] at hstarts
      exact hstarts
  | joined h _ _ => exact hrun h _

theorem endsAlnum_append {v : Text} (u : Text) (hv : v ≠ []) :
    endsAlnum (u ++ v) = endsAlnum v := by
  unfold endsAlnum
  rw [List.getLast?_append_of_ne_nil u hv]

theorem Run.ends {w : Text} (h : Run w) : endsAlnum w = true := by
  unfold endsAlnum
  rw [List.getLast?_eq_some_getLast h.nonempty]
  exact h.alnum _ (List.getLast_mem h.nonempty)

theorem Identifier.ends {w : Text} (h : Identifier w) : endsAlnum w = true := by
  induction h with
  | run h => exact h.ends
  | joined _ _ hv ih =>
      rw [endsAlnum_append _ (List.cons_ne_nil _ _), ← List.singleton_append,
        endsAlnum_append _ hv.ne_nil]
      exact ih

theorem Identifier.goesOn_of_append {y z : Text} (h : Identifier (y ++ z))
    (hends : endsAlnum y = true) (hz : z ≠ []) : goesOn z = true := by
  generalize hw : y ++ z = w at h
  induction h generalizing y with
  | run h =>
      cases z with
      | nil => exact absurd rfl hz
      | cons d rest =>
          have hd := h.alnum d (hw ▸ List.mem_append_right y List.mem_cons_self)
          rw [goesOn, hd]
          rfl
  | @joined w v c h hjoiner hv ih =>
      have hjoined : goesOn (c :: v) = true := by
        rw [goesOn, hjoiner, hv.starts, Bool.true_and, Bool.or_true]
      rcases List.append_eq_append_iff.mp hw with ⟨rest, hrest, htail⟩ | ⟨rest, hrest, htail⟩
      · -- the first run goes on behind `y`
        cases rest with
        | nil =>
            rw [htail]
            exact hjoined
        | cons d rest =>
            have hd := h.alnum d (hrest ▸ List.mem_append_right y List.mem_cons_self)
            rw [htail, List.cons_append, goesOn, hd]
            rfl
      · cases rest with
        | nil =>
            rw [List.nil_append] at htail
            rw [← htail]
            exact hjoined
        | cons d rest =>
            rw [List.cons_append, List.cons.injEq] at htail
            cases rest with
            | nil =>
                -- `y` would end with the joiner
                rw [hrest, endsAlnum_append _ (List.cons_ne_nil _ _), ← htail.1] at hends
                have halnum : isAsciiAlnum c = true := hends
                rw [not_isJoiner halnum] at hjoiner
                cases hjoiner
            | cons d' rest =>
                rw [hrest, endsAlnum_append w (List.cons_ne_nil d _)] at hends
                have hlast : endsAlnum (d' :: rest) = true := by
                  rw [← endsAlnum_append [d] (List.cons_ne_nil d' rest)]
                  exact hends
                exact ih hlast htail.2.symm

theorem goesOn_of_prefix {z s : Text} (h : z <+: s) (hz : goesOn z = true) : goesOn s = true := by
  rcases h with ⟨tail, rfl⟩
  cases z with
  | nil => cases hz
  | cons c rest =>
      rw [List.cons_append, goesOn]
      rw [goesOn] at hz
      cases rest with
      | nil =>
          have hnone : startsAlnum [] = false := rfl
          rw [hnone, Bool.and_false, Bool.or_false] at hz
          rw [hz]
          rfl
      | cons d rest => exact hz

/-!
# What the scanner reads

An identifier that the scanner goes on with stays one.
-/

theorem Run.concat {w : Text} (h : Run w) {d : Char} (hd : isAsciiAlnum d = true) :
    Run (w ++ [d]) := by
  constructor
  · exact List.append_ne_nil_of_right_ne_nil _ (List.cons_ne_nil _ _)
  · intro c hc
    cases List.mem_append.mp hc with
    | inl hin => exact h.alnum c hin
    | inr hin => exact List.mem_singleton.mp hin ▸ hd

theorem run_singleton {d : Char} (hd : isAsciiAlnum d = true) : Run [d] := by
  constructor
  · exact List.cons_ne_nil _ _
  · intro c hc
    exact List.mem_singleton.mp hc ▸ hd

theorem Identifier.concat {w : Text} (h : Identifier w) {d : Char}
    (hd : isAsciiAlnum d = true) : Identifier (w ++ [d]) := by
  induction h with
  | run h => exact .run (h.concat hd)
  | joined h hjoiner _ ih =>
      rw [List.append_assoc, List.cons_append]
      exact .joined h hjoiner ih

theorem Identifier.concat_joined {w : Text} (h : Identifier w) {c d : Char}
    (hc : isJoiner c = true) (hd : isAsciiAlnum d = true) : Identifier (w ++ [c, d]) := by
  induction h with
  | run h => exact .joined h hc (.run (run_singleton hd))
  | joined h hjoiner _ ih =>
      rw [List.append_assoc, List.cons_append]
      exact .joined h hjoiner ih

theorem identifier_readIdentifier {w s : Text} :
    (Identifier w -> Identifier (w ++ (readIdentifier s).1)) ∧
      forall c, Identifier w -> isJoiner c = true -> startsAlnum s = true ->
        Identifier (w ++ c :: (readIdentifier s).1) := by
  induction s generalizing w with
  | nil =>
      constructor
      · intro h
        rw [readIdentifier, List.append_nil]
        exact h
      · intro c _ _ hstarts
        cases hstarts
  | cons d rest ih =>
      have hread : forall u : Text, Identifier (u ++ [d]) ->
          Identifier (u ++ d :: (readIdentifier rest).1) := by
        intro u hu
        have hnext := ih.1 hu
        rw [List.append_assoc, List.singleton_append] at hnext
        exact hnext
      constructor
      · intro h
        rw [readIdentifier, goesOn]
        cases hd : isAsciiAlnum d with
        | true => exact hread w (h.concat hd)
        | false =>
            rw [Bool.false_or]
            cases hjoin : isJoiner d && startsAlnum rest with
            | true =>
                rw [Bool.and_eq_true] at hjoin
                exact ih.2 d h hjoin.1 hjoin.2
            | false =>
                show Identifier (w ++ [])
                rw [List.append_nil]
                exact h
      · intro c h hc hstarts
        have hd : isAsciiAlnum d = true := hstarts
        have hnext := hread (w ++ [c]) (by
          rw [List.append_assoc]
          exact h.concat_joined hc hd)
        rw [List.append_assoc, List.singleton_append] at hnext
        rw [readIdentifier, goesOn, hd, Bool.true_or, if_pos rfl]
        exact hnext

/-!
# The matches of a text

No identifier goes over a place where the scanner stops, so what it reads is maximal and
overlaps no other maximal identifier.
-/

def Boundary (before s : Text) : Prop :=
  forall j v, Identifier v -> v <+: (before ++ s).drop j -> j < before.length ->
    j + v.length ≤ before.length

theorem boundary_nil (s : Text) : Boundary [] s := by
  intro j v _ _ hj
  exact absurd hj (Nat.not_lt_zero j)

theorem not_prefix_of_skip {c : Char} (hc : isAsciiAlnum c = false) {s v : Text}
    (hv : Identifier v) : ¬ v <+: c :: s := by
  intro hprefix
  have hstarts := hv.starts
  cases v with
  | nil => cases hstarts
  | cons d rest =>
      rw [(List.cons_prefix_cons.mp hprefix).1] at hstarts
      change isAsciiAlnum c = true at hstarts
      rw [hc] at hstarts
      cases hstarts

theorem boundary_skip {before s : Text} (h : Boundary before s) {c : Char} {rest : Text}
    (hs : s = c :: rest) (hc : isAsciiAlnum c = false) : Boundary (before ++ [c]) rest := by
  intro j v hv hoccurs hj
  rw [List.append_assoc, List.singleton_append, ← hs] at hoccurs
  rw [List.length_append, List.length_singleton] at hj ⊢
  by_cases hlt : j < before.length
  · exact Nat.le_succ_of_le (h j v hv hoccurs hlt)
  · have hplace : j = before.length := by omega
    rw [hplace, List.drop_left, hs] at hoccurs
    exact absurd hoccurs (not_prefix_of_skip hc hv)

theorem boundary_read {before w left : Text} (h : Boundary before (w ++ left))
    (hw : endsAlnum w = true) (hleft : goesOn left = false) : Boundary (before ++ w) left := by
  intro j v hv hoccurs hj
  rw [List.append_assoc] at hoccurs
  rw [List.length_append] at hj ⊢
  by_cases hlt : j < before.length
  · exact Nat.le_trans (h j v hv hoccurs hlt) (Nat.le_add_right _ _)
  · apply Nat.not_lt.mp
    intro hlong
    -- `v` is the end of `w` and then a part of what is left
    have hdrop : (before ++ (w ++ left)).drop j = w.drop (j - before.length) ++ left := by
      rw [List.drop_append, List.drop_of_length_le (Nat.not_lt.mp hlt), List.nil_append,
        List.drop_append_of_le_length (by omega)]
    rw [hdrop] at hoccurs
    have hlength : (w.drop (j - before.length)).length ≤ v.length := by
      rw [List.length_drop]
      omega
    have hback : w.drop (j - before.length) <+: v :=
      List.prefix_of_prefix_length_le (List.prefix_append _ _) hoccurs hlength
    rcases hback with ⟨z, hz⟩
    have hends : endsAlnum (w.drop (j - before.length)) = true := by
      have hne : w.drop (j - before.length) ≠ [] := by
        apply List.ne_nil_of_length_pos
        rw [List.length_drop]
        omega
      rw [← endsAlnum_append (w.take (j - before.length)) hne, List.take_append_drop]
      exact hw
    have hne : z ≠ [] := by
      intro hnil
      have htotal := congrArg List.length hz
      rw [hnil, List.append_nil, List.length_drop] at htotal
      omega
    rw [← hz] at hv hoccurs
    have hgoes := goesOn_of_prefix ((List.prefix_append_right_inj _).mp hoccurs)
      (hv.goesOn_of_append hends hne)
    rw [hleft] at hgoes
    cases hgoes

theorem maximal_read {before w left : Text} (h : Boundary before (w ++ left))
    (hw : Identifier w) (hread : Boundary (before ++ w) left) :
    Maximal (before ++ (w ++ left)) before.length w := by
  have hpositive : 0 < w.length := List.length_pos_iff.mpr hw.ne_nil
  constructor
  · exact hw
  · rw [List.drop_left]
    exact List.prefix_append w left
  · intro j v hv hoccurs hle hlength
    by_cases hlt : j < before.length
    · have hshort := h j v hv hoccurs hlt
      omega
    · have hplace : j = before.length := by omega
      have hends := hread j v hv (by rw [List.append_assoc]; exact hoccurs) (by
        rw [List.length_append]
        omega)
      rw [hplace, List.drop_left] at hoccurs
      rw [List.length_append] at hends
      have hsame : v.length = w.length := by omega
      exact ⟨hplace, ((List.prefix_of_prefix_length_le hoccurs (List.prefix_append w left)
        (Nat.le_of_eq hsame)).eq_of_length hsame)⟩

structure OccursFrom (before s : Text) (occurrences : List (Nat × Text)) : Prop where
  sorted : occurrences.Pairwise fun x y => x.1 < y.1
  maximal : forall i w, (i, w) ∈ occurrences ↔ before.length ≤ i ∧ Maximal (before ++ s) i w
  words : occurrences.map Prod.snd = exactMatches [] s

theorem occursFrom_nil (before : Text) : OccursFrom before [] [] := by
  constructor
  · exact List.Pairwise.nil
  · intro i w
    constructor
    · intro hmem
      cases hmem
    · intro hmaximal
      have hoccurs := hmaximal.2.occurs
      rw [List.append_nil, List.drop_of_length_le hmaximal.1] at hoccurs
      exact absurd (List.prefix_nil.mp hoccurs) hmaximal.2.identifier.ne_nil
  · rfl

section

variable {before rest : Text} {c : Char} {occurrences : List (Nat × Text)}

theorem OccursFrom.skip (hc : isAsciiAlnum c = false)
    (h : OccursFrom (before ++ [c]) rest occurrences) :
    OccursFrom before (c :: rest) occurrences := by
  constructor
  · exact h.sorted
  · intro i w
    rw [h.maximal, List.append_assoc, List.singleton_append, List.length_append,
      List.length_singleton]
    constructor
    · exact fun hlater => ⟨Nat.le_of_succ_le hlater.1, hlater.2⟩
    · intro hmaximal
      constructor
      · apply Nat.lt_of_le_of_ne hmaximal.1
        intro heq
        have hoccurs := hmaximal.2.occurs
        rw [← heq, List.drop_left] at hoccurs
        exact not_prefix_of_skip hc hmaximal.2.identifier hoccurs
      · exact hmaximal.2
  · rw [h.words, exactMatches_skip hc]

theorem OccursFrom.read {word left : Text} (hword : Identifier word)
    (hboundary : Boundary before (word ++ left)) (hread : Boundary (before ++ word) left)
    (hmatches : exactMatches [] (word ++ left) = word :: exactMatches [] left)
    (h : OccursFrom (before ++ word) left occurrences) :
    OccursFrom before (word ++ left) ((before.length, word) :: occurrences) := by
  have hmaximal := maximal_read hboundary hword hread
  have hpositive : 0 < word.length := List.length_pos_iff.mpr hword.ne_nil
  have hmem := h.maximal
  rw [List.append_assoc, List.length_append] at hmem
  constructor
  · apply List.Pairwise.cons _ h.sorted
    intro later hlater
    have hplace := ((hmem later.1 later.2).mp hlater).1
    show before.length < later.1
    omega
  · intro i w
    rw [List.mem_cons, Prod.mk.injEq]
    constructor
    · intro hin
      cases hin with
      | inl heq =>
          rw [heq.1, heq.2]
          exact ⟨Nat.le_refl _, hmaximal⟩
      | inr hin =>
          have hlater := (hmem i w).mp hin
          exact ⟨by omega, hlater.2⟩
    · intro hother
      cases Nat.lt_or_ge i (before.length + word.length) with
      | inr hlater => exact .inr ((hmem i w).mpr ⟨hlater, hother.2⟩)
      | inl hoverlaps =>
          left
          have hoccurs := hother.2.occurs
          rw [← List.append_assoc] at hoccurs
          have hends := hread i w hother.2.identifier hoccurs (by
            rw [List.length_append]
            exact hoverlaps)
          rw [List.length_append] at hends
          have hsame := hother.2.maximal before.length word hmaximal.identifier
            hmaximal.occurs hother.1 hends
          exact ⟨hsame.1.symm, hsame.2.symm⟩
  · rw [List.map_cons, h.words, hmatches]

end

/-- Beyond a boundary the scanner finds the maximal identifiers. -/
theorem exists_occurrences {before s : Text} (h : Boundary before s) :
    exists occurrences, OccursFrom before s occurrences := by
  induction hlength : s.length using Nat.strongRecOn generalizing before s with
  | ind n ih =>
      cases s with
      | nil => exact ⟨[], occursFrom_nil before⟩
      | cons c rest =>
          cases hc : isAsciiAlnum c with
          | false =>
              have hshorter : rest.length < n := by
                rw [← hlength]
                exact Nat.lt_succ_self _
              rcases ih _ hshorter (boundary_skip h rfl hc) rfl with ⟨occurrences, hoccurs⟩
              exact ⟨occurrences, hoccurs.skip hc⟩
          | true =>
              have hword : Identifier (c :: (readIdentifier rest).1) :=
                (identifier_readIdentifier.1 (.run (run_singleton hc)) : Identifier ([c] ++ _))
              have hs : c :: rest = c :: (readIdentifier rest).1 ++ (readIdentifier rest).2 := by
                rw [List.cons_append, readIdentifier_append]
              have hmatches := exactMatches_alnum hc rest
              rw [hs] at h hmatches
              have hread := boundary_read h hword.ends (goesOn_readIdentifier rest)
              have hshorter : (readIdentifier rest).2.length < n := by
                rw [← hlength]
                exact Nat.lt_succ_of_le (length_readIdentifier rest)
              rcases ih _ hshorter hread rfl with ⟨occurrences, hoccurs⟩
              rw [hs]
              exact ⟨_, hoccurs.read hword h hread hmatches⟩

/-!
# Cases and contexts

The case of letters makes no difference to an identifier, and one between two contexts that do
not prolong it is maximal.
-/

theorem alnum_of_lowerAscii {c d : Char} (h : lowerAscii [c] = lowerAscii [d])
    (hd : isAsciiAlnum d = true) : isAsciiAlnum c = true := by
  have hlower : forall e, isAsciiAlnum e = true ->
      forall e', lowerAscii [e] = [e'] -> isAsciiAlnum e' = true := by
    intro e he e' he'
    unfold lowerAscii at he'
    rw [List.map_singleton, List.cons.injEq] at he'
    rw [← he'.1]
    split
    · rename_i hupper
      exact (classes_lower hupper).2
    · exact he
  by_cases hupper : 'A' ≤ c ∧ c ≤ 'Z'
  · exact (classes_lower hupper).1
  · have hsame : lowerAscii [c] = [c] := by
      unfold lowerAscii
      rw [List.map_singleton, if_neg hupper]
    exact hlower d hd c (h ▸ hsame)

theorem joiner_of_lowerAscii {c d : Char} (h : lowerAscii [c] = lowerAscii [d])
    (hd : isJoiner d = true) : c = d := by
  have hnotUpper : forall e, isJoiner e = true -> ¬ ('A' ≤ e ∧ e ≤ 'Z') := by
    intro e he hupper
    rw [not_isJoiner (classes_lower hupper).1] at he
    cases he
  have hsame : lowerAscii [d] = [d] := by
    unfold lowerAscii
    rw [List.map_singleton, if_neg (hnotUpper d hd)]
  rw [hsame] at h
  unfold lowerAscii at h
  rw [List.map_singleton, List.cons.injEq] at h
  have hchar := h.1
  split at hchar
  · rename_i hupper
    rw [← hchar, not_isJoiner (classes_lower hupper).2] at hd
    cases hd
  · exact hchar

theorem lowerAscii_append (u v : Text) : lowerAscii (u ++ v) = lowerAscii u ++ lowerAscii v :=
  List.map_append

theorem Identifier.of_lowerAscii {w w' : Text} (h : Identifier w)
    (hcase : lowerAscii w' = lowerAscii w) : Identifier w' := by
  have hrun : forall {r r' : Text}, Run r -> lowerAscii r' = lowerAscii r -> Run r' := by
    intro r r' hr hsame
    have hlength := congrArg List.length hsame
    unfold lowerAscii at hlength
    rw [List.length_map, List.length_map] at hlength
    constructor
    · apply List.ne_nil_of_length_pos
      rw [hlength]
      exact List.length_pos_iff.mpr hr.nonempty
    · intro c hc
      rcases List.mem_iff_getElem.mp hc with ⟨i, hi, rfl⟩
      have hchar : (lowerAscii r')[i]? = (lowerAscii r)[i]? := by rw [hsame]
      unfold lowerAscii at hchar
      rw [List.getElem?_map, List.getElem?_map, List.getElem?_eq_getElem hi,
        List.getElem?_eq_getElem (hlength ▸ hi), Option.map_some, Option.map_some,
        Option.some.injEq] at hchar
      apply alnum_of_lowerAscii (congrArg (fun c => [c]) hchar)
      exact hr.alnum _ (List.getElem_mem _)
  induction h generalizing w' with
  | run h => exact .run (hrun h hcase)
  | @joined w v c h hjoiner _ ih =>
      rw [lowerAscii_append] at hcase
      rcases List.map_eq_append_iff.mp hcase with ⟨front, back, rfl, hfront, hback⟩
      rcases List.map_eq_cons_iff.mp hback with ⟨d, rest, rfl, hd, hrest⟩
      have hsame : d = c := joiner_of_lowerAscii (congrArg (fun c => [c]) hd) hjoiner
      rw [hsame]
      exact .joined (hrun h hfront) hjoiner (ih hrest)

theorem maximal_of_apart {w left right : Text} (hw : Identifier w) (h : Apart left right) :
    Maximal (left ++ w ++ right) left.length w := by
  have hnone : forall v c, Identifier v -> c ∈ v ->
      ¬ (isAsciiAlnum c = false ∧ isJoiner c = false) := by
    intro v c hv hc hneither
    cases hv.chars hc with
    | inl halnum => rw [hneither.1] at halnum; cases halnum
    | inr hjoiner => rw [hneither.2] at hjoiner; cases hjoiner
  rw [List.append_assoc]
  constructor
  · exact hw
  · rw [List.drop_left]
    exact List.prefix_append w right
  · intro j v hv hoccurs hle hlength
    by_cases hlt : j < left.length
    · -- the last character before `w` would be in the identifier
      exfalso
      have hne : left.drop j ≠ [] := by
        apply List.ne_nil_of_length_pos
        rw [List.length_drop]
        omega
      rw [List.drop_append_of_le_length hle] at hoccurs
      have hback : left.drop j <+: v := by
        apply List.prefix_of_prefix_length_le (List.prefix_append _ _) hoccurs
        rw [List.length_drop]
        omega
      have hlast : left.getLast? = some ((left.drop j).getLast hne) := by
        rw [← List.getLast?_eq_some_getLast hne, List.getLast?_drop, if_neg (by omega)]
      exact hnone v _ hv (hback.subset (List.getLast_mem hne)) (h.left _ hlast)
    · have hplace : j = left.length := by omega
      rw [hplace, List.drop_left] at hoccurs
      have hfront : w <+: v := by
        apply List.prefix_of_prefix_length_le (List.prefix_append w right) hoccurs
        omega
      rcases hfront with ⟨z, rfl⟩
      constructor
      · exact hplace
      · cases z with
        | nil => exact List.append_nil w
        | cons c rest =>
            exfalso
            have hright := (List.prefix_append_right_inj w).mp hoccurs
            rcases hright with ⟨tail, rfl⟩
            exact hnone _ c hv (List.mem_append_right w List.mem_cons_self) (h.right c rfl)

theorem exists_extractExactTokens (text : Text) :
    exists occurrences : List (Nat × Text), (occurrences.Pairwise fun x y => x.1 < y.1) ∧
      (forall i w, (i, w) ∈ occurrences ↔ Maximal text i w) ∧
        extractExactTokens text = firsts id (occurrences.map fun o => lowerAscii o.2) := by
  rcases exists_occurrences (boundary_nil text) with ⟨occurrences, hsorted, hmem, hwords⟩
  refine ⟨occurrences, hsorted, ?_, ?_⟩
  · intro i w
    rw [hmem, List.nil_append]
    exact ⟨fun h => h.2, fun h => ⟨Nat.zero_le i, h⟩⟩
  · unfold extractExactTokens
    rw [eraseDups_eq_firsts, ← hwords, List.map_map]
    rfl

theorem mem_extractExactTokens {w left right : Text} (hw : Identifier w) (h : Apart left right) :
    lowerAscii w ∈ extractExactTokens (left ++ w ++ right) := by
  rcases exists_extractExactTokens (left ++ w ++ right) with ⟨occurrences, -, hmem, htokens⟩
  have hin := (hmem left.length w).mpr (maximal_of_apart hw h)
  have hkey := mem_keys_firsts.mpr (List.mem_map_of_mem (f := id)
    (List.mem_map_of_mem (f := fun o : Nat × Text => lowerAscii o.2) hin))
  rw [List.map_id] at hkey
  rw [htokens]
  exact hkey

/--
The exact tokens of a text are its maximal identifiers in lower case, without repetitions and
in the order of their first occurrence; and an identifier is among them in any two contexts
that do not prolong it, whatever the cases of its letters.
-/
theorem exact_tokens_identify :
    (forall text, (extractExactTokens text).Nodup ∧
      exists occurrences : List (Nat × Text), (occurrences.Pairwise fun x y => x.1 < y.1) ∧
        (forall i w, (i, w) ∈ occurrences ↔ Maximal text i w) ∧
          extractExactTokens text = firsts id (occurrences.map fun o => lowerAscii o.2)) ∧
    forall w w' left right left' right', Identifier w -> lowerAscii w' = lowerAscii w ->
      Apart left right -> Apart left' right' ->
        lowerAscii w ∈ extractExactTokens (left ++ w ++ right) ∧
          lowerAscii w ∈ extractExactTokens (left' ++ w' ++ right') := by
  constructor
  · intro text
    rcases exists_extractExactTokens text with ⟨occurrences, hsorted, hmem, htokens⟩
    constructor
    · have hnodup := nodup_keys_firsts id (occurrences.map fun o => lowerAscii o.2)
      rw [List.map_id] at hnodup
      rw [htokens]
      exact hnodup
    · exact ⟨occurrences, hsorted, hmem, htokens⟩
  · intro w w' left right left' right' hw hcase hleft hright
    constructor
    · exact mem_extractExactTokens hw hleft
    · rw [← hcase]
      exact mem_extractExactTokens (hw.of_lowerAscii hcase) hright

/-- An identifier in two contexts, with other cases of its letters in the second. -/
theorem exact_tokens_identify_sample :
    "ab-1".toList ∈ extractExactTokens ("(".toList ++ "AB-1".toList ++ " x".toList) ∧
      "ab-1".toList ∈ extractExactTokens ([] ++ "aB-1".toList ++ "号".toList) := by
  have hrun : forall w : Text, w ≠ [] -> w.all isAsciiAlnum = true -> Run w := by
    intro w hne hall
    exact ⟨hne, List.all_eq_true.mp hall⟩
  have hw : Identifier "AB-1".toList :=
    .joined (hrun "AB".toList (by decide) (by decide)) (by decide)
      (.run (hrun "1".toList (by decide) (by decide)))
  apply exact_tokens_identify.2 "AB-1".toList "aB-1".toList "(".toList " x".toList [] "号".toList
    hw (by decide)
  · constructor
    · intro c hc
      cases hc
      decide
    · intro c hc
      cases hc
      decide
  · constructor
    · intro c hc
      cases hc
    · intro c hc
      cases hc
      decide

end Identifiers
end RagService
