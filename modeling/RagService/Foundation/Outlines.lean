import Mathlib.Data.Finset.Card
import Mathlib.Order.Interval.Finset.Nat

/-!
# Outlines

The headings of a document have levels from one on.  A heading closes the open headings that
are not shallower than itself; the titles that stay open, and its own, are its path.
-/

namespace RagService
namespace Outlines

variable {α : Type}

/-- Open a heading on the stack of the open ones, of which the last opened comes first. -/
def push (stack : List (Nat × α)) (heading : Nat × α) : List (Nat × α) :=
  heading :: stack.dropWhile fun entry => heading.1 ≤ entry.1

def path (stack : List (Nat × α)) : List α :=
  (stack.map Prod.snd).reverse

def Nested (stack : List (Nat × α)) : Prop :=
  stack.Pairwise fun entry below => below.1 < entry.1

/-- A heading of the level that no later heading has closed. -/
def IsOpen (headings : List (Nat × α)) (level : Nat) : Prop :=
  exists before title after, headings = before ++ (level, title) :: after ∧
    forall heading, heading ∈ after -> level < heading.1

/--
The heading is the first one, or deeper than the one before it, or all the levels above its
own are open.
-/
def Descends (before : List (Nat × α)) (heading : Nat × α) : Prop :=
  (forall last, before.getLast? = some last -> last.1 < heading.1) ∨
    forall level, 1 ≤ level -> level < heading.1 -> IsOpen before level

variable {stack : List (Nat × α)} {heading entry : Nat × α}

/-!
# The stack of the open headings

The stack holds the headings that no later one has closed, the deepest of them last.
-/

theorem Nested.nil : Nested ([] : List (Nat × α)) :=
  List.Pairwise.nil

theorem mem_dropWhile_iff (h : Nested stack) (level : Nat) :
    entry ∈ stack.dropWhile (fun entry => level ≤ entry.1) ↔ entry ∈ stack ∧ entry.1 < level := by
  induction stack with
  | nil => simp
  | cons top rest ih =>
      have hrest : Nested rest := List.Pairwise.of_cons h
      have hbelow : forall below, below ∈ rest -> below.1 < top.1 :=
        fun below hin => List.rel_of_pairwise_cons h hin
      rw [List.dropWhile_cons]
      split
      · rename_i hclosed
        have hclosed : level ≤ top.1 := of_decide_eq_true hclosed
        rw [ih hrest, List.mem_cons]
        constructor
        · intro hmem
          exact ⟨.inr hmem.1, hmem.2⟩
        · intro hmem
          cases hmem.1 with
          | inl heq =>
              have hlt := hmem.2
              rw [heq] at hlt
              omega
          | inr hin => exact ⟨hin, hmem.2⟩
      · rename_i hopen
        have hopen : ¬ level ≤ top.1 := fun hle => hopen (decide_eq_true hle)
        constructor
        · intro hmem
          cases List.mem_cons.mp hmem with
          | inl heq =>
              rw [heq]
              exact ⟨List.mem_cons_self, by omega⟩
          | inr hin =>
              have hlt := hbelow entry hin
              exact ⟨hmem, by omega⟩
        · exact fun hmem => hmem.1

theorem Nested.push (h : Nested stack) (heading : Nat × α) : Nested (push stack heading) := by
  apply List.Pairwise.cons
  · intro entry hentry
    exact ((mem_dropWhile_iff h heading.1).mp hentry).2
  · exact h.sublist (List.dropWhile_sublist _)

theorem mem_push (h : Nested stack) :
    entry ∈ push stack heading ↔ entry = heading ∨ entry ∈ stack ∧ entry.1 < heading.1 := by
  unfold Outlines.push
  rw [List.mem_cons, mem_dropWhile_iff h]

def openAfter (headings : List (Nat × α)) : List (Nat × α) :=
  headings.foldl push []

@[simp] theorem openAfter_nil : openAfter ([] : List (Nat × α)) = [] :=
  rfl

theorem openAfter_concat (headings : List (Nat × α)) (heading : Nat × α) :
    openAfter (headings ++ [heading]) = push (openAfter headings) heading := by
  unfold openAfter
  rw [List.foldl_append]
  rfl

theorem nested_openAfter (headings : List (Nat × α)) : Nested (openAfter headings) := by
  induction headings using List.reverseRecOn with
  | nil => exact .nil
  | append_singleton before heading ih =>
      rw [openAfter_concat]
      exact ih.push heading

theorem mem_openAfter (headings : List (Nat × α)) :
    entry ∈ openAfter headings ↔
      exists before after, headings = before ++ entry :: after ∧
        forall heading, heading ∈ after -> entry.1 < heading.1 := by
  induction headings using List.reverseRecOn with
  | nil => simp
  | append_singleton front last ih =>
      rw [openAfter_concat, mem_push (nested_openAfter front), ih]
      constructor
      · intro h
        cases h with
        | inl heq => exact ⟨front, [], by rw [heq], fun _ h => absurd h List.not_mem_nil⟩
        | inr hkept =>
            rcases hkept with ⟨⟨before, after, hfront, hdeeper⟩, hlt⟩
            refine ⟨before, after ++ [last], by rw [hfront]; simp, ?_⟩
            intro heading hheading
            cases List.mem_append.mp hheading with
            | inl hin => exact hdeeper heading hin
            | inr hin =>
                rw [List.mem_singleton.mp hin]
                exact hlt
      · intro h
        rcases h with ⟨before, after, happend, hdeeper⟩
        cases after using List.reverseRecOn with
        | nil =>
            exact .inl (List.cons.inj (List.append_inj' happend rfl).2).1.symm
        | append_singleton middle final =>
            rw [← List.cons_append, ← List.append_assoc] at happend
            have hparts := List.append_inj' happend rfl
            have hfinal : last = final := (List.cons.inj hparts.2).1
            apply Or.inr
            constructor
            · refine ⟨before, middle, hparts.1, ?_⟩
              intro heading hheading
              exact hdeeper heading (List.mem_append_left _ hheading)
            · rw [hfinal]
              exact hdeeper final (List.mem_append_right _ List.mem_cons_self)

theorem isOpen_iff (headings : List (Nat × α)) (level : Nat) :
    IsOpen headings level ↔ level ∈ (openAfter headings).map Prod.fst := by
  rw [List.mem_map]
  constructor
  · intro h
    rcases h with ⟨before, title, after, hheadings, hdeeper⟩
    exact ⟨(level, title), (mem_openAfter headings).mpr ⟨before, after, hheadings, hdeeper⟩, rfl⟩
  · intro h
    rcases h with ⟨⟨openLevel, title⟩, hentry, rfl⟩
    rcases (mem_openAfter headings).mp hentry with ⟨before, after, hheadings, hdeeper⟩
    exact ⟨before, title, after, hheadings, hdeeper⟩

theorem forall_openAfter_lt_iff (headings : List (Nat × α)) (level : Nat) :
    (forall entry, entry ∈ openAfter headings -> entry.1 < level) ↔
      forall last, headings.getLast? = some last -> last.1 < level := by
  induction headings using List.reverseRecOn with
  | nil => simp
  | append_singleton front last _ =>
      rw [openAfter_concat, List.getLast?_concat]
      constructor
      · intro h final hfinal
        rw [← Option.some.inj hfinal]
        exact h last ((mem_push (nested_openAfter front)).mpr (.inl rfl))
      · intro h entry hentry
        have hlast := h last rfl
        cases (mem_push (nested_openAfter front)).mp hentry with
        | inl heq =>
            rw [heq]
            exact hlast
        | inr hkept => exact Nat.lt_trans hkept.2 hlast

/-!
# Cutting a path by the number of its titles

Nested headings above a level are fewer than it, unless all the levels above it are there.  So
keeping one title for each level above a heading keeps its open ones, as long as none is closed
or none of the levels is missing.
-/

theorem path_append (top rest : List (Nat × α)) : path (top ++ rest) = path rest ++ path top := by
  unfold path
  rw [List.map_append, List.reverse_append]

theorem length_path (stack : List (Nat × α)) : (path stack).length = stack.length := by
  unfold path
  rw [List.length_reverse, List.length_map]

theorem take_append_eq_left_iff {β : Type} (n : Nat) (front back : List β) :
    (front ++ back).take n = front ↔ min n (front.length + back.length) = front.length := by
  constructor
  · intro h
    have hlength := congrArg List.length h
    rw [List.length_take, List.length_append] at hlength
    exact hlength
  · intro h
    apply List.IsPrefix.eq_of_length
    · apply List.prefix_of_prefix_length_le (List.take_prefix n _) (List.prefix_append front back)
      rw [List.length_take, List.length_append, h]
    · rw [List.length_take, List.length_append, h]

theorem length_of_nested (h : Nested stack) {level : Nat}
    (hlevels : forall entry, entry ∈ stack -> 1 ≤ entry.1 ∧ entry.1 < level) :
    stack.length ≤ level - 1 ∧
      (stack.length = level - 1 ↔ forall l, 1 ≤ l -> l < level -> l ∈ stack.map Prod.fst) := by
  have hnodup : (stack.map Prod.fst).Nodup := by
    rw [List.nodup_iff_pairwise_ne, List.pairwise_map]
    exact h.imp fun hlt => (Nat.ne_of_lt hlt).symm
  have hcard := List.toFinset_card_of_nodup hnodup
  rw [List.length_map] at hcard
  have hsub : (stack.map Prod.fst).toFinset ⊆ Finset.Ico 1 level := by
    intro l hl
    rcases List.mem_map.mp (List.mem_toFinset.mp hl) with ⟨entry, hentry, rfl⟩
    exact Finset.mem_Ico.mpr (hlevels entry hentry)
  have hle := Finset.card_le_card hsub
  rw [hcard, Nat.card_Ico] at hle
  constructor
  · exact hle
  · constructor
    · intro hlength l hl hlt
      have heq := Finset.eq_of_subset_of_card_le hsub (by rw [hcard, Nat.card_Ico, hlength])
      exact List.mem_toFinset.mp (heq ▸ Finset.mem_Ico.mpr ⟨hl, hlt⟩)
    · intro hall
      have hsup : Finset.Ico 1 level ⊆ (stack.map Prod.fst).toFinset := by
        intro l hl
        have hl := Finset.mem_Ico.mp hl
        exact List.mem_toFinset.mpr (hall l hl.1 hl.2)
      have hge := Finset.card_le_card hsup
      rw [hcard, Nat.card_Ico] at hge
      omega

/--
Keeping one title for each level above a heading keeps its open ones, as long as none is
closed or none of the levels is missing.
-/
theorem take_path_iff (h : Nested stack) (hpositive : forall entry, entry ∈ stack -> 1 ≤ entry.1)
    (heading : Nat × α) :
    (path stack).take (heading.1 - 1) ++ [heading.2] = path (push stack heading) ↔
      (forall entry, entry ∈ stack -> entry.1 < heading.1) ∨
        forall level, 1 ≤ level -> level < heading.1 -> level ∈ stack.map Prod.fst := by
  let closed := fun entry : Nat × α => decide (heading.1 ≤ entry.1)
  have hsplit : stack.takeWhile closed ++ stack.dropWhile closed = stack :=
    List.takeWhile_append_dropWhile
  have hrest : Nested (stack.dropWhile closed) := h.sublist (List.dropWhile_sublist _)
  have hmem : forall entry, entry ∈ stack.dropWhile closed ↔
      entry ∈ stack ∧ entry.1 < heading.1 := fun entry => mem_dropWhile_iff h heading.1
  have hlevels : forall entry, entry ∈ stack.dropWhile closed ->
      1 ≤ entry.1 ∧ entry.1 < heading.1 := by
    intro entry hentry
    have hin := (hmem entry).mp hentry
    exact ⟨hpositive entry hin.1, hin.2⟩
  have hlength := length_of_nested hrest hlevels
  have hpush : path (push stack heading) = path (stack.dropWhile closed) ++ [heading.2] := by
    unfold path push
    rw [List.map_cons, List.reverse_cons]
  have hpath : path stack = path (stack.dropWhile closed) ++ path (stack.takeWhile closed) := by
    rw [← path_append, hsplit]
  have hnone : (stack.takeWhile closed).length = 0 ↔
      forall entry, entry ∈ stack -> entry.1 < heading.1 := by
    rw [List.length_eq_zero_iff]
    constructor
    · intro hnil entry hentry
      rw [hnil, List.nil_append] at hsplit
      rw [← hsplit] at hentry
      exact ((hmem entry).mp hentry).2
    · intro hall
      cases stack with
      | nil => rfl
      | cons top rest =>
          apply List.takeWhile_cons_of_neg
          have hlt := hall top List.mem_cons_self
          simp only [closed, decide_eq_true_eq]
          omega
  have hlevels : (forall level, 1 ≤ level -> level < heading.1 ->
        level ∈ (stack.dropWhile closed).map Prod.fst) ↔
      forall level, 1 ≤ level -> level < heading.1 -> level ∈ stack.map Prod.fst := by
    constructor
    · intro hall level hone hlt
      exact ((List.dropWhile_sublist _).map Prod.fst).subset (hall level hone hlt)
    · intro hall level hone hlt
      rcases List.mem_map.mp (hall level hone hlt) with ⟨entry, hentry, heq⟩
      exact List.mem_map.mpr ⟨entry, (hmem entry).mpr ⟨hentry, heq ▸ hlt⟩, heq⟩
  rw [hpush, List.append_cancel_right_eq, hpath, take_append_eq_left_iff, length_path, length_path,
    ← hnone, ← hlevels, ← hlength.2]
  have hle := hlength.1
  omega

theorem take_path_openAfter {before : List (Nat × α)}
    (hpositive : forall heading, heading ∈ before -> 1 ≤ heading.1) (heading : Nat × α) :
    (path (openAfter before)).take (heading.1 - 1) ++ [heading.2] =
        path (openAfter (before ++ [heading])) ↔ Descends before heading := by
  have hlevels : forall entry, entry ∈ openAfter before -> 1 ≤ entry.1 := by
    intro entry hentry
    rcases (mem_openAfter before).mp hentry with ⟨front, after, hbefore, -⟩
    apply hpositive
    rw [hbefore]
    exact List.mem_append_right _ List.mem_cons_self
  rw [openAfter_concat, take_path_iff (nested_openAfter before) hlevels, forall_openAfter_lt_iff]
  unfold Descends
  simp only [isOpen_iff]

/-!
# Siblings

Headings of one level, with none above it between them, have the same parent.
-/

theorem dropWhile_dropWhile_of_imp {β : Type} {p q : β -> Bool}
    (h : forall x, q x = true -> p x = true) (xs : List β) :
    (xs.dropWhile q).dropWhile p = xs.dropWhile p := by
  induction xs with
  | nil => rfl
  | cons x rest ih =>
      rw [List.dropWhile_cons (p := q)]
      split
      · rename_i hq
        rw [ih, List.dropWhile_cons_of_pos (h x hq)]
      · rfl

theorem dropWhile_foldl_push {level : Nat} {between : List (Nat × α)}
    (h : forall heading, heading ∈ between -> level ≤ heading.1) (stack : List (Nat × α)) :
    (between.foldl push stack).dropWhile (fun entry => level ≤ entry.1) =
      stack.dropWhile fun entry => level ≤ entry.1 := by
  induction between generalizing stack with
  | nil => rfl
  | cons heading rest ih =>
      have hle := h heading List.mem_cons_self
      rw [List.foldl_cons, ih fun later hlater => h later (List.mem_cons_of_mem _ hlater)]
      unfold push
      rw [List.dropWhile_cons, if_pos (decide_eq_true hle)]
      apply dropWhile_dropWhile_of_imp
      intro entry hentry
      have hentry : heading.1 ≤ entry.1 := of_decide_eq_true hentry
      exact decide_eq_true (Nat.le_trans hle hentry)

theorem path_sibling (before : List (Nat × α)) {between : List (Nat × α)} (first second : Nat × α)
    (hlevel : first.1 = second.1)
    (hbetween : forall heading, heading ∈ between -> first.1 ≤ heading.1) :
    exists parent, path (openAfter (before ++ [first])) = parent ++ [first.2] ∧
      path (openAfter (before ++ first :: between ++ [second])) = parent ++ [second.2] := by
  have hall : forall heading, heading ∈ first :: between -> second.1 ≤ heading.1 := by
    intro heading hheading
    rw [← hlevel]
    cases List.mem_cons.mp hheading with
    | inl heq => rw [heq]
    | inr hin => exact hbetween heading hin
  have hsame : (openAfter (before ++ first :: between)).dropWhile (fun entry => second.1 ≤ entry.1) =
      (openAfter before).dropWhile fun entry => first.1 ≤ entry.1 := by
    unfold openAfter
    rw [List.foldl_append, dropWhile_foldl_push hall, hlevel]
  exists path ((openAfter before).dropWhile fun entry => first.1 ≤ entry.1)
  constructor
  · rw [openAfter_concat]
    unfold push path
    rw [List.map_cons, List.reverse_cons]
  · rw [openAfter_concat]
    unfold push
    rw [hsame]
    unfold path
    rw [List.map_cons, List.reverse_cons]

end Outlines
end RagService
