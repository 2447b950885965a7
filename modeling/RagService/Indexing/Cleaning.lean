import RagService.Indexing.Sections

/-!
# Cleaning keeps the visible text

`clean_text` takes away control characters and white space only, and cleaning a cleaned
text changes nothing.
-/

namespace RagService

namespace Text

def visible (s : Text) : Text :=
  s.filter fun c => !isSpace c

@[simp] theorem visible_nil : visible [] = [] :=
  rfl

@[simp] theorem visible_append (s t : Text) : visible (s ++ t) = visible s ++ visible t := by
  unfold visible
  exact List.filter_append s t

theorem visible_cons_space {c : Char} (hc : isSpace c = true) (s : Text) :
    visible (c :: s) = visible s := by
  unfold visible
  rw [List.filter_cons_of_neg (by simp [hc])]

theorem visible_cons_congr (c : Char) {s t : Text} (h : visible s = visible t) :
    visible (c :: s) = visible (c :: t) := by
  unfold visible at h ⊢
  rw [List.filter_cons, List.filter_cons, h]

theorem visible_reverse (s : Text) : visible s.reverse = (visible s).reverse := by
  unfold visible
  exact List.filter_reverse

theorem visible_dropWhile (s : Text) : visible (s.dropWhile isSpace) = visible s := by
  induction s with
  | nil => rfl
  | cons c rest ih =>
      by_cases hc : isSpace c = true
      · rw [List.dropWhile_cons_of_pos hc, ih, visible_cons_space hc]
      · rw [List.dropWhile_cons_of_neg hc]

theorem visible_strip (s : Text) : visible (strip s) = visible s := by
  unfold strip
  rw [visible_reverse, visible_dropWhile, visible_reverse, List.reverse_reverse,
    visible_dropWhile]

theorem dropWhile_dropWhile {p : Char -> Bool} (s : Text) :
    (s.dropWhile p).dropWhile p = s.dropWhile p := by
  induction s with
  | nil => rfl
  | cons c rest ih =>
      by_cases hc : p c = true
      · rw [List.dropWhile_cons_of_pos hc, ih]
      · rw [List.dropWhile_cons_of_neg hc, List.dropWhile_cons_of_neg hc]

/-- A text that is not trimmed at its start or its end. -/
structure Trimmed (s : Text) : Prop where
  start : s.dropWhile isSpace = s
  finish : s.reverse.dropWhile isSpace = s.reverse

theorem Trimmed.strip_eq {s : Text} (h : Trimmed s) : strip s = s := by
  unfold strip
  rw [h.start, h.finish, List.reverse_reverse]

theorem dropWhile_of_isPrefix {p : Char -> Bool} {s t : Text} (h : s <+: t)
    (ht : t.dropWhile p = t) : s.dropWhile p = s := by
  cases s with
  | nil => rfl
  | cons c rest =>
      rcases h with ⟨tail, rfl⟩
      apply List.dropWhile_cons_of_neg
      intro hc
      rw [List.cons_append, List.dropWhile_cons_of_pos hc] at ht
      have hlength := congrArg List.length ht
      have hle := (List.dropWhile_sublist (l := rest ++ tail) p).length_le
      rw [List.length_cons] at hlength
      omega

theorem strip_trimmed (s : Text) : Trimmed (strip s) := by
  unfold strip
  constructor
  · apply dropWhile_of_isPrefix _ (dropWhile_dropWhile s)
    have hsuffix := List.dropWhile_suffix (l := (s.dropWhile isSpace).reverse) isSpace
    rw [← List.reverse_prefix, List.reverse_reverse] at hsuffix
    exact hsuffix
  · rw [List.reverse_reverse]
    exact dropWhile_dropWhile _

theorem strip_infix (s : Text) : strip s <:+: s := by
  unfold strip
  have hend := List.dropWhile_suffix (l := (s.dropWhile isSpace).reverse) isSpace
  rw [← List.reverse_prefix, List.reverse_reverse] at hend
  exact hend.isInfix.trans (List.dropWhile_suffix isSpace).isInfix

theorem visible_join_newline (lines : List Text) :
    visible (join ['\n'] lines) = lines.flatMap visible := by
  induction lines with
  | nil => rfl
  | cons line rest ih =>
      cases rest with
      | nil => simp [join]
      | cons next rest =>
          rw [join, List.flatMap_cons, visible_append, visible_append,
            visible_cons_space (by decide), visible_nil, List.append_nil, ih]

end Text

namespace Chunking

open Text

/-!
# The visible text

White space and control characters are all that goes, so the visible text is the same.
-/

def NoControl (text : Text) : Prop :=
  forall c, c ∈ text -> isControl c = false

theorem visible_normalizeNewlines (text : Text) :
    visible (normalizeNewlines text) = visible text := by
  fun_induction normalizeNewlines text with
  | case1 => rfl
  | case2 rest ih =>
      rw [visible_cons_space (by decide), ih, visible_cons_space (by decide),
        visible_cons_space (by decide)]
  | case3 c rest _ ih =>
      by_cases hc : c = '\r'
      · rw [if_pos hc, hc, visible_cons_space (by decide), ih, visible_cons_space (by decide)]
      · rw [if_neg hc]
        exact visible_cons_congr c ih

theorem visible_collapseNewlines (run : Nat) (text : Text) :
    visible (collapseNewlines run text) = visible text := by
  fun_induction collapseNewlines run text with
  | case1 => rfl
  | case2 run rest hrun ih => exact visible_cons_congr '\n' ih
  | case3 run rest hrun ih => rw [ih, visible_cons_space (by decide)]
  | case4 run c rest hc ih => exact visible_cons_congr c ih

theorem filter_noControl {text : Text} (h : NoControl text) :
    (text.filter fun c => !isControl c) = text := by
  apply List.filter_eq_self.mpr
  intro c hc
  rw [h c hc]
  rfl

theorem visible_cleanText {text : Text} (h : NoControl text) :
    visible (cleanText text) = visible text := by
  unfold cleanText
  rw [visible_strip, visible_collapseNewlines, visible_normalizeNewlines, filter_noControl h]

/-!
# Cleaned texts

A cleaned text is trimmed, has no control characters and at most two newlines in a row;
cleaning leaves such a text as it is.  Once two newlines have been kept, the run may be any
longer, and fewer newlines before a text leave as much room for its own.
-/

theorem normalizeNewlines_no_return (text : Text) : '\r' ∉ normalizeNewlines text := by
  fun_induction normalizeNewlines text with
  | case1 => exact List.not_mem_nil
  | case2 rest ih =>
      apply List.not_mem_cons_of_ne_of_not_mem _ ih
      decide
  | case3 c rest _ ih =>
      apply List.not_mem_cons_of_ne_of_not_mem _ ih
      by_cases hc : c = '\r'
      · rw [if_pos hc]
        decide
      · rw [if_neg hc]
        exact fun h => hc h.symm

theorem normalizeNewlines_eq_self {text : Text} (h : '\r' ∉ text) :
    normalizeNewlines text = text := by
  fun_induction normalizeNewlines text with
  | case1 => rfl
  | case2 rest ih => exact absurd List.mem_cons_self h
  | case3 c rest _ ih =>
      have hc : c ≠ '\r' := fun hc => h (hc ▸ List.mem_cons_self)
      rw [if_neg hc, ih fun hrest => h (List.mem_cons_of_mem c hrest)]

theorem mem_normalizeNewlines_cases {text : Text} {c : Char} (hc : c ∈ normalizeNewlines text) :
    c ∈ text ∨ c = '\n' := by
  fun_induction normalizeNewlines text with
  | case1 => exact .inl hc
  | case2 rest ih =>
      cases hc with
      | head => exact .inr rfl
      | tail _ hc =>
          cases ih hc with
          | inl hrest => exact .inl (List.mem_cons_of_mem _ (List.mem_cons_of_mem _ hrest))
          | inr heq => exact .inr heq
  | case3 d rest _ ih =>
      cases List.mem_cons.mp hc with
      | inl heq =>
          by_cases hd : d = '\r'
          · rw [if_pos hd] at heq
            exact .inr heq
          · rw [if_neg hd] at heq
            exact .inl (heq ▸ List.mem_cons_self)
      | inr hc =>
          cases ih hc with
          | inl hrest => exact .inl (List.mem_cons_of_mem _ hrest)
          | inr heq => exact .inr heq

theorem length_collapseNewlines_le (run : Nat) (text : Text) :
    (collapseNewlines run text).length ≤ text.length := by
  fun_induction collapseNewlines run text with
  | case1 => exact Nat.le_refl _
  | case2 run rest hrun ih => exact Nat.succ_le_succ ih
  | case3 run rest hrun ih => exact Nat.le_succ_of_le ih
  | case4 run c rest hc ih => exact Nat.succ_le_succ ih

theorem collapseNewlines_full {run run' : Nat} (h : 2 ≤ run) (h' : 2 ≤ run') (text : Text) :
    collapseNewlines run text = collapseNewlines run' text := by
  induction text generalizing run run' with
  | nil => rfl
  | cons c rest ih =>
      unfold collapseNewlines
      by_cases hc : c = '\n'
      · rw [if_pos hc, if_pos hc, if_neg (Nat.not_lt.mpr h), if_neg (Nat.not_lt.mpr h')]
        exact ih (Nat.le_succ_of_le h) (Nat.le_succ_of_le h')
      · rw [if_neg hc, if_neg hc]

theorem collapseNewlines_collapseNewlines (run : Nat) (text : Text) :
    collapseNewlines run (collapseNewlines run text) = collapseNewlines run text := by
  fun_induction collapseNewlines run text with
  | case1 => rfl
  | case2 run rest hrun ih =>
      rw [collapseNewlines, if_pos rfl, if_pos hrun, ih]
  | case3 run rest hrun ih =>
      rw [collapseNewlines_full (Nat.not_lt.mp hrun) (Nat.le_succ_of_le (Nat.not_lt.mp hrun)), ih]
  | case4 run c rest hc ih =>
      rw [collapseNewlines, if_neg hc, ih]

theorem collapseNewlines_mono {run run' : Nat} {text : Text} (hle : run' ≤ run)
    (h : collapseNewlines run text = text) : collapseNewlines run' text = text := by
  induction text generalizing run run' with
  | nil => rfl
  | cons c rest ih =>
      unfold collapseNewlines at h ⊢
      by_cases hc : c = '\n'
      · rw [if_pos hc] at h ⊢
        by_cases hrun : run < 2
        · rw [if_pos hrun] at h
          rw [if_pos (Nat.lt_of_le_of_lt hle hrun),
            ih (Nat.succ_le_succ hle) (List.cons.inj h).2]
        · rw [if_neg hrun] at h
          have hlength := length_collapseNewlines_le (run + 1) rest
          rw [h, List.length_cons] at hlength
          omega
      · rw [if_neg hc] at h ⊢
        exact h

theorem collapseNewlines_of_isSuffix {run : Nat} {s t : Text} (hst : s <:+ t)
    (h : collapseNewlines run t = t) : collapseNewlines 0 s = s := by
  induction t generalizing run with
  | nil =>
      rw [List.suffix_nil.mp hst]
      rfl
  | cons c rest ih =>
      rcases List.suffix_cons_iff.mp hst with rfl | hrest
      · exact collapseNewlines_mono (Nat.zero_le _) h
      · unfold collapseNewlines at h
        by_cases hc : c = '\n'
        · rw [if_pos hc] at h
          by_cases hrun : run < 2
          · rw [if_pos hrun] at h
            exact ih hrest (List.cons.inj h).2
          · rw [if_neg hrun] at h
            have hlength := length_collapseNewlines_le (run + 1) rest
            rw [h, List.length_cons] at hlength
            omega
        · rw [if_neg hc] at h
          exact ih hrest (List.cons.inj h).2

theorem collapseNewlines_of_isPrefix {run : Nat} {s t : Text} (hst : s <+: t)
    (h : collapseNewlines run t = t) : collapseNewlines run s = s := by
  induction t generalizing run s with
  | nil =>
      rw [List.prefix_nil.mp hst]
      rfl
  | cons c rest ih =>
      cases s with
      | nil => rfl
      | cons d front =>
          rcases List.cons_prefix_cons.mp hst with ⟨rfl, hfront⟩
          unfold collapseNewlines at h ⊢
          by_cases hc : d = '\n'
          · rw [if_pos hc] at h ⊢
            by_cases hrun : run < 2
            · rw [if_pos hrun] at h ⊢
              rw [ih hfront (List.cons.inj h).2]
            · rw [if_neg hrun] at h
              have hlength := length_collapseNewlines_le (run + 1) rest
              rw [h, List.length_cons] at hlength
              omega
          · rw [if_neg hc] at h ⊢
            rw [ih hfront (List.cons.inj h).2]

structure Clean (text : Text) : Prop where
  noControl : NoControl text
  noReturn : '\r' ∉ text
  collapsed : collapseNewlines 0 text = text
  trimmed : Trimmed text

theorem cleanText_clean (text : Text) : Clean (cleanText text) := by
  have hinside := strip_infix
    (collapseNewlines 0 (normalizeNewlines (text.filter fun c => !isControl c)))
  constructor
  · intro c hc
    have hmem := mem_of_mem_collapseNewlines (hinside.subset hc)
    cases mem_normalizeNewlines_cases hmem with
    | inl hmem => simpa using (List.mem_filter.mp hmem).2
    | inr heq =>
        rw [heq]
        decide
  · intro hmem
    exact normalizeNewlines_no_return _ (mem_of_mem_collapseNewlines (hinside.subset hmem))
  · rcases hinside with ⟨before, after, happend⟩
    have hstable := collapseNewlines_collapseNewlines 0
      (normalizeNewlines (text.filter fun c => !isControl c))
    have hsuffix : cleanText text ++ after <:+
        collapseNewlines 0 (normalizeNewlines (text.filter fun c => !isControl c)) := by
      rw [← happend, List.append_assoc]
      exact List.suffix_append before _
    apply collapseNewlines_of_isPrefix (List.prefix_append (cleanText text) after)
    exact collapseNewlines_of_isSuffix hsuffix hstable
  · exact strip_trimmed _

theorem Clean.cleanText_eq {text : Text} (h : Clean text) : cleanText text = text := by
  unfold cleanText
  rw [filter_noControl h.noControl, normalizeNewlines_eq_self h.noReturn, h.collapsed,
    h.trimmed.strip_eq]

end Chunking
end RagService
