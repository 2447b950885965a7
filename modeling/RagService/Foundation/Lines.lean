import RagService.Foundation.Text

/-!
# Visible lines

The lines of a text that are more than white space.  Which break ended a line, and how many
blank lines stand between two of them, makes no difference.
-/

namespace RagService
namespace Text

def visibleLines (s : Text) : List Text :=
  (splitLines s).filter fun line => strip line ≠ []

theorem splitLines_splitOnP (s : Text) :
    (splitLines s = [] ∧ s.splitOnP isLineBreak = [[]]) ∨
      exists line lines pieces, splitLines s = line :: lines ∧
        s.splitOnP isLineBreak = line :: pieces ∧
        (lines.filter fun line => strip line ≠ []) = pieces.filter fun line => strip line ≠ [] := by
  fun_induction splitLines s with
  | case1 => exact .inl ⟨rfl, rfl⟩
  | case2 rest ih =>
      refine .inr ⟨[], splitLines rest, [] :: rest.splitOnP isLineBreak, rfl, ?_, ?_⟩
      · rw [List.splitOnP_cons_eq_if_modifyHead, if_pos (by decide),
          List.splitOnP_cons_eq_if_modifyHead, if_pos (by decide)]
      · rw [List.filter_cons_of_neg (by decide)]
        rcases ih with ⟨hlines, hpieces⟩ | ⟨line, lines, pieces, hlines, hpieces, hsame⟩
        · rw [hlines, hpieces]
          rfl
        · rw [hlines, hpieces, List.filter_cons, List.filter_cons, hsame]
  | case3 c rest _ hbreak ih =>
      refine .inr ⟨[], splitLines rest, rest.splitOnP isLineBreak, rfl, ?_, ?_⟩
      · rw [List.splitOnP_cons_eq_if_modifyHead, if_pos hbreak]
      · rcases ih with ⟨hlines, hpieces⟩ | ⟨line, lines, pieces, hlines, hpieces, hsame⟩
        · rw [hlines, hpieces]
          rfl
        · rw [hlines, hpieces, List.filter_cons, List.filter_cons, hsame]
  | case4 c rest _ hbreak ih =>
      rw [List.splitOnP_cons_eq_if_modifyHead, if_neg hbreak]
      rcases ih with ⟨hlines, hpieces⟩ | ⟨line, lines, pieces, hlines, hpieces, hsame⟩
      · refine .inr ⟨[c], [], [], ?_, ?_, rfl⟩
        · rw [hlines]
          rfl
        · rw [hpieces]
          rfl
      · refine .inr ⟨c :: line, lines, pieces, ?_, ?_, hsame⟩
        · rw [hlines]
          rfl
        · rw [hpieces]
          rfl

/-- On visible lines, `str.splitlines` splits at every break. -/
theorem visibleLines_eq (s : Text) :
    visibleLines s = (s.splitOnP isLineBreak).filter fun line => strip line ≠ [] := by
  unfold visibleLines
  rcases splitLines_splitOnP s with ⟨hlines, hpieces⟩ | ⟨line, lines, pieces, hlines, hpieces, hsame⟩
  · rw [hlines, hpieces]
    rfl
  · rw [hlines, hpieces, List.filter_cons, List.filter_cons, hsame]

theorem visibleLines_break (s t : Text) {c : Char} (hc : isLineBreak c = true) :
    visibleLines (s ++ c :: t) = visibleLines s ++ visibleLines t := by
  rw [visibleLines_eq, visibleLines_eq, visibleLines_eq, List.splitOnP_append_cons s t hc,
    List.filter_append]

theorem visibleLines_unbroken {s : Text} (hvisible : strip s ≠ [])
    (h : forall c, c ∈ s -> isLineBreak c = false) : visibleLines s = [s] := by
  rw [visibleLines_eq, List.splitOnP_eq_singleton h,
    List.filter_cons_of_pos (by simpa using hvisible), List.filter_nil]

theorem isLineBreak_of_not_isSpace {c : Char} (h : isSpace c = false) : isLineBreak c = false := by
  rw [Bool.eq_false_iff] at h ⊢
  exact fun hbreak => h (isSpace_of_isLineBreak hbreak)

theorem mem_splitOnP {s : Text} {c : Char} (hc : c ∈ s) (hbreak : isLineBreak c = false) :
    exists piece, piece ∈ s.splitOnP isLineBreak ∧ c ∈ piece := by
  induction s with
  | nil => cases hc
  | cons d rest ih =>
      rw [List.splitOnP_cons_eq_if_modifyHead]
      rcases List.exists_cons_of_ne_nil (List.splitOnP_ne_nil isLineBreak rest) with
        ⟨piece, pieces, hpieces⟩
      rw [hpieces, List.modifyHead_cons]
      rcases List.mem_cons.mp hc with rfl | hrest
      · rw [if_neg (by rw [hbreak]; decide)]
        exact ⟨c :: piece, List.mem_cons_self, List.mem_cons_self⟩
      · rcases ih hrest with ⟨found, hfound, hmem⟩
        rw [hpieces] at hfound
        split
        · exact ⟨found, List.mem_cons_of_mem _ hfound, hmem⟩
        · rcases List.mem_cons.mp hfound with rfl | htail
          · exact ⟨d :: found, List.mem_cons_self, List.mem_cons_of_mem _ hmem⟩
          · exact ⟨found, List.mem_cons_of_mem _ htail, hmem⟩

theorem visibleLines_ne_nil {s : Text} (h : strip s ≠ []) : visibleLines s ≠ [] := by
  rcases strip_ne_nil_iff.mp h with ⟨c, hc, hspace⟩
  rcases mem_splitOnP hc (isLineBreak_of_not_isSpace hspace) with ⟨piece, hmem, hcmem⟩
  rw [visibleLines_eq, ne_eq, List.filter_eq_nil_iff]
  intro hnone
  apply hnone piece hmem
  simpa using strip_ne_nil_iff.mpr ⟨c, hcmem, hspace⟩

end Text
end RagService
