import RagService.Indexing.Chunking

/-!
# Every section has a retrieval chunk

A cleaned section that is not empty keeps a visible character through cleaning,
paragraph splitting and windowing, so with a positive chunk size `split_text`
cuts at least one chunk from it.
-/

namespace RagService
namespace Chunking

open Text

def Visible (c : Char) : Prop :=
  isSpace c = false ∧ isControl c = false

/-!
# Cleaning

A cleaned text that is not empty has a visible character.
-/

theorem ne_newline_of_visible {c : Char} (h : isSpace c = false) : c ≠ '\n' := by
  intro heq
  subst heq
  exact absurd h (by decide)

theorem ne_return_of_visible {c : Char} (h : isSpace c = false) : c ≠ '\r' := by
  intro heq
  subst heq
  exact absurd h (by decide)

theorem mem_normalizeNewlines {text : Text} {c : Char} (hc : c ∈ text)
    (hspace : isSpace c = false) : c ∈ normalizeNewlines text := by
  fun_induction normalizeNewlines text with
  | case1 => exact hc
  | case2 rest ih =>
      rcases List.mem_cons.mp hc with rfl | hc
      · exact absurd rfl (ne_return_of_visible hspace)
      · rcases List.mem_cons.mp hc with rfl | hc
        · exact absurd rfl (ne_newline_of_visible hspace)
        · exact List.mem_cons_of_mem _ (ih hc)
  | case3 d rest _ ih =>
      rcases List.mem_cons.mp hc with rfl | hc
      · rw [if_neg (ne_return_of_visible hspace)]
        exact List.mem_cons_self
      · exact List.mem_cons_of_mem _ (ih hc)

theorem mem_collapseNewlines {text : Text} {c : Char} {run : Nat} (hc : c ∈ text)
    (hspace : isSpace c = false) : c ∈ collapseNewlines run text := by
  fun_induction collapseNewlines run text with
  | case1 => exact hc
  | case2 run rest hrun ih =>
      rcases List.mem_cons.mp hc with rfl | hc
      · exact List.mem_cons_self
      · exact List.mem_cons_of_mem _ (ih hc)
  | case3 run rest hrun ih =>
      rcases List.mem_cons.mp hc with rfl | hc
      · exact absurd rfl (ne_newline_of_visible hspace)
      · exact ih hc
  | case4 run d rest hd ih =>
      rcases List.mem_cons.mp hc with rfl | hc
      · exact List.mem_cons_self
      · exact List.mem_cons_of_mem _ (ih hc)

theorem mem_cleanText {text : Text} {c : Char} (hc : c ∈ text) (hv : Visible c) :
    c ∈ cleanText text := by
  unfold cleanText
  refine mem_strip (mem_collapseNewlines (mem_normalizeNewlines ?_ hv.1) hv.1) hv.1
  exact List.mem_filter.mpr ⟨hc, by rw [hv.2]; rfl⟩

theorem mem_of_mem_collapseNewlines {text : Text} {c : Char} {run : Nat}
    (hc : c ∈ collapseNewlines run text) : c ∈ text := by
  fun_induction collapseNewlines run text with
  | case1 => exact hc
  | case2 run rest hrun ih =>
      rcases List.mem_cons.mp hc with rfl | hc
      · exact List.mem_cons_self
      · exact List.mem_cons_of_mem _ (ih hc)
  | case3 run rest hrun ih => exact List.mem_cons_of_mem _ (ih hc)
  | case4 run d rest hd ih =>
      rcases List.mem_cons.mp hc with rfl | hc
      · exact List.mem_cons_self
      · exact List.mem_cons_of_mem _ (ih hc)

theorem mem_of_mem_normalizeNewlines {text : Text} {c : Char}
    (hc : c ∈ normalizeNewlines text) (hspace : isSpace c = false) : c ∈ text := by
  fun_induction normalizeNewlines text with
  | case1 => exact hc
  | case2 rest ih =>
      rcases List.mem_cons.mp hc with rfl | hc
      · exact absurd rfl (ne_newline_of_visible hspace)
      · exact List.mem_cons_of_mem _ (List.mem_cons_of_mem _ (ih hc))
  | case3 d rest _ ih =>
      rcases List.mem_cons.mp hc with heq | hc
      · by_cases hd : d = '\r'
        · rw [if_pos hd] at heq
          exact absurd heq (ne_newline_of_visible hspace)
        · rw [if_neg hd] at heq
          exact List.mem_cons.mpr (.inl heq)
      · exact List.mem_cons_of_mem _ (ih hc)

theorem exists_visible_cleanText {text : Text} (h : cleanText text ≠ []) :
    exists c, c ∈ cleanText text ∧ Visible c := by
  rcases exists_visible_of_strip_ne_nil h with ⟨c, hc, hspace⟩
  refine ⟨c, hc, hspace, ?_⟩
  have hmem := mem_of_mem_normalizeNewlines
    (mem_of_mem_collapseNewlines (mem_of_mem_strip hc)) hspace
  simpa using (List.mem_filter.mp hmem).2

/-!
# Paragraphs

Splitting at blank lines loses no visible character.
-/

theorem mem_consPiece {c d : Char} {pieces : List Text}
    (h : c = d ∨ exists p, p ∈ pieces ∧ c ∈ p) :
    exists p, p ∈ consPiece d pieces ∧ c ∈ p := by
  cases pieces with
  | nil =>
      rcases h with rfl | ⟨p, hp, -⟩
      · exact ⟨[c], by simp [consPiece], by simp⟩
      · cases hp
  | cons q qs =>
      rcases h with rfl | ⟨p, hp, hc⟩
      · exact ⟨c :: q, by simp [consPiece], by simp⟩
      · rcases List.mem_cons.mp hp with rfl | hp
        · exact ⟨d :: p, by simp [consPiece], by simp [hc]⟩
        · exact ⟨p, by simp [consPiece, hp], hc⟩

theorem mem_splitBlankLines (inRun : Bool) {text : Text} {c : Char} (hc : c ∈ text)
    (hspace : isSpace c = false) : exists p, p ∈ splitBlankLines inRun text ∧ c ∈ p := by
  fun_induction splitBlankLines inRun text with
  | case1 => cases hc
  | case2 rest ih =>
      rcases List.mem_cons.mp hc with rfl | hc
      · exact absurd rfl (ne_newline_of_visible hspace)
      · exact ih hc
  | case3 d rest hd ih =>
      rcases List.mem_cons.mp hc with rfl | hc
      · exact mem_consPiece (.inl rfl)
      · exact mem_consPiece (.inr (ih hc))
  | case4 d rest hd ih =>
      rcases List.mem_cons.mp hc with rfl | hc
      · exact absurd hd.1 (ne_newline_of_visible hspace)
      · rcases ih hc with ⟨p, hp, hcp⟩
        exact ⟨p, List.mem_cons_of_mem _ hp, hcp⟩
  | case5 d rest hd ih =>
      rcases List.mem_cons.mp hc with rfl | hc
      · exact mem_consPiece (.inl rfl)
      · exact mem_consPiece (.inr (ih hc))

theorem paragraphs_ne_nil {content : Text} {c : Char} (hc : c ∈ content)
    (hspace : isSpace c = false) : paragraphs content ≠ [] := by
  rcases mem_splitBlankLines false hc hspace with ⟨p, hp, hcp⟩
  refine List.ne_nil_of_mem (a := strip p) (List.mem_filter.mpr ⟨List.mem_map_of_mem hp, ?_⟩)
  have hne := List.ne_nil_of_mem (mem_strip hcp hspace)
  simpa using hne

theorem exists_visible_paragraph {content p : Text} (hp : p ∈ paragraphs content) :
    exists c, c ∈ p ∧ isSpace c = false := by
  rcases List.mem_filter.mp hp with ⟨hmap, hne⟩
  rcases List.mem_map.mp hmap with ⟨q, -, rfl⟩
  exact exists_visible_of_strip_ne_nil (by simpa using hne)

/-!
# Chunks

The windows of a paragraph leave no character out if the step is at most the size, so a turn of
the loop leaves the paragraph in one of the chunks.
-/

theorem mem_windows (size step : Nat) {paragraph : Text} {c : Char} (hc : c ∈ paragraph)
    (hstep : 0 < step) (hsize : step ≤ size) :
    exists w, w ∈ windows size step paragraph ∧ c ∈ w := by
  rcases List.getElem_of_mem hc with ⟨k, hk, hget⟩
  have hdiv := Nat.div_mul_le_self k step
  have hmod := Nat.mod_lt k hstep
  have heq := Nat.div_add_mod' k step
  refine ⟨slice paragraph (k / step * step) size, ?_, ?_⟩
  · refine List.mem_map.mpr ⟨k / step, List.mem_range.mpr ?_, rfl⟩
    rw [Nat.div_lt_iff_lt_mul hstep]
    have hceil := Nat.lt_div_mul_add (a := paragraph.length + step - 1) hstep
    omega
  · have hlen : k - k / step * step < (slice paragraph (k / step * step) size).length := by
      simp only [slice, List.length_take, List.length_drop]
      omega
    refine List.mem_of_getElem (i := k - k / step * step) (h := hlen) ?_
    simp only [slice, List.getElem_take, List.getElem_drop, ← hget]
    congr 1
    omega

def Packing.Shows (s : Packing) : Prop :=
  exists chunk c, chunk ∈ s.chunks ++ [s.current] ∧ c ∈ chunk ∧ isSpace c = false

theorem packParagraph_shows {chunkSize overlap : Nat} {s : Packing} {paragraph : Text} {c : Char}
    (hsize : 1 ≤ chunkSize) (hc : c ∈ paragraph) (hspace : isSpace c = false) :
    (packParagraph chunkSize overlap s paragraph).Shows := by
  have hlast : forall before : Text, c ∈ strip (before ++ blankLine ++ paragraph) :=
    fun before => mem_strip (List.mem_append_right _ hc) hspace
  unfold packParagraph Packing.Shows
  split
  · rcases mem_windows chunkSize (max (chunkSize - overlap) 1) hc (by omega)
      (by omega) with ⟨w, hw, hcw⟩
    exact ⟨w, c, by simp [hw], hcw, hspace⟩
  · dsimp only
    split
    · exact ⟨_, c, by simp, hlast s.current, hspace⟩
    · split
      · exact ⟨_, c, by simp, hc, hspace⟩
      · exact ⟨_, c, by simp, hlast (takeEnd s.current overlap), hspace⟩

theorem splitText_ne_nil {text : Text} {chunkSize : Nat} (overlap : Nat) (hsize : 1 ≤ chunkSize)
    (h : exists c, c ∈ text ∧ Visible c) : splitText text chunkSize overlap ≠ [] := by
  rcases h with ⟨c, hc, hv⟩
  have hclean := mem_cleanText hc hv
  have hne := List.ne_nil_of_mem hclean
  have hparagraphs := paragraphs_ne_nil hclean hv.1
  have hshows : ((paragraphs (cleanText text)).foldl (packParagraph chunkSize overlap)
      ⟨[], []⟩).Shows := by
    rw [← List.dropLast_append_getLast hparagraphs, List.foldl_append, List.foldl_cons,
      List.foldl_nil]
    rcases exists_visible_paragraph (List.getLast_mem hparagraphs) with ⟨d, hd, hspace⟩
    exact packParagraph_shows hsize hd hspace
  rcases hshows with ⟨chunk, d, hchunk, hd, hspace⟩
  unfold splitText
  simp only [List.isEmpty_iff, if_neg hne]
  refine List.ne_nil_of_mem (a := chunk) (List.mem_filter.mpr ⟨?_, ?_⟩)
  · split
    · rename_i hempty
      rw [hempty] at hchunk
      rcases List.mem_append.mp hchunk with hchunk | hchunk
      · exact hchunk
      · rw [List.mem_singleton] at hchunk
        subst hchunk
        cases hd
    · exact hchunk
  · have := List.ne_nil_of_mem (mem_strip hd hspace)
    simpa using this

theorem children_ne_nil {text : Text} {chunkSize overlap : Nat} (hsize : 1 ≤ chunkSize)
    {parent : ParentChildChunks} (h : parent ∈ splitParentChildText text chunkSize overlap) :
    parent.children ≠ [] := by
  unfold splitParentChildText at h
  by_cases hempty : (cleanText text).isEmpty
  · rw [if_pos hempty] at h
    exact absurd h List.not_mem_nil
  rw [if_neg hempty] at h
  rcases List.mem_filterMap.mp h with ⟨⟨path, lines⟩, -, hparent⟩
  dsimp only at hparent
  by_cases hne : (cleanText (join ['\n'] lines)).isEmpty
  · rw [if_pos hne] at hparent
    cases hparent
  · rw [if_neg hne, Option.some.injEq] at hparent
    have hvisible : exists c, c ∈ cleanText (join ['\n'] lines) ∧ Visible c :=
      exists_visible_cleanText (by simpa using hne)
    have hchildren := splitText_ne_nil overlap hsize hvisible
    rw [← hparent]
    dsimp only
    exact hchildren

end Chunking
end RagService
