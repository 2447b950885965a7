import RagService.Indexing.Cleaning

/-!
# Indexing loses no text

The parent sections carry the visible text of a document in order, and the retrieval
chunks of a section carry its paragraphs in order: short ones as they are, long ones in
windows.
-/

namespace RagService

open Text Chunking

/-!
# Chunks that follow the paragraphs

Short paragraphs stand as they are at the end of a chunk, and long ones are cut into windows
that leave out no visible character.
-/

def WindowsOf (size : Nat) (paragraph : Text) (children : List Text) : Prop :=
  exists starts : List Nat,
    starts.Pairwise (· < ·) ∧
      children = starts.map (fun start => slice paragraph start size) ∧
        forall k c, paragraph[k]? = some c -> isSpace c = false ->
          exists start, start ∈ starts ∧ start ≤ k ∧ k < start + size

structure Packed (size : Nat) (block : List Text) (child : Text) : Prop where
  nonempty : block ≠ []
  short : forall p, p ∈ block -> p.length ≤ size
  last : join blankLine block <:+ child

inductive Follows (size : Nat) : List Text -> List Text -> Prop where
  | nil : Follows size [] []
  | packed {block rest : List Text} {child : Text} {children : List Text}
      (hblock : Packed size block child) (hrest : Follows size rest children) :
      Follows size (block ++ rest) (child :: children)
  | windowed {p : Text} {rest pieces children : List Text} (hlong : size < p.length)
      (hpieces : WindowsOf size p pieces) (hrest : Follows size rest children) :
      Follows size (p :: rest) (pieces ++ children)

theorem Follows.append {size : Nat} {ps qs cs ds : List Text} (h : Follows size ps cs)
    (h' : Follows size qs ds) : Follows size (ps ++ qs) (cs ++ ds) := by
  induction h with
  | nil => exact h'
  | packed hblock hrest ih =>
      rw [List.append_assoc, List.cons_append]
      exact .packed hblock ih
  | windowed hlong hpieces hrest ih =>
      rw [List.cons_append, List.append_assoc]
      exact .windowed hlong hpieces ih

theorem Follows.short {size : Nat} {ps cs : List Text} (h : Follows size ps cs) {p : Text}
    (hp : p ∈ ps) (hlength : p.length ≤ size) : exists child, child ∈ cs ∧ p <:+: child := by
  induction h with
  | nil => cases hp
  | packed hblock hrest ih =>
      cases List.mem_append.mp hp with
      | inl hp =>
          exact ⟨_, List.mem_cons_self, (isInfix_join hp).trans hblock.last.isInfix⟩
      | inr hp =>
          rcases ih hp with ⟨child, hchild, hinside⟩
          exact ⟨child, List.mem_cons_of_mem _ hchild, hinside⟩
  | windowed hlong hpieces hrest ih =>
      cases hp with
      | head => exact absurd hlength (Nat.not_le.mpr hlong)
      | tail _ hp =>
          rcases ih hp with ⟨child, hchild, hinside⟩
          exact ⟨child, List.mem_append_right _ hchild, hinside⟩

theorem Follows.long {size : Nat} {ps cs : List Text} (h : Follows size ps cs) {p : Text}
    (hp : p ∈ ps) (hlength : size < p.length) {k : Nat} {c : Char} (hk : p[k]? = some c)
    (hspace : isSpace c = false) :
    exists start, slice p start size ∈ cs ∧ start ≤ k ∧ k < start + size := by
  induction h with
  | nil => cases hp
  | packed hblock hrest ih =>
      cases List.mem_append.mp hp with
      | inl hp => exact absurd (hblock.short p hp) (Nat.not_le.mpr hlength)
      | inr hp =>
          rcases ih hp with ⟨start, hchild, hbounds⟩
          exact ⟨start, List.mem_cons_of_mem _ hchild, hbounds⟩
  | windowed hlong hpieces hrest ih =>
      cases hp with
      | head =>
          rcases hpieces with ⟨starts, -, rfl, hcover⟩
          rcases hcover k c hk hspace with ⟨start, hstart, hbounds⟩
          exact ⟨start, List.mem_append_left _ (List.mem_map_of_mem hstart), hbounds⟩
      | tail _ hp =>
          rcases ih hp with ⟨start, hchild, hbounds⟩
          exact ⟨start, List.mem_append_right _ hchild, hbounds⟩

/-!
# Windows

The windows that become chunks are those with a visible character.
-/

def notBlank (chunk : Text) : Bool :=
  !(strip chunk).isEmpty

theorem notBlank_of_mem {chunk : Text} {c : Char} (hc : c ∈ chunk) (hspace : isSpace c = false) :
    notBlank chunk = true := by
  have hne := List.ne_nil_of_mem (mem_strip hc hspace)
  simpa [notBlank] using hne

theorem windowsOf_windows (size step : Nat) (hstep : 0 < step) (hsize : step ≤ size)
    (paragraph : Text) :
    WindowsOf size paragraph ((windows size step paragraph).filter notBlank) := by
  unfold windows
  rw [List.filter_map]
  refine ⟨((List.range ((paragraph.length + step - 1) / step)).filter
      (notBlank ∘ fun i => slice paragraph (i * step) size)).map (· * step), ?_, ?_, ?_⟩
  · rw [List.pairwise_map]
    apply List.Pairwise.imp _ ((List.pairwise_lt_range).filter _)
    intro i j hij
    exact Nat.mul_lt_mul_of_pos_right hij hstep
  · rw [List.map_map]
    rfl
  · intro k c hk hspace
    rcases List.getElem?_eq_some_iff.mp hk with ⟨hlt, hget⟩
    have hmod := Nat.mod_lt k hstep
    have heq := Nat.div_add_mod' k step
    refine ⟨k / step * step, List.mem_map.mpr ⟨k / step, ?_, rfl⟩, ?_, ?_⟩
    · rw [List.mem_filter, List.mem_range]
      constructor
      · rw [Nat.div_lt_iff_lt_mul hstep]
        have hceil := Nat.lt_div_mul_add (a := paragraph.length + step - 1) hstep
        omega
      · have hmem : c ∈ slice paragraph (k / step * step) size := by
          apply List.mem_of_getElem? (i := k - k / step * step)
          rw [slice, List.getElem?_take_of_lt (by omega), List.getElem?_drop, ← hk]
          congr 1
          omega
        exact notBlank_of_mem hmem hspace
    · omega
    · omega

/-!
# Packing paragraphs

One turn of the loop puts the paragraph behind those so far.  Trimming a text that ends with a
paragraph trims only its start.
-/

structure Paragraph (p : Text) : Prop where
  trimmed : Trimmed p
  visible : exists c, c ∈ p ∧ isSpace c = false

theorem paragraph_of_mem {content p : Text} (h : p ∈ paragraphs content) : Paragraph p := by
  constructor
  · rcases List.mem_map.mp (List.mem_filter.mp h).1 with ⟨q, -, rfl⟩
    exact strip_trimmed q
  · exact exists_visible_paragraph h

theorem Paragraph.ne_nil {p : Text} (h : Paragraph p) : p ≠ [] := by
  rcases h.visible with ⟨c, hc, -⟩
  exact List.ne_nil_of_mem hc

theorem Paragraph.strip_append {p : Text} (h : Paragraph p) (before : Text) :
    strip (before ++ p) = before.dropWhile isSpace ++ p := by
  have hstart : (before ++ p).dropWhile isSpace = before.dropWhile isSpace ++ p := by
    rw [List.dropWhile_append]
    split
    · rename_i hempty
      rw [List.isEmpty_iff.mp hempty, List.nil_append, h.trimmed.start]
    · rfl
  have hne : p.reverse ≠ [] := fun heq => h.ne_nil (List.reverse_eq_nil_iff.mp heq)
  unfold strip
  rw [hstart, List.reverse_append, List.dropWhile_append, h.trimmed.finish, if_neg,
    List.reverse_append, List.reverse_reverse, List.reverse_reverse]
  rw [List.isEmpty_iff]
  exact hne

structure PackingOk (size : Nat) (processed : List Text) (s : Packing) (closed block : List Text) :
    Prop where
  processed : processed = closed ++ block
  closed : Follows size closed (s.chunks.filter notBlank)
  current : block = [] ∧ s.current = [] ∨
    Packed size block s.current ∧ Paragraph s.current

theorem PackingOk.close {size : Nat} {processed : List Text} {s : Packing}
    {closed block : List Text} (h : PackingOk size processed s closed block) :
    Follows size processed
      ((if s.current.isEmpty then s.chunks else s.chunks ++ [s.current]).filter notBlank) := by
  rw [h.processed]
  cases h.current with
  | inl hnone =>
      rw [hnone.1, hnone.2, List.append_nil]
      exact h.closed
  | inr hsome =>
      rcases hsome.2.visible with ⟨c, hc, hspace⟩
      have hempty : ¬ s.current.isEmpty = true := by
        rw [List.isEmpty_iff]
        exact hsome.2.ne_nil
      rw [if_neg hempty, List.filter_append,
        List.filter_cons_of_pos (notBlank_of_mem hc hspace), List.filter_nil]
      have hblock := Follows.packed hsome.1 .nil
      rw [List.append_nil] at hblock
      exact h.closed.append hblock

theorem packed_singleton {size : Nat} {p child : Text} (hlength : p.length ≤ size)
    (hlast : p <:+ child) : Packed size [p] child := by
  constructor
  · exact List.cons_ne_nil _ _
  · intro q hq
    rw [List.mem_singleton.mp hq]
    exact hlength
  · exact hlast

theorem Paragraph.of_strip {p before : Text} (h : Paragraph p) :
    Paragraph (strip (before ++ p)) := by
  rcases h.visible with ⟨c, hc, hspace⟩
  constructor
  · exact strip_trimmed _
  · exact ⟨c, mem_strip (List.mem_append_right _ hc) hspace, hspace⟩

/-- One turn of the loop. -/
theorem packParagraph_ok {size : Nat} (hsize : 1 ≤ size) (overlap : Nat) {processed : List Text}
    {s : Packing} {closed block : List Text} (h : PackingOk size processed s closed block)
    {p : Text} (hp : Paragraph p) :
    exists closed' block',
      PackingOk size (processed ++ [p]) (packParagraph size overlap s p) closed' block' := by
  unfold packParagraph
  split
  · -- the paragraph is cut into windows, after the chunk being filled
    rename_i hlong
    refine ⟨processed ++ [p], [], (List.append_nil _).symm, ?_, .inl ⟨rfl, rfl⟩⟩
    dsimp only
    rw [List.filter_append]
    have hwindows := windowsOf_windows size (max (size - overlap) 1) (by omega) (by omega) p
    have hlast := Follows.windowed hlong hwindows .nil
    rw [List.append_nil] at hlast
    exact h.close.append hlast
  rename_i hshort
  have hlength : p.length ≤ size := Nat.not_lt.mp hshort
  dsimp only
  split
  · -- the paragraph goes to the chunk being filled
    rename_i hfits
    refine ⟨closed, block ++ [p], by rw [h.processed, List.append_assoc], h.closed, .inr ⟨?_, ?_⟩⟩
    · cases h.current with
      | inl hnone =>
          rw [hnone.1, hnone.2]
          apply packed_singleton hlength
          rw [hp.strip_append]
          exact List.suffix_append _ _
      | inr hsome =>
          constructor
          · exact List.append_ne_nil_of_right_ne_nil _ (List.cons_ne_nil _ _)
          · intro q hq
            cases List.mem_append.mp hq with
            | inl hq => exact hsome.1.short q hq
            | inr hq => exact List.mem_singleton.mp hq ▸ hlength
          · have hstart : (s.current ++ blankLine).dropWhile isSpace = s.current ++ blankLine := by
              rw [List.dropWhile_append, hsome.2.trimmed.start, if_neg]
              rw [List.isEmpty_iff]
              exact hsome.2.ne_nil
            rw [hp.strip_append, hstart, join_append_singleton hsome.1.nonempty]
            rcases hsome.1.last with ⟨before, hbefore⟩
            exact ⟨before, by rw [← hbefore]; simp only [List.append_assoc]⟩
    · exact hp.of_strip
  · -- the chunk being filled is closed, and the paragraph starts the next one
    rename_i hfull
    have hsome : Packed size block s.current ∧ Paragraph s.current := by
      cases h.current with
      | inl hnone =>
          exfalso
          apply hfull
          have halone : ([] ++ blankLine : Text).dropWhile isSpace = [] := by decide
          rw [hnone.2, hp.strip_append, halone]
          exact hlength
      | inr hsome => exact hsome
    have hclose := h.close
    have hempty : ¬ s.current.isEmpty = true := by
      rw [List.isEmpty_iff]
      exact hsome.2.ne_nil
    rw [if_neg hempty] at hclose
    refine ⟨processed, [p], rfl, hclose, .inr ?_⟩
    dsimp only
    split
    · exact ⟨packed_singleton hlength (List.suffix_refl p), hp⟩
    · refine ⟨packed_singleton hlength ?_, hp.of_strip⟩
      rw [hp.strip_append]
      exact List.suffix_append _ _

theorem foldl_packParagraph_ok {size : Nat} (hsize : 1 ≤ size) (overlap : Nat)
    {processed : List Text}
    {s : Packing} {closed block : List Text} (h : PackingOk size processed s closed block)
    {ps : List Text} (hps : forall p, p ∈ ps -> Paragraph p) :
    exists closed' block',
      PackingOk size (processed ++ ps) (ps.foldl (packParagraph size overlap) s)
        closed' block' := by
  induction ps generalizing processed s closed block with
  | nil =>
      rw [List.append_nil]
      exact ⟨closed, block, h⟩
  | cons p rest ih =>
      rcases packParagraph_ok hsize overlap h (hps p List.mem_cons_self) with
        ⟨closed', block', hstep⟩
      have hrest := ih hstep fun q hq => hps q (List.mem_cons_of_mem p hq)
      rw [List.append_assoc] at hrest
      exact hrest

theorem splitText_follows {size : Nat} (hsize : 1 ≤ size) (overlap : Nat) (text : Text) :
    Follows size (paragraphs (cleanText text)) (splitText text size overlap) := by
  unfold splitText
  dsimp only
  split
  · rename_i hempty
    rw [List.isEmpty_iff.mp hempty]
    exact .nil
  · have hinit : PackingOk size [] ⟨[], []⟩ [] [] := ⟨rfl, .nil, .inl ⟨rfl, rfl⟩⟩
    obtain ⟨closed, block, hpacked⟩ := foldl_packParagraph_ok hsize overlap hinit
      fun p (hp : p ∈ paragraphs (cleanText text)) => paragraph_of_mem hp
    exact hpacked.close

/-!
# Sections

The sections are the lines of the content, cut.
-/

theorem visible_flatten (lines : List Text) : visible lines.flatten = lines.flatMap visible := by
  induction lines with
  | nil => rfl
  | cons line rest ih => rw [List.flatMap_cons, List.flatten_cons, visible_append, ih]

theorem visible_splitLines (text : Text) : visible (splitLines text).flatten = visible text := by
  fun_induction splitLines text with
  | case1 => rfl
  | case2 rest ih =>
      rw [List.flatten_cons, List.nil_append, ih, visible_cons_space (by decide),
        visible_cons_space (by decide)]
  | case3 c rest _ hbreak ih =>
      rw [List.flatten_cons, List.nil_append, ih,
        visible_cons_space (isSpace_of_isLineBreak hbreak)]
  | case4 c rest _ hbreak ih =>
      rw [flatten_consPiece]
      exact visible_cons_congr c ih

theorem noControl_join {lines : List Text} (h : NoControl lines.flatten) :
    NoControl (join ['\n'] lines) := by
  induction lines with
  | nil => exact h
  | cons line rest ih =>
      intro c hc
      cases rest with
      | nil => exact h c (by simpa [join] using hc)
      | cons next rest =>
          rw [join, List.append_assoc, List.mem_append] at hc
          cases hc with
          | inl hc => exact h c (List.mem_append_left _ hc)
          | inr hc =>
              cases hc with
              | head => decide
              | tail _ hc =>
                  apply ih _ c hc
                  intro d hd
                  exact h d (List.mem_append_right line hd)

namespace Chunking

def Sections.lines (s : Sections) : List Text :=
  s.close.flatMap Prod.snd

theorem Sections.lines_eq (s : Sections) :
    s.lines = s.sections.flatMap Prod.snd ++ s.sectionLines := by
  unfold Sections.lines Sections.close
  split
  · rename_i hempty
    rw [List.isEmpty_iff.mp hempty, List.append_nil]
  · rw [List.flatMap_append]
    simp

theorem sectionLine_lines (s : Sections) (line : Text) :
    (sectionLine s line).lines = s.lines ++ [line] := by
  unfold sectionLine
  split
  · rw [Sections.lines_eq]
    rfl
  · rw [Sections.lines_eq, Sections.lines_eq, List.append_assoc]

theorem foldl_sectionLine_lines (lines : List Text) (s : Sections) :
    (lines.foldl sectionLine s).lines = s.lines ++ lines := by
  induction lines generalizing s with
  | nil => exact (List.append_nil _).symm
  | cons line rest ih =>
      rw [List.foldl_cons, ih, sectionLine_lines, List.append_assoc, List.singleton_append]

theorem splitSections_lines (content : Text) :
    (splitSections content).flatMap Prod.snd = splitLines content :=
  foldl_sectionLine_lines (splitLines content) ⟨[], [], []⟩

def parents (chunkSize overlap : Nat) (sections : List (List Text × List Text)) :
    List ParentChildChunks :=
  sections.filterMap fun (path, lines) =>
    let parent := cleanText (join ['\n'] lines)
    if parent.isEmpty then none
    else some ⟨path, parent, splitText parent chunkSize overlap⟩

theorem visible_parents (chunkSize overlap : Nat) {sections : List (List Text × List Text)}
    (h : NoControl (sections.flatMap Prod.snd).flatten) :
    (parents chunkSize overlap sections).flatMap (fun parent => visible parent.parentContent) =
      visible (sections.flatMap Prod.snd).flatten := by
  induction sections with
  | nil => rfl
  | cons head rest ih =>
      rcases head with ⟨path, lines⟩
      rw [List.flatMap_cons, List.flatten_append] at h ⊢
      have hlines : NoControl lines.flatten := fun c hc => h c (List.mem_append_left _ hc)
      have hrest := ih fun c hc => h c (List.mem_append_right _ hc)
      have hparent : visible (cleanText (join ['\n'] lines)) = visible lines.flatten := by
        rw [visible_cleanText (noControl_join hlines), visible_join_newline, visible_flatten]
      rw [visible_append, ← hrest, ← hparent, parents, List.filterMap_cons]
      dsimp only
      by_cases hempty : (cleanText (join ['\n'] lines)).isEmpty
      · rw [if_pos hempty, List.isEmpty_iff.mp hempty]
        rfl
      · rw [if_neg hempty]
        rfl

theorem splitParentChildText_eq (text : Text) (chunkSize overlap : Nat) :
    splitParentChildText text chunkSize overlap =
      parents chunkSize overlap (splitSections (cleanText text)) := by
  unfold splitParentChildText
  dsimp only
  split
  · rename_i hempty
    rw [List.isEmpty_iff.mp hempty]
    rfl
  · rfl

theorem mem_parents {chunkSize overlap : Nat} {sections : List (List Text × List Text)}
    {parent : ParentChildChunks} (h : parent ∈ parents chunkSize overlap sections) :
    Clean parent.parentContent ∧
      parent.children = splitText parent.parentContent chunkSize overlap := by
  rcases List.mem_filterMap.mp h with ⟨⟨path, lines⟩, -, hparent⟩
  dsimp only at hparent
  split at hparent
  · cases hparent
  · rw [Option.some.injEq] at hparent
    rw [← hparent]
    dsimp only
    exact ⟨cleanText_clean (join ['\n'] lines), rfl⟩

end Chunking

/-!
# The whole text
-/

/-- What the retrieval chunks of a parent section keep of it. -/
structure KeepsParagraphs (chunkSize : Nat) (parent : ParentChildChunks) : Prop where
  nonempty : parent.children ≠ []
  short : forall p, p ∈ paragraphs parent.parentContent -> p.length ≤ chunkSize ->
    exists child, child ∈ parent.children ∧ p <:+: child
  long : forall p, p ∈ paragraphs parent.parentContent -> chunkSize < p.length ->
    forall k c, p[k]? = some c -> isSpace c = false ->
      exists start, slice p start chunkSize ∈ parent.children ∧
        start ≤ k ∧ k < start + chunkSize
  order : Follows chunkSize (paragraphs parent.parentContent) parent.children

/-- Indexing loses no text. -/
theorem indexing_loses_no_text (text : Text) {chunkSize : Nat} (overlap : Nat)
    (hsize : 1 ≤ chunkSize) :
    (splitParentChildText text chunkSize overlap).flatMap
        (fun parent => visible parent.parentContent) = visible (cleanText text) ∧
      forall parent, parent ∈ splitParentChildText text chunkSize overlap ->
        KeepsParagraphs chunkSize parent := by
  constructor
  · have hclean := cleanText_clean text
    have hcontrol : NoControl ((splitSections (cleanText text)).flatMap Prod.snd).flatten := by
      rw [splitSections_lines]
      exact fun c hc => hclean.noControl c (mem_splitLines hc)
    rw [splitParentChildText_eq, visible_parents chunkSize overlap hcontrol,
      splitSections_lines, visible_splitLines]
  · intro parent hparent
    have hne := children_ne_nil hsize hparent
    rw [splitParentChildText_eq] at hparent
    rcases mem_parents hparent with ⟨hclean, hchildren⟩
    have horder := splitText_follows hsize overlap parent.parentContent
    rw [hclean.cleanText_eq, ← hchildren] at horder
    constructor
    · exact hne
    · intro p hp hlength
      exact horder.short hp hlength
    · intro p hp hlength k c hk hspace
      exact horder.long hp hlength hk hspace
    · exact horder

theorem indexing_loses_no_text_sample :
    (splitParentChildText "ab\n\nc".toList 1 0).flatMap
        (fun parent => visible parent.parentContent) =
          visible (cleanText "ab\n\nc".toList) ∧
      forall parent, parent ∈ splitParentChildText "ab\n\nc".toList 1 0 ->
        KeepsParagraphs 1 parent :=
  indexing_loses_no_text "ab\n\nc".toList 0 (by decide)

end RagService
