import Mathlib.Data.List.Induction
import RagService.Properties.WholeText

/-!
# Sizes of chunks

A chunk is larger than the chunk size only when the end of the chunk before it was carried
over and left no room for the paragraph.  The windows of a long paragraph end with one that
adds nothing when the paragraph is only a little longer than a multiple of the step.
-/

namespace RagService
namespace ChunkSizes

open Text Chunking

/-!
# The chunks of some paragraphs

The loop of `split_text` over the paragraphs, and the chunk that is left in the end.
-/

def pack (chunkSize overlap : Nat) (ps : List Text) : Packing :=
  ps.foldl (packParagraph chunkSize overlap) ⟨[], []⟩

/-- `if current: chunks.append(current)` -/
def flush (s : Packing) : List Text :=
  if s.current.isEmpty then s.chunks else s.chunks ++ [s.current]

def chunksOf (chunkSize overlap : Nat) (ps : List Text) : List Text :=
  (flush (pack chunkSize overlap ps)).filter notBlank

theorem splitText_eq_chunksOf (text : Text) (chunkSize overlap : Nat) :
    splitText text chunkSize overlap = chunksOf chunkSize overlap (paragraphs (cleanText text)) := by
  unfold splitText
  dsimp only
  split
  · rename_i hempty
    rw [List.isEmpty_iff.mp hempty]
    rfl
  · rfl

theorem pack_concat (chunkSize overlap : Nat) (ps : List Text) (p : Text) :
    pack chunkSize overlap (ps ++ [p]) =
      packParagraph chunkSize overlap (pack chunkSize overlap ps) p := by
  unfold pack
  rw [List.foldl_append]
  rfl

theorem mem_flush {s : Packing} {chunk : Text} (h : chunk ∈ flush s) :
    chunk ∈ s.chunks ∨ chunk = s.current := by
  unfold flush at h
  split at h
  · exact .inl h
  · cases List.mem_append.mp h with
    | inl hin => exact .inl hin
    | inr hin => exact .inr (List.mem_singleton.mp hin)

/-!
# Chunks within the chunk size

A chunk that is too long is closed as it is, so every carried end has to leave room for the
paragraph behind it.
-/

def WithinSize (text : Text) (chunkSize overlap : Nat) : Prop :=
  forall chunk, chunk ∈ splitText text chunkSize overlap -> chunk.length ≤ chunkSize

/-- A paragraph that does not go to the chunk being filled fits behind what is carried over. -/
def CarryFits (chunkSize overlap : Nat) (current p : Text) : Prop :=
  p.length ≤ chunkSize -> chunkSize < (strip (current ++ blankLine ++ p)).length ->
    overlap ≠ 0 -> (strip (takeEnd current overlap ++ blankLine ++ p)).length ≤ chunkSize

/-- It is so in every turn of the loop. -/
def CarriesFit (text : Text) (chunkSize overlap : Nat) : Prop :=
  forall before p after, paragraphs (cleanText text) = before ++ p :: after ->
    CarryFits chunkSize overlap (pack chunkSize overlap before).current p

structure Fits (chunkSize : Nat) (s : Packing) : Prop where
  chunks : forall chunk, chunk ∈ s.chunks -> chunk.length ≤ chunkSize
  current : s.current.length ≤ chunkSize

def Exceeds (chunkSize : Nat) (s : Packing) : Prop :=
  (exists chunk, chunk ∈ s.chunks ∧ chunkSize < chunk.length ∧ notBlank chunk = true) ∨
    chunkSize < s.current.length ∧ Paragraph s.current

theorem length_of_mem_windows {size step : Nat} {p w : Text} (h : w ∈ windows size step p) :
    w.length ≤ size := by
  rcases List.mem_map.mp h with ⟨i, -, rfl⟩
  unfold slice
  exact List.length_take_le size _

theorem Fits.packParagraph {chunkSize overlap : Nat} {s : Packing} {p : Text}
    (h : Fits chunkSize s) (hcarry : CarryFits chunkSize overlap s.current p) :
    Fits chunkSize (packParagraph chunkSize overlap s p) := by
  have hclosed : forall chunk, chunk ∈ s.chunks ++ [s.current] -> chunk.length ≤ chunkSize := by
    intro chunk hchunk
    cases List.mem_append.mp hchunk with
    | inl hin => exact h.chunks chunk hin
    | inr hin =>
        rw [List.mem_singleton.mp hin]
        exact h.current
  unfold Chunking.packParagraph
  split
  · constructor
    · intro chunk hchunk
      cases List.mem_append.mp hchunk with
      | inl hin =>
          apply hclosed
          split at hin
          · exact List.mem_append_left _ hin
          · exact hin
      | inr hin => exact length_of_mem_windows hin
    · exact Nat.zero_le _
  · rename_i hshort
    have hlength : p.length ≤ chunkSize := Nat.not_lt.mp hshort
    dsimp only
    split
    · rename_i hfits
      exact ⟨h.chunks, hfits⟩
    · rename_i hfull
      constructor
      · exact hclosed
      · dsimp only
        split
        · exact hlength
        · rename_i hoverlap
          exact hcarry hlength (Nat.not_le.mp hfull) hoverlap

theorem Paragraph.length_strip_append {current p : Text} (hcurrent : Paragraph current)
    (hp : Paragraph p) :
    (strip (current ++ blankLine ++ p)).length = current.length + 2 + p.length := by
  have hstart : (current ++ blankLine).dropWhile isSpace = current ++ blankLine := by
    rw [List.dropWhile_append, hcurrent.trimmed.start, if_neg]
    rw [List.isEmpty_iff]
    exact hcurrent.ne_nil
  rw [hp.strip_append, hstart, List.length_append, List.length_append]
  rfl

theorem Paragraph.notBlank {p : Text} (h : Paragraph p) : notBlank p = true := by
  rcases h.visible with ⟨c, hc, hspace⟩
  exact notBlank_of_mem hc hspace

theorem Exceeds.packParagraph {chunkSize overlap : Nat} {s : Packing} {p : Text}
    (h : Exceeds chunkSize s) (hp : Paragraph p) :
    Exceeds chunkSize (packParagraph chunkSize overlap s p) := by
  unfold Chunking.packParagraph
  cases h with
  | inl hclosed =>
      rcases hclosed with ⟨chunk, hchunk, hlong, hblank⟩
      split
      · refine .inl ⟨chunk, List.mem_append_left _ ?_, hlong, hblank⟩
        split
        · exact hchunk
        · exact List.mem_append_left _ hchunk
      · dsimp only
        split
        · exact .inl ⟨chunk, hchunk, hlong, hblank⟩
        · exact .inl ⟨chunk, List.mem_append_left _ hchunk, hlong, hblank⟩
  | inr hcurrent =>
      have hempty : ¬ s.current.isEmpty = true := by
        rw [List.isEmpty_iff]
        exact hcurrent.2.ne_nil
      have hlast : s.current ∈ s.chunks ++ [s.current] :=
        List.mem_append_right _ List.mem_cons_self
      have hblank := Paragraph.notBlank hcurrent.2
      split
      · -- the chunk is not empty, so the paragraph closes it
        exact .inl ⟨s.current, List.mem_append_left _ hlast, hcurrent.1, hblank⟩
      · dsimp only
        rw [if_neg]
        · exact .inl ⟨s.current, hlast, hcurrent.1, hblank⟩
        · rw [Paragraph.length_strip_append hcurrent.2 hp]
          have hlong := hcurrent.1
          omega

theorem Exceeds.foldl {chunkSize : Nat} (overlap : Nat) {s : Packing} {ps : List Text}
    (h : Exceeds chunkSize s) (hps : forall p, p ∈ ps -> Paragraph p) :
    Exceeds chunkSize (ps.foldl (Chunking.packParagraph chunkSize overlap) s) := by
  induction ps generalizing s with
  | nil => exact h
  | cons p rest ih =>
      apply ih
      · exact h.packParagraph (hps p List.mem_cons_self)
      · exact fun later hlater => hps later (List.mem_cons_of_mem p hlater)

theorem Exceeds.exists_chunk {chunkSize : Nat} {s : Packing} (h : Exceeds chunkSize s) :
    exists chunk, chunk ∈ (flush s).filter notBlank ∧ chunkSize < chunk.length := by
  unfold flush
  cases h with
  | inl hclosed =>
      rcases hclosed with ⟨chunk, hchunk, hlong, hblank⟩
      refine ⟨chunk, List.mem_filter.mpr ⟨?_, hblank⟩, hlong⟩
      split
      · exact hchunk
      · exact List.mem_append_left _ hchunk
  | inr hcurrent =>
      refine ⟨s.current, List.mem_filter.mpr ⟨?_, Paragraph.notBlank hcurrent.2⟩, hcurrent.1⟩
      rw [if_neg]
      · exact List.mem_append_right _ List.mem_cons_self
      · rw [List.isEmpty_iff]
        exact hcurrent.2.ne_nil

/-- Every chunk has at most the chunk size if and only if what is carried over always fits. -/
theorem chunks_within_size (text : Text) (chunkSize overlap : Nat) :
    WithinSize text chunkSize overlap ↔ CarriesFit text chunkSize overlap := by
  unfold WithinSize
  rw [splitText_eq_chunksOf]
  constructor
  · intro h before p after happend hshort hfull hoverlap
    apply Nat.not_lt.mp
    intro hlong
    have hps : forall q, q ∈ before ++ p :: after -> Paragraph q := by
      intro q hq
      rw [← happend] at hq
      exact paragraph_of_mem hq
    have hp := hps p (List.mem_append_right _ List.mem_cons_self)
    -- the chunk that is started here is too long
    have hturn : Exceeds chunkSize
        (packParagraph chunkSize overlap (pack chunkSize overlap before) p) := by
      unfold packParagraph
      rw [if_neg (Nat.not_lt.mpr hshort)]
      dsimp only
      rw [if_neg (Nat.not_le.mpr hfull), if_neg hoverlap]
      exact .inr ⟨hlong, hp.of_strip⟩
    have hend := hturn.foldl overlap fun q hq =>
      hps q (List.mem_append_right _ (List.mem_cons_of_mem p hq))
    rcases hend.exists_chunk with ⟨chunk, hchunk, hlength⟩
    have hle := h chunk (by
      rw [happend]
      unfold chunksOf pack
      rw [List.foldl_append]
      exact hchunk)
    omega
  · intro h
    have hfits : forall before after, paragraphs (cleanText text) = before ++ after ->
        Fits chunkSize (pack chunkSize overlap before) := by
      intro before
      induction before using List.reverseRecOn with
      | nil => exact fun _ _ => ⟨fun _ h => absurd h List.not_mem_nil, Nat.zero_le _⟩
      | append_singleton front p ih =>
          intro after happend
          rw [List.append_assoc] at happend
          rw [pack_concat]
          exact (ih _ happend).packParagraph (h front p after happend)
    intro chunk hchunk
    have hall := hfits (paragraphs (cleanText text)) [] (List.append_nil _).symm
    cases mem_flush (List.mem_filter.mp hchunk).1 with
    | inl hin => exact hall.chunks chunk hin
    | inr heq =>
        rw [heq]
        exact hall.current

/-- Two paragraphs of eight characters, five of which are carried over. -/
theorem chunks_within_size_fails : ¬ WithinSize "aaaaaaaa\n\nbbbbbbbb".toList 10 5 := by
  intro h
  have hle := h "aaaaa\n\nbbbbbbbb".toList (by decide)
  exact absurd hle (by decide)

/-!
# Windows that add something

The windows of a long paragraph stand between the chunks of the others.  The last character of
the paragraph is in every window that reaches its end, so such a window becomes a chunk, and so
does the next one.
-/

def windowStarts (step : Nat) (p : Text) : List Nat :=
  (List.range ((p.length + step - 1) / step)).map (· * step)

def emittedStarts (chunkSize overlap : Nat) (p : Text) : List Nat :=
  (windowStarts (max (chunkSize - overlap) 1) p).filter fun start =>
    notBlank (slice p start chunkSize)

def windowEnd (chunkSize : Nat) (p : Text) (start : Nat) : Nat :=
  min (start + chunkSize) p.length

/-- No chunk of the paragraph lies in the range of the chunk before it. -/
def NoRedundantWindow (chunkSize overlap : Nat) (p : Text) : Prop :=
  forall before start next after,
    emittedStarts chunkSize overlap p = before ++ start :: next :: after ->
      ¬ (start ≤ next ∧ windowEnd chunkSize p next ≤ windowEnd chunkSize p start)

theorem windows_eq (size step : Nat) (p : Text) :
    windows size step p = (windowStarts step p).map fun start => slice p start size := by
  unfold windows windowStarts
  rw [List.map_map]
  rfl

theorem packParagraph_append (chunkSize overlap : Nat) (front chunks : List Text)
    (current p : Text) :
    packParagraph chunkSize overlap ⟨front ++ chunks, current⟩ p =
      ⟨front ++ (packParagraph chunkSize overlap ⟨chunks, current⟩ p).chunks,
        (packParagraph chunkSize overlap ⟨chunks, current⟩ p).current⟩ := by
  unfold packParagraph
  dsimp only
  split
  · split
    · rw [List.append_assoc]
    · simp only [List.append_assoc]
  · split
    · rfl
    · rw [List.append_assoc]

theorem foldl_packParagraph_append (chunkSize overlap : Nat) (front : List Text) (ps : List Text)
    (chunks : List Text) (current : Text) :
    ps.foldl (packParagraph chunkSize overlap) ⟨front ++ chunks, current⟩ =
      ⟨front ++ (ps.foldl (packParagraph chunkSize overlap) ⟨chunks, current⟩).chunks,
        (ps.foldl (packParagraph chunkSize overlap) ⟨chunks, current⟩).current⟩ := by
  induction ps generalizing chunks current with
  | nil => rfl
  | cons p rest ih => rw [List.foldl_cons, List.foldl_cons, packParagraph_append, ih]

theorem chunksOf_long (chunkSize overlap : Nat) (before after : List Text) {p : Text}
    (hlong : chunkSize < p.length) :
    chunksOf chunkSize overlap (before ++ p :: after) =
      chunksOf chunkSize overlap before ++
        (emittedStarts chunkSize overlap p).map (fun start => slice p start chunkSize) ++
          chunksOf chunkSize overlap after := by
  have hturn : packParagraph chunkSize overlap (pack chunkSize overlap before) p =
      ⟨flush (pack chunkSize overlap before) ++
        windows chunkSize (max (chunkSize - overlap) 1) p ++ [], []⟩ := by
    unfold packParagraph
    rw [if_pos hlong, List.append_nil]
    rfl
  have hpack : pack chunkSize overlap (before ++ p :: after) =
      ⟨flush (pack chunkSize overlap before) ++
        windows chunkSize (max (chunkSize - overlap) 1) p ++ (pack chunkSize overlap after).chunks,
        (pack chunkSize overlap after).current⟩ := by
    have hfold : pack chunkSize overlap (before ++ p :: after) =
        after.foldl (packParagraph chunkSize overlap)
          (packParagraph chunkSize overlap (pack chunkSize overlap before) p) := by
      unfold pack
      rw [List.foldl_append, List.foldl_cons]
    rw [hfold, hturn, foldl_packParagraph_append]
    rfl
  have hflush : flush (pack chunkSize overlap (before ++ p :: after)) =
      flush (pack chunkSize overlap before) ++
        windows chunkSize (max (chunkSize - overlap) 1) p ++
          flush (pack chunkSize overlap after) := by
    rw [hpack]
    unfold flush
    dsimp only
    cases (pack chunkSize overlap after).current.isEmpty with
    | true => rfl
    | false =>
        rw [if_neg Bool.false_ne_true, if_neg Bool.false_ne_true]
        simp only [List.append_assoc]
  unfold chunksOf
  rw [hflush, List.filter_append, List.filter_append, windows_eq, List.filter_map]
  rfl

theorem notBlank_of_reaches {chunkSize start : Nat} {p : Text} (hp : Paragraph p)
    (hstart : start < p.length) (hend : p.length ≤ start + chunkSize) :
    notBlank (slice p start chunkSize) = true := by
  have hdrop : slice p start chunkSize = p.drop start := by
    unfold slice
    apply List.take_of_length_le
    rw [List.length_drop]
    omega
  have hne : p.reverse ≠ [] := fun heq => hp.ne_nil (List.reverse_eq_nil_iff.mp heq)
  cases hreverse : p.reverse with
  | nil => exact absurd hreverse hne
  | cons c rest =>
      have hspace : isSpace c = false := by
        cases hc : isSpace c with
        | false => rfl
        | true =>
            have hfinish := hp.trimmed.finish
            rw [hreverse, List.dropWhile_cons_of_pos hc] at hfinish
            have hlength := congrArg List.length hfinish
            have hle := (List.dropWhile_sublist (l := rest) isSpace).length_le
            rw [List.length_cons] at hlength
            omega
      have hp' : p = rest.reverse ++ [c] := by
        rw [← List.reverse_reverse p, hreverse, List.reverse_cons]
      have hmem : c ∈ p.drop start := by
        rw [hp', List.drop_append]
        apply List.mem_append_right
        rw [hp', List.length_append, List.length_reverse] at hstart
        have hzero : start - rest.reverse.length = 0 := by
          rw [List.length_reverse]
          have hone : [c].length = 1 := rfl
          omega
        rw [hzero]
        exact List.mem_cons_self
      rw [hdrop]
      exact notBlank_of_mem hmem hspace

theorem emittedStarts_pairwise (chunkSize overlap : Nat) (p : Text) :
    (emittedStarts chunkSize overlap p).Pairwise (· < ·) := by
  apply List.Pairwise.filter
  unfold windowStarts
  rw [List.pairwise_map]
  apply List.pairwise_lt_range.imp
  intro i j hij
  exact Nat.mul_lt_mul_of_pos_right hij (by omega)

theorem length_windowStarts {step n : Nat} (hstep : 0 < step) (hn : 0 < n) :
    (n + step - 1) / step = (n - 1) / step + 1 := by
  have hsum : n + step - 1 = n - 1 + step := by omega
  rw [hsum, Nat.add_div_right _ hstep]

theorem mem_emittedStarts {chunkSize overlap : Nat} (hoverlap : overlap < chunkSize) {p : Text}
    (hlong : chunkSize < p.length) {s : Nat} (h : s ∈ emittedStarts chunkSize overlap p) :
    exists i, i ≤ (p.length - 1) / (chunkSize - overlap) ∧ s = i * (chunkSize - overlap) := by
  have hstep : max (chunkSize - overlap) 1 = chunkSize - overlap := by omega
  have hpositive : 0 < chunkSize - overlap := by omega
  rcases List.mem_map.mp (List.mem_filter.mp h).1 with ⟨i, hi, rfl⟩
  rw [hstep] at hi ⊢
  rw [List.mem_range, length_windowStarts hpositive (by omega)] at hi
  exact ⟨i, Nat.le_of_lt_succ hi, rfl⟩

/-- When the last window but one reaches the end, it becomes a chunk and so does the last one. -/
theorem emittedStarts_of_redundant {chunkSize overlap : Nat} (hoverlap : overlap < chunkSize)
    {p : Text} (hp : Paragraph p) (hlong : chunkSize < p.length) {k : Nat}
    (hk : (p.length - 1) / (chunkSize - overlap) = k + 1)
    (hend : p.length ≤ k * (chunkSize - overlap) + chunkSize) :
    exists front, emittedStarts chunkSize overlap p =
      front ++ [k * (chunkSize - overlap), (k + 1) * (chunkSize - overlap)] := by
  have hstep : max (chunkSize - overlap) 1 = chunkSize - overlap := by omega
  have hpositive : 0 < chunkSize - overlap := by omega
  have hcount : (p.length + (chunkSize - overlap) - 1) / (chunkSize - overlap) = k + 2 := by
    rw [length_windowStarts hpositive (by omega), hk]
  have hsucc : (k + 1) * (chunkSize - overlap) =
      k * (chunkSize - overlap) + (chunkSize - overlap) := Nat.succ_mul _ _
  have hlast : (k + 1) * (chunkSize - overlap) ≤ p.length - 1 := by
    rw [← hk]
    exact Nat.div_mul_le_self _ _
  exists ((List.range k).map (· * (chunkSize - overlap))).filter fun start =>
    notBlank (slice p start chunkSize)
  unfold emittedStarts windowStarts
  rw [hstep, hcount, List.range_succ, List.range_succ, List.map_append, List.map_append,
    List.filter_append, List.filter_append, List.append_assoc]
  congr 1
  rw [List.map_singleton, List.map_singleton, List.filter_singleton, List.filter_singleton,
    notBlank_of_reaches hp (by omega) hend, notBlank_of_reaches hp (by omega) (by omega)]
  rfl

theorem noRedundantWindow_iff {chunkSize overlap : Nat} (hoverlap : overlap < chunkSize) {p : Text}
    (hp : Paragraph p) (hlong : chunkSize < p.length) :
    NoRedundantWindow chunkSize overlap p ↔
      overlap ≤ (p.length - 1) % (chunkSize - overlap) := by
  have hpositive : 0 < chunkSize - overlap := by omega
  have hdivmod := Nat.div_add_mod' (p.length - 1) (chunkSize - overlap)
  have hmod := Nat.mod_lt (p.length - 1) hpositive
  have hlast : 1 ≤ (p.length - 1) / (chunkSize - overlap) := by
    rw [Nat.one_le_div_iff hpositive]
    omega
  rcases Nat.exists_eq_succ_of_ne_zero (Nat.ne_of_gt hlast) with ⟨k, hk⟩
  have hsucc : (k + 1) * (chunkSize - overlap) =
      k * (chunkSize - overlap) + (chunkSize - overlap) := Nat.succ_mul _ _
  rw [hk, hsucc] at hdivmod
  unfold NoRedundantWindow
  constructor
  · intro h
    apply Nat.not_lt.mp
    intro hredundant
    rcases emittedStarts_of_redundant hoverlap hp hlong hk (by omega) with ⟨front, hstarts⟩
    apply h _ _ _ [] hstarts
    unfold windowEnd
    constructor
    · omega
    · omega
  · intro hle before start next after hstarts hcontained
    have hpairwise := emittedStarts_pairwise chunkSize overlap p
    rw [hstarts] at hpairwise
    have hlt : start < next := by
      have htail := (List.pairwise_append.mp hpairwise).2.1
      exact List.rel_of_pairwise_cons htail List.mem_cons_self
    have hin : start ∈ emittedStarts chunkSize overlap p := by
      rw [hstarts]
      exact List.mem_append_right _ List.mem_cons_self
    have hin' : next ∈ emittedStarts chunkSize overlap p := by
      rw [hstarts]
      exact List.mem_append_right _ (List.mem_cons_of_mem _ List.mem_cons_self)
    rcases mem_emittedStarts hoverlap hlong hin with ⟨i, -, rfl⟩
    rcases mem_emittedStarts hoverlap hlong hin' with ⟨j, hj, rfl⟩
    have hij : i < j := Nat.lt_of_mul_lt_mul_right hlt
    rw [hk] at hj
    have hik : i * (chunkSize - overlap) ≤ k * (chunkSize - overlap) :=
      Nat.mul_le_mul_right _ (by omega)
    have hwindow := hcontained.2
    unfold windowEnd at hwindow
    omega

/--
The windows that become chunks stand together among the chunks; and none of them lies in the
one before it if and only if the remainder of each long paragraph is not within the overlap.
-/
theorem windows_not_redundant {chunkSize overlap : Nat} (hoverlap : overlap < chunkSize)
    (text : Text) :
    (forall before p after, paragraphs (cleanText text) = before ++ p :: after ->
        chunkSize < p.length ->
          splitText text chunkSize overlap = chunksOf chunkSize overlap before ++
            (emittedStarts chunkSize overlap p).map (fun start => slice p start chunkSize) ++
              chunksOf chunkSize overlap after) ∧
      ((forall p, p ∈ paragraphs (cleanText text) -> chunkSize < p.length ->
          NoRedundantWindow chunkSize overlap p) ↔
        forall p, p ∈ paragraphs (cleanText text) -> chunkSize < p.length ->
          overlap ≤ (p.length - 1) % (chunkSize - overlap)) := by
  constructor
  · intro before p after happend hlong
    rw [splitText_eq_chunksOf, happend, chunksOf_long _ _ _ _ hlong]
  · constructor
    · intro h p hp hlong
      exact (noRedundantWindow_iff hoverlap (paragraph_of_mem hp) hlong).mp (h p hp hlong)
    · intro h p hp hlong
      exact (noRedundantWindow_iff hoverlap (paragraph_of_mem hp) hlong).mpr (h p hp hlong)

theorem windows_not_redundant_sample :
    (forall before p after, paragraphs (cleanText "abcd".toList) = before ++ p :: after ->
        3 < p.length ->
          splitText "abcd".toList 3 1 = chunksOf 3 1 before ++
            (emittedStarts 3 1 p).map (fun start => slice p start 3) ++ chunksOf 3 1 after) ∧
      ((forall p, p ∈ paragraphs (cleanText "abcd".toList) -> 3 < p.length ->
          NoRedundantWindow 3 1 p) ↔
        forall p, p ∈ paragraphs (cleanText "abcd".toList) -> 3 < p.length ->
          1 ≤ (p.length - 1) % (3 - 1)) :=
  windows_not_redundant (by decide) "abcd".toList

/-- Five characters in windows of three: the third window is the end of the second. -/
theorem windows_not_redundant_fails :
    "abcde".toList ∈ paragraphs (cleanText "abcde".toList) ∧
      splitText "abcde".toList 3 1 = ["abc".toList, "cde".toList, "e".toList] ∧
        ¬ NoRedundantWindow 3 1 "abcde".toList := by
  constructor
  · decide
  · constructor
    · decide
    · intro h
      exact h [0] 2 4 [] (by decide) (by decide)

end ChunkSizes
end RagService
