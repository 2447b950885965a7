import RagService.Query.Context

/-!
# Citations of an answer

Leaving out the unknown citations of an answer joins the characters around them.  The
law holds as long as these do not spell a citation again.
-/

namespace RagService

open Text Context

/-!
# Pieces and texts

A text is read as pieces: characters, and matches of the citation pattern.  Pieces whose
characters spell no citation are read back from their text, and pieces can be made coarser
until no characters spell one.
-/

def IsCitation (m : Text) : Prop :=
  exists digits : Text, digits ≠ [] ∧ (forall c, c ∈ digits -> isDecimal c = true) ∧
    m = '[' :: 'S' :: digits ++ [']']

theorem citationMatch_append {m : Text} (hm : IsCitation m) (rest : Text) :
    citationMatch (m ++ rest) = some m := by
  rcases hm with ⟨digits, hne, hdigits, rfl⟩
  have htake : (digits ++ ']' :: rest).takeWhile isDecimal = digits := by
    rw [List.takeWhile_append_of_pos hdigits]
    simp [show isDecimal ']' = false by decide]
  have hdrop : (digits ++ ']' :: rest).dropWhile isDecimal = ']' :: rest := by
    rw [List.dropWhile_append_of_pos hdigits]
    simp [show isDecimal ']' = false by decide]
  simp [citationMatch, htake, hdrop, hne]

theorem citationMatch_some {s m : Text} (h : citationMatch s = some m) :
    IsCitation m ∧ exists rest, s = m ++ rest := by
  unfold citationMatch at h
  split at h
  · rename_i rest
    dsimp only at h
    split at h
    · rename_i hcond
      rw [Option.some.injEq] at h
      subst h
      rcases List.head?_eq_some_iff.mp hcond.2 with ⟨tail, htail⟩
      refine ⟨⟨_, hcond.1, fun c hc => List.mem_takeWhile_imp hc, rfl⟩, tail, ?_⟩
      have hsplit := List.takeWhile_append_dropWhile (p := isDecimal) (l := rest)
      rw [htail] at hsplit
      simp [hsplit]
    · cases h
  · cases h

theorem pieces_skip (k : Nat) (s : Text) : pieces k s = pieces 0 (s.drop k) := by
  induction s generalizing k with
  | nil => cases k <;> simp [pieces]
  | cons c rest ih =>
      cases k with
      | zero => rfl
      | succ k => simp only [pieces, ih k, List.drop_succ_cons]

theorem pieces_citation {m : Text} (hm : IsCitation m) (rest : Text) :
    pieces 0 (m ++ rest) = .citation m :: pieces 0 rest := by
  have hmatch := citationMatch_append hm rest
  rcases hm with ⟨digits, -, -, rfl⟩
  simp only [List.cons_append] at hmatch ⊢
  simp only [pieces, hmatch]
  rw [pieces_skip]
  simp

theorem pieces_text {c : Char} {rest : Text} (h : citationMatch (c :: rest) = none) :
    pieces 0 (c :: rest) = .text c :: pieces 0 rest := by
  simp only [pieces, h]

def Piece.literal : Piece -> Text
  | .text c => [c]
  | .citation m => m

def render (ps : List Piece) : Text :=
  ps.flatMap Piece.literal

def citations (ps : List Piece) : List Text :=
  ps.filterMap Piece.citation?

def Matched (ps : List Piece) : Prop :=
  forall m, Piece.citation m ∈ ps -> IsCitation m

/-- Characters outside the matches spell a citation. -/
def Spells (ps : List Piece) : Prop :=
  exists m, IsCitation m ∧ m.map Piece.text <:+: ps

theorem pieces_matched (k : Nat) (s : Text) : Matched (pieces k s) := by
  induction s generalizing k with
  | nil =>
      intro m hm
      cases k <;> cases hm
  | cons c rest ih =>
      intro m hm
      cases k with
      | succ k => exact ih k m hm
      | zero =>
          unfold pieces at hm
          split at hm
          · rename_i m' hmatch
            rcases List.mem_cons.mp hm with heq | hrest
            · cases heq
              exact (citationMatch_some hmatch).1
            · exact ih _ m hrest
          · rcases List.mem_cons.mp hm with heq | hrest
            · cases heq
            · exact ih 0 m hrest

theorem render_text (m : Text) : render (m.map Piece.text) = m := by
  induction m with
  | nil => rfl
  | cons c rest ih => simpa [render, Piece.literal] using ih

theorem citations_text (m : Text) : citations (m.map Piece.text) = [] := by
  simp [citations, Piece.citation?]

theorem render_append (ps qs : List Piece) : render (ps ++ qs) = render ps ++ render qs := by
  simp [render]

theorem citations_append (ps qs : List Piece) :
    citations (ps ++ qs) = citations ps ++ citations qs := by
  simp [citations]

theorem text_start {w rest : Text} {ps : List Piece} (hps : Matched ps)
    (hw : forall c, c ∈ w -> c ≠ '[') (h : render ps = w ++ rest) :
    w.map Piece.text <+: ps := by
  induction w generalizing ps with
  | nil => exact List.nil_prefix
  | cons c w ih =>
      cases ps with
      | nil => cases h
      | cons p ps =>
          have htail : Matched ps := fun m hm => hps m (List.mem_cons_of_mem p hm)
          cases p with
          | text c' =>
              simp only [render, List.flatMap_cons, Piece.literal, List.cons_append,
                List.nil_append, List.cons.injEq] at h
              rcases h with ⟨rfl, h⟩
              exact List.cons_prefix_cons.mpr
                ⟨rfl, ih htail (fun c hc => hw c (List.mem_cons_of_mem _ hc)) h⟩
          | citation m =>
              rcases hps m List.mem_cons_self with ⟨digits, -, -, rfl⟩
              simp only [render, List.flatMap_cons, Piece.literal, List.cons_append,
                List.cons.injEq] at h
              exact absurd h.1.symm (hw c List.mem_cons_self)

theorem pieces_render {ps : List Piece} (hps : Matched ps) (h : ¬ Spells ps) :
    pieces 0 (render ps) = ps := by
  induction ps with
  | nil => rfl
  | cons p ps ih =>
      have htail : Matched ps := fun m hm => hps m (List.mem_cons_of_mem p hm)
      have hrest : ¬ Spells ps := by
        intro h
        rcases h with ⟨m, hm, hinside⟩
        exact h ⟨m, hm, hinside.trans (List.infix_cons (List.infix_refl ps))⟩
      cases p with
      | citation m =>
          change pieces 0 (m ++ render ps) = _
          rw [pieces_citation (hps m List.mem_cons_self), ih htail hrest]
      | text c =>
          change pieces 0 (c :: render ps) = _
          cases hmatch : citationMatch (c :: render ps) with
          | none => rw [pieces_text hmatch, ih htail hrest]
          | some m =>
              rcases citationMatch_some hmatch with ⟨hm, rest, heq⟩
              refine absurd ⟨m, hm, List.IsPrefix.isInfix ?_⟩ h
              rcases hm with ⟨digits, -, hdigits, rfl⟩
              simp only [List.cons_append, List.cons.injEq] at heq
              rcases heq with ⟨rfl, heq⟩
              have hprefix := text_start (w := 'S' :: digits ++ [']']) htail ?_ (by simpa using heq)
              · exact List.cons_prefix_cons.mpr ⟨rfl, hprefix⟩
              · intro c hc hbracket
                subst hbracket
                simp only [List.cons_append, List.mem_cons, List.mem_append, List.not_mem_nil,
                  or_false] at hc
                rcases hc with hc | hc | hc
                · cases hc
                · have hdecimal := hdigits _ hc
                  revert hdecimal
                  decide
                · cases hc

theorem exists_unspelled {ps : List Piece} (hps : Matched ps) :
    exists qs, Matched qs ∧ ¬ Spells qs ∧ render qs = render ps ∧
      (citations ps).length ≤ (citations qs).length ∧
      (Spells ps -> (citations ps).length < (citations qs).length) := by
  by_cases h : Spells ps
  · rcases h with ⟨m, hm, before, after, hsplit⟩
    -- the spelled citation as one piece
    have hmatched : Matched (before ++ [Piece.citation m] ++ after) := by
      intro m' hm'
      simp only [List.mem_append, List.mem_singleton] at hm'
      rw [← hsplit] at hps
      rcases hm' with (hbefore | heq) | hafter
      · exact hps m' (List.mem_append_left _ (List.mem_append_left _ hbefore))
      · cases heq
        exact hm
      · exact hps m' (List.mem_append_right _ hafter)
    have hshorter : (before ++ [Piece.citation m] ++ after).length < ps.length := by
      rw [← hsplit]
      rcases hm with ⟨digits, -, -, rfl⟩
      simp only [List.length_append, List.length_cons, List.length_nil, List.length_map]
      omega
    rcases exists_unspelled hmatched with ⟨qs, hqs, hnot, hrender, hle, -⟩
    have hmore : (citations ps).length < (citations qs).length := by
      refine Nat.lt_of_lt_of_le ?_ hle
      rw [← hsplit]
      simp only [citations_append, citations_text, List.length_append]
      simp [citations, Piece.citation?]
    refine ⟨qs, hqs, hnot, ?_, Nat.le_of_lt hmore, fun _ => hmore⟩
    rw [hrender, ← hsplit]
    simp only [render_append, render_text]
    simp [render, Piece.literal]
  · exact ⟨ps, hps, h, rfl, Nat.le_refl _, fun hspells => absurd hspells h⟩
termination_by ps.length
decreasing_by exact hshorter

/-- The pieces of a text are as many matches as it has if its characters spell none. -/
theorem findCitations_render_iff {ps : List Piece} (hps : Matched ps) :
    findCitations (render ps) = citations ps ↔ ¬ Spells ps := by
  constructor
  · intro h hspells
    rcases exists_unspelled hps with ⟨qs, hqs, hnot, hrender, -, hlt⟩
    have hqsPieces := pieces_render hqs hnot
    rw [hrender] at hqsPieces
    have heq : citations qs = citations ps := by
      rw [← h, findCitations, hqsPieces]
      rfl
    exact Nat.lt_irrefl _ (heq ▸ hlt hspells)
  · intro h
    rw [findCitations, pieces_render hps h]
    rfl

/-!
# Sanitizing

Sanitizing keeps the characters and the known citations.
-/

def Piece.Kept (known : List Text) : Piece -> Bool
  | .text _ => true
  | .citation m => m ∈ known

def keptPieces (answer : Text) (sources : List GetSourceDetail) : List Piece :=
  (pieces 0 answer).filter (Piece.Kept (sources.map GetSourceDetail.citation))

theorem sanitizeAnswerCitations_eq (answer : Text) (sources : List GetSourceDetail) :
    sanitizeAnswerCitations answer sources = render (keptPieces answer sources) := by
  unfold sanitizeAnswerCitations keptPieces
  induction pieces 0 answer with
  | nil => rfl
  | cons p ps ih =>
      rw [List.flatMap_cons, ih, List.filter_cons]
      cases p with
      | text c => rfl
      | citation m =>
          by_cases hm : m ∈ sources.map GetSourceDetail.citation <;>
            simp [Piece.sanitized, Piece.Kept, render, Piece.literal, hm]

theorem citations_keptPieces (answer : Text) (sources : List GetSourceDetail) :
    citations (keptPieces answer sources) =
      (findCitations answer).filter fun m => m ∈ sources.map GetSourceDetail.citation := by
  unfold keptPieces findCitations citations
  induction pieces 0 answer with
  | nil => rfl
  | cons p ps ih =>
      cases p with
      | text c => simpa only [List.filter_cons, Piece.Kept, if_true, List.filterMap_cons,
          Piece.citation?] using ih
      | citation m =>
          by_cases hm : m ∈ sources.map GetSourceDetail.citation
          · simp only [List.filter_cons, Piece.Kept, hm, decide_true, if_true,
              List.filterMap_cons, Piece.citation?, ih]
          · simp only [List.filter_cons, Piece.Kept, hm, decide_false, Bool.false_eq_true,
              if_false, List.filterMap_cons, Piece.citation?, ih]

theorem keptPieces_matched (answer : Text) (sources : List GetSourceDetail) :
    Matched (keptPieces answer sources) :=
  fun m hm => pieces_matched 0 answer m (List.mem_of_mem_filter hm)

theorem byCitation_isSome {sources : List GetSourceDetail} {m : Text} :
    (byCitation sources m).isSome = true ↔ m ∈ sources.map GetSourceDetail.citation := by
  simp [byCitation, List.find?_isSome]

/-- What `sanitize_answer_citations` is meant to do to the citations of an answer. -/
structure CitationLaw (answer : Text) (sources : List GetSourceDetail) : Prop where
  restricted : findCitations (sanitizeAnswerCitations answer sources) =
    (findCitations answer).filter fun m => m ∈ sources.map GetSourceDetail.citation
  known : forall m, m ∈ findCitations (sanitizeAnswerCitations answer sources) ->
    m ∈ sources.map GetSourceDetail.citation
  again : sanitizeAnswerCitations (sanitizeAnswerCitations answer sources) sources =
    sanitizeAnswerCitations answer sources
  cited : extractCitedChunkIds (sanitizeAnswerCitations answer sources) sources =
    extractCitedChunkIds answer sources

/-- The law holds exactly where no citation is spelled across the ones that are left out. -/
theorem citations_sanitized_iff (answer : Text) (sources : List GetSourceDetail) :
    CitationLaw answer sources ↔ ¬ Spells (keptPieces answer sources) := by
  have hmatched := keptPieces_matched answer sources
  have hrestricted := findCitations_render_iff hmatched
  rw [← sanitizeAnswerCitations_eq, citations_keptPieces] at hrestricted
  constructor
  · intro h
    exact hrestricted.mp h.restricted
  · intro h
    have hlaw := hrestricted.mpr h
    refine ⟨hlaw, fun m hm => ?_, ?_, ?_⟩
    · rw [hlaw, List.mem_filter, decide_eq_true_eq] at hm
      exact hm.2
    · rw [sanitizeAnswerCitations_eq (sanitizeAnswerCitations answer sources), keptPieces,
        sanitizeAnswerCitations_eq answer, pieces_render hmatched h, keptPieces,
        List.filter_filter]
      simp
    · unfold extractCitedChunkIds
      rw [hlaw, List.filterMap_filter]
      congr 2
      funext m
      by_cases hm : m ∈ sources.map GetSourceDetail.citation
      · simp [hm]
      · have hnone : byCitation sources m = none := by
          rw [← Option.not_isSome_iff_eq_none, byCitation_isSome]
          exact hm
        simp [hm, hnone]

/-!
# A citation spelled across another one

The characters around an unknown citation may spell another one.
-/

namespace Sample

def firstSource : GetSourceDetail where
  knowledgeBaseId := 1
  documentId := 3
  documentName := "a.txt".toList
  chunkId := 6
  chunkIndex := 0
  content := "a".toList
  score := 1 / 61
  rerankScore := none
  citation := "[S1]".toList

end Sample

/-- Leaving out `[S9]` turns `[S[S9]8]` into the unknown citation `[S8]`. -/
theorem citations_sanitized_fails :
    sanitizeAnswerCitations "[S[S9]8]".toList [Sample.firstSource] = "[S8]".toList ∧
      ¬ CitationLaw "[S[S9]8]".toList [Sample.firstSource] := by
  have hsanitized : sanitizeAnswerCitations "[S[S9]8]".toList [Sample.firstSource] =
      "[S8]".toList := by decide +kernel
  refine ⟨hsanitized, fun h => ?_⟩
  have hknown := h.known "[S8]".toList
  rw [hsanitized] at hknown
  revert hknown
  decide +kernel

end RagService
