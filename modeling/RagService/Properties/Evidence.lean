import RagService.Query.Answer

/-!
# Answers from evidence

The evidence gate looks at all retrieved sources, while the model sees the distinct ones
that fit into its context.  The sizes of the sources tell which of them fit whole and where
the budget cuts the next one; the two views agree where one of these shows what the question
asks for.
-/

namespace RagService

open Text Context QueryService

/-!
# What fits into the context

The sources that fit whole are placed so, and what is left of the budget then cuts the next
one; the loop selects the distinct sources, as many as are allowed, that have a place.  A text
that fits but for white space at its end is not cut.
-/

/-- The text is about the question: it has one of its markers, or there are none. -/
def Marks (question content : Text) : Prop :=
  requiredMarkers question = [] ∨
    exists marker, marker ∈ requiredMarkers question ∧ marker <:+: content

def distinctSources : List (Nat × Text) -> List GetSourceDetail -> List GetSourceDetail
  | _, [] => []
  | seen, source :: rest =>
      if dedupeKey source ∈ seen then distinctSources seen rest
      else source :: distinctSources (seen ++ [dedupeKey source]) rest

def sourceLabel (source : GetSourceDetail) : Text :=
  source.citation ++ [' ']

def fittingContent (maxUnits used : Nat) (source : GetSourceDetail) : Text :=
  truncateToUnits source.content (maxUnits - used - estimateTokenUnits (sourceLabel source))

def usedWith (maxUnits used : Nat) (source : GetSourceDetail) : Nat :=
  used + estimateTokenUnits (sourceLabel source ++ fittingContent maxUnits used source)

def wholeUnits (source : GetSourceDetail) : Nat :=
  estimateTokenUnits (sourceLabel source ++ rstrip source.content)

/-- The leading sources that fit whole, none of them blank. -/
def wholeSources (maxUnits : Nat) : Nat -> List GetSourceDetail -> List GetSourceDetail
  | _, [] => []
  | used, source :: rest =>
      if rstrip source.content = [] ∨ maxUnits < used + wholeUnits source then []
      else source :: wholeSources maxUnits (used + wholeUnits source) rest

def wholeTotal (maxUnits : Nat) (sources : List GetSourceDetail) : Nat :=
  ((wholeSources maxUnits 0 sources).map wholeUnits).sum

def restSources (maxUnits : Nat) (sources : List GetSourceDetail) : List GetSourceDetail :=
  sources.drop (wholeSources maxUnits 0 sources).length

/-- The next source with what the whole ones leave room for, if that is not blank. -/
def cutSources (maxUnits : Nat) (sources : List GetSourceDetail) : List GetSourceDetail :=
  match restSources maxUnits sources with
  | [] => []
  | source :: _ =>
      if fittingContent maxUnits (wholeTotal maxUnits sources) source = [] then []
      else
        [{ source with content := fittingContent maxUnits (wholeTotal maxUnits sources) source }]

/-- The cut source leaves so much of the budget that another one has a place. -/
def PlacedAfterCut (maxUnits : Nat) (sources : List GetSourceDetail) : Prop :=
  exists source next later, restSources maxUnits sources = source :: next :: later ∧
    fittingContent maxUnits (wholeTotal maxUnits sources) source ≠ [] ∧
      fittingContent maxUnits (usedWith maxUnits (wholeTotal maxUnits sources) source) next ≠ []

/-- A source that fits whole is about the question, or what is left of the cut one is. -/
def Shows (question : Text) (maxUnits : Nat) (sources : List GetSourceDetail) : Prop :=
  (exists source, source ∈ wholeSources maxUnits 0 sources ∧
    Marks question (rstrip source.content)) ∨
    exists source, source ∈ cutSources maxUnits sources ∧ Marks question source.content

def placedSources (maxUnits : Nat) : Nat -> List GetSourceDetail -> List GetSourceDetail
  | _, [] => []
  | used, source :: rest =>
      if fittingContent maxUnits used source = [] then []
      else { source with content := fittingContent maxUnits used source } ::
        placedSources maxUnits (usedWith maxUnits used source) rest

theorem unitCost_pos (c : Char) : 0 < unitCost c := by
  unfold unitCost
  split <;> decide

theorem truncateToUnits_zero (text : Text) : truncateToUnits text 0 = [] := by
  cases text with
  | nil => rfl
  | cons c rest =>
      have hcost : 0 < 0 + unitCost c := by
        rw [Nat.zero_add]
        exact unitCost_pos c
      rw [truncateToUnits, takeUnits, if_pos hcost]
      rfl

theorem estimateTokenUnits_append (s t : Text) :
    estimateTokenUnits (s ++ t) = estimateTokenUnits s + estimateTokenUnits t := by
  simp [estimateTokenUnits]

theorem estimateTokenUnits_cons (c : Char) (s : Text) :
    estimateTokenUnits (c :: s) = unitCost c + estimateTokenUnits s := by
  simp [estimateTokenUnits]

theorem takeUnits_append {availableUnits used : Nat} {s : Text} (t : Text)
    (h : used + estimateTokenUnits s ≤ availableUnits) :
    takeUnits availableUnits used (s ++ t) =
      s ++ takeUnits availableUnits (used + estimateTokenUnits s) t := by
  induction s generalizing used with
  | nil => rfl
  | cons c rest ih =>
      rw [estimateTokenUnits_cons, ← Nat.add_assoc] at h ⊢
      have hfits : ¬ availableUnits < used + unitCost c := by omega
      rw [List.cons_append, takeUnits, if_neg hfits, ih h]
      rfl

theorem takeUnits_isPrefix (availableUnits used : Nat) (text : Text) :
    takeUnits availableUnits used text <+: text := by
  induction text generalizing used with
  | nil => exact List.prefix_rfl
  | cons c rest ih =>
      unfold takeUnits
      split
      · exact List.nil_prefix
      · exact (List.prefix_cons_inj c).mpr (ih _)

theorem rstrip_append_spaces (text : Text) :
    exists spaces, text = rstrip text ++ spaces ∧ forall c, c ∈ spaces -> isSpace c = true := by
  refine ⟨(text.reverse.takeWhile isSpace).reverse, ?_, ?_⟩
  · rw [rstrip, ← List.reverse_append, List.takeWhile_append_dropWhile,
      List.reverse_reverse]
  · intro c hc
    exact List.mem_takeWhile_imp (List.mem_reverse.mp hc)

theorem rstrip_append_of_spaces {spaces : Text} (s : Text)
    (h : forall c, c ∈ spaces -> isSpace c = true) : rstrip (s ++ spaces) = rstrip s := by
  unfold rstrip
  rw [List.reverse_append, List.dropWhile_append_of_pos]
  intro c hc
  exact h c (List.mem_reverse.mp hc)

theorem rstrip_rstrip (text : Text) : rstrip (rstrip text) = rstrip text := by
  rcases rstrip_append_spaces text with ⟨spaces, htext, hspaces⟩
  have htrimmed := rstrip_append_of_spaces (rstrip text) hspaces
  rw [← htext] at htrimmed
  exact htrimmed.symm

theorem truncateToUnits_of_fits {text : Text} {availableUnits : Nat}
    (h : estimateTokenUnits (rstrip text) ≤ availableUnits) :
    truncateToUnits text availableUnits = rstrip text := by
  rcases rstrip_append_spaces text with ⟨spaces, htext, hspaces⟩
  have hfits : 0 + estimateTokenUnits (rstrip text) ≤ availableUnits := by
    rw [Nat.zero_add]
    exact h
  have htaken := takeUnits_append spaces hfits
  rw [← htext] at htaken
  rw [truncateToUnits, htaken, rstrip_append_of_spaces, rstrip_rstrip]
  intro c hc
  exact hspaces c ((takeUnits_isPrefix _ _ spaces).subset hc)

theorem placedSources_full {maxUnits used : Nat} (h : maxUnits ≤ used)
    (sources : List GetSourceDetail) : placedSources maxUnits used sources = [] := by
  cases sources with
  | nil => rfl
  | cons source rest =>
      have hzero : maxUnits - used = 0 := Nat.sub_eq_zero_of_le h
      simp [placedSources, fittingContent, hzero, truncateToUnits_zero]

def trimmed (source : GetSourceDetail) : GetSourceDetail :=
  { source with content := rstrip source.content }

/-- The sources that fit whole are placed so, and then the others have what is left. -/
theorem placedSources_eq (maxUnits used : Nat) (sources : List GetSourceDetail) :
    placedSources maxUnits used sources =
      (wholeSources maxUnits used sources).map trimmed ++
        placedSources maxUnits (used + ((wholeSources maxUnits used sources).map wholeUnits).sum)
          (sources.drop (wholeSources maxUnits used sources).length) := by
  induction sources generalizing used with
  | nil => rfl
  | cons source rest ih =>
      by_cases hwhole : rstrip source.content = [] ∨ maxUnits < used + wholeUnits source
      · have hnone : wholeSources maxUnits used (source :: rest) = [] := by
          rw [wholeSources, if_pos hwhole]
        rw [hnone]
        rfl
      · have hcons : wholeSources maxUnits used (source :: rest) =
            source :: wholeSources maxUnits (used + wholeUnits source) rest := by
          rw [wholeSources, if_neg hwhole]
        rw [not_or, Nat.not_lt] at hwhole
        have hfits : fittingContent maxUnits used source = rstrip source.content := by
          have hunits := hwhole.2
          rw [wholeUnits, estimateTokenUnits_append] at hunits
          exact truncateToUnits_of_fits (by omega)
        have hused : usedWith maxUnits used source = used + wholeUnits source := by
          rw [usedWith, hfits, wholeUnits]
        rw [hcons, placedSources, if_neg (by rw [hfits]; exact hwhole.1), hused, hfits, ih]
        simp only [List.map_cons, List.sum_cons, List.length_cons, List.drop_succ_cons,
          Nat.add_assoc, List.cons_append, trimmed]

theorem placedSources_isPrefix (maxUnits : Nat) (sources : List GetSourceDetail) :
    (wholeSources maxUnits 0 sources).map trimmed ++ cutSources maxUnits sources <+:
      placedSources maxUnits 0 sources := by
  rw [placedSources_eq, Nat.zero_add, List.prefix_append_right_inj]
  change _ <+: placedSources maxUnits (wholeTotal maxUnits sources) (restSources maxUnits sources)
  unfold cutSources
  cases restSources maxUnits sources with
  | nil => exact List.nil_prefix
  | cons source later =>
      rw [placedSources]
      dsimp only
      split
      · exact List.nil_prefix
      · exact (List.prefix_cons_inj _).mpr List.nil_prefix

theorem placedSources_of_not_after {maxUnits : Nat} {sources : List GetSourceDetail}
    (h : ¬ PlacedAfterCut maxUnits sources) :
    placedSources maxUnits 0 sources =
      (wholeSources maxUnits 0 sources).map trimmed ++ cutSources maxUnits sources := by
  rw [placedSources_eq, Nat.zero_add]
  change _ ++ placedSources maxUnits (wholeTotal maxUnits sources)
    (restSources maxUnits sources) = _
  congr 1
  unfold cutSources
  cases hrest : restSources maxUnits sources with
  | nil => rfl
  | cons source later =>
      rw [placedSources]
      dsimp only
      split
      · rfl
      · rename_i hcut
        congr 1
        cases later with
        | nil => rfl
        | cons next later =>
            rw [placedSources, if_pos]
            by_contra hnext
            exact h ⟨source, next, later, hrest, hcut, hnext⟩

theorem selectSources_eq {maxSources maxUnits : Nat} (sources : List GetSourceDetail)
    (s : Selecting) (hs : s.selectedSources.length ≤ maxSources) :
    (selectSources maxSources maxUnits s sources).selectedSources =
      s.selectedSources ++ placedSources maxUnits s.usedUnits
        ((distinctSources s.seen sources).take (maxSources - s.selectedSources.length)) := by
  induction sources generalizing s with
  | nil => simp [selectSources, distinctSources, placedSources]
  | cons source rest ih =>
      unfold selectSources distinctSources
      by_cases hseen : dedupeKey source ∈ s.seen
      · rw [if_pos (.inl hseen), if_pos hseen]
        exact ih s hs
      rw [if_neg hseen]
      by_cases hfull : s.selectedSources.length = maxSources
      · rw [if_pos (.inr hfull), ih s hs, hfull, Nat.sub_self, List.take_zero, List.take_zero]
      rw [if_neg (not_or.mpr ⟨hseen, hfull⟩)]
      -- there is room for this source
      obtain ⟨k, hk⟩ : exists k, maxSources - s.selectedSources.length = k + 1 :=
        Nat.exists_eq_succ_of_ne_zero
          (Nat.sub_ne_zero_of_lt (Nat.lt_of_le_of_ne hs hfull))
      rw [hk, List.take_succ_cons, placedSources]
      dsimp only
      split
      · rename_i hnone
        have hcut : fittingContent maxUnits s.usedUnits source = [] := by
          rw [fittingContent, sourceLabel, hnone, truncateToUnits_zero]
        rw [if_pos hcut, List.append_nil]
      split
      · rename_i hempty
        have hcut : fittingContent maxUnits s.usedUnits source = [] :=
          List.isEmpty_iff.mp hempty
        rw [if_pos hcut, List.append_nil]
      rename_i hempty
      have hcut : fittingContent maxUnits s.usedUnits source ≠ [] :=
        fun h => hempty (List.isEmpty_iff.mpr h)
      rw [if_neg hcut]
      split
      · rename_i hused
        have hfull : forall sources,
            placedSources maxUnits (usedWith maxUnits s.usedUnits source) sources = [] :=
          placedSources_full hused
        rw [hfull]
        rfl
      · rw [ih]
        · have hleft : maxSources - (s.selectedSources.length + 1) = k := by omega
          rw [List.length_append, List.length_singleton, hleft]
          exact List.append_assoc _ _ _
        · simp only [List.length_append, List.length_singleton]
          exact Nat.succ_le_of_lt (Nat.lt_of_le_of_ne hs hfull)

/-!
# The gate

An answered question has evidence among the retrieved sources, and its sources are those of the
context.
-/

theorem hasSufficientScopeEvidence_iff {question : Text} {sources : List GetSourceDetail} :
    hasSufficientScopeEvidence question sources = true ↔
      exists source, source ∈ sources ∧ Marks question source.content := by
  unfold hasSufficientScopeEvidence Marks
  dsimp only
  split
  · rename_i hnone
    rw [List.isEmpty_iff] at hnone
    simp only [hnone, true_or, and_true, Bool.not_eq_true', List.isEmpty_eq_false_iff]
    constructor
    · exact List.exists_mem_of_ne_nil sources
    · intro h
      rcases h with ⟨source, hsource⟩
      exact List.ne_nil_of_mem hsource
  · rename_i hsome
    rw [List.isEmpty_iff] at hsome
    simp only [hsome, false_or, List.any_eq_true, decide_eq_true_eq]
    constructor
    · intro h
      rcases h with ⟨marker, hmarker, source, hsource, hmarks⟩
      exact ⟨source, hsource, marker, hmarker, hmarks⟩
    · intro h
      rcases h with ⟨source, hsource, marker, hmarker, hmarks⟩
      exact ⟨marker, hmarker, source, hsource, hmarks⟩

theorem placed_of_shows {question : Text} {maxUnits : Nat} {sources : List GetSourceDetail}
    (h : Shows question maxUnits sources) :
    exists source, source ∈ placedSources maxUnits 0 sources ∧
      Marks question source.content := by
  have hplaced := (placedSources_isPrefix maxUnits sources).subset
  rcases h with ⟨source, hsource, hmarks⟩ | ⟨source, hsource, hmarks⟩
  · exact ⟨trimmed source, hplaced (List.mem_append_left _ (List.mem_map_of_mem hsource)), hmarks⟩
  · exact ⟨source, hplaced (List.mem_append_right _ hsource), hmarks⟩

theorem shows_of_placed {question : Text} {maxUnits : Nat} {sources : List GetSourceDetail}
    {source : GetSourceDetail} (hafter : ¬ PlacedAfterCut maxUnits sources)
    (hsource : source ∈ placedSources maxUnits 0 sources)
    (hmarks : Marks question source.content) : Shows question maxUnits sources := by
  rw [placedSources_of_not_after hafter, List.mem_append] at hsource
  rcases hsource with htrimmed | hcut
  · rcases List.mem_map.mp htrimmed with ⟨whole, hwhole, heq⟩
    rw [← heq] at hmarks
    exact .inl ⟨whole, hwhole, hmarks⟩
  · exact .inr ⟨source, hcut, hmarks⟩

/-- Every answered question is answered from evidence. -/
def AnsweredFromEvidence (cfg : AnswerSettings) (question : Text)
    (sources : List GetSourceDetail) : Prop :=
  forall complete mode traceId result,
    answer cfg complete mode question traceId sources = .ok result ->
      result.status = .answered ->
        result.sources ≠ [] ∧ hasSufficientScopeEvidence question result.sources = true

def candidates (cfg : AnswerSettings) (sources : List GetSourceDetail) : List GetSourceDetail :=
  (distinctSources [] sources).take cfg.finalContextK

theorem buildBoundedContext_sources {cfg : AnswerSettings} (hsources : 1 ≤ cfg.finalContextK)
    (htokens : 1 ≤ cfg.contextMaxTokens) (sources : List GetSourceDetail) :
    exists selection,
      buildBoundedContext sources cfg.finalContextK cfg.contextMaxTokens = .ok selection ∧
        selection.sources =
          placedSources (cfg.contextMaxTokens * 4) 0 (candidates cfg sources) := by
  have hlimits : ¬ (cfg.finalContextK < 1 ∨ cfg.contextMaxTokens < 1) := by omega
  refine ⟨_, if_neg hlimits, ?_⟩
  exact selectSources_eq sources ⟨0, [], [], []⟩ (Nat.zero_le _)

theorem answer_sources {cfg : AnswerSettings} {complete : Text -> Text -> Except Exception Text}
    {mode : QueryMode} {question traceId : Text} {sources : List GetSourceDetail}
    {result : GetAnswerDetail} (hsources : 1 ≤ cfg.finalContextK)
    (htokens : 1 ≤ cfg.contextMaxTokens)
    (hanswer : answer cfg complete mode question traceId sources = .ok result)
    (hstatus : result.status = .answered) :
    hasSufficientScopeEvidence question sources = true ∧
      result.sources = placedSources (cfg.contextMaxTokens * 4) 0 (candidates cfg sources) := by
  rcases buildBoundedContext_sources hsources htokens sources with
    ⟨selection, hselection, hplaced⟩
  unfold answer at hanswer
  dsimp only at hanswer
  split at hanswer
  · cases hanswer
    cases hstatus
  · rename_i hevidence
    rw [hselection] at hanswer
    cases hcomplete : complete question selection.context with
    | error e =>
        simp only [bind, Except.bind, hcomplete] at hanswer
        cases hanswer
    | ok text =>
        simp only [bind, Except.bind, hcomplete, pure, Except.pure] at hanswer
        cases hanswer
        exact ⟨Bool.not_eq_false _ ▸ hevidence, hplaced⟩

theorem answer_answered {cfg : AnswerSettings} {question : Text}
    {sources : List GetSourceDetail} (hsources : 1 ≤ cfg.finalContextK)
    (htokens : 1 ≤ cfg.contextMaxTokens)
    (hevidence : hasSufficientScopeEvidence question sources = true) :
    exists result,
      answer cfg (fun _ _ => .ok []) .basic question [] sources = .ok result ∧
        result.status = .answered := by
  rcases buildBoundedContext_sources hsources htokens sources with ⟨selection, hselection, -⟩
  unfold answer
  dsimp only
  rw [if_neg (by simp [hevidence]), hselection]
  exact ⟨_, rfl, rfl⟩

/--
The answered questions are answered from evidence when the retrieved sources that fit whole,
or the part of the next one that fits, still show it; and only then, or where a source has a
place after one that is cut.
-/
theorem answered_from_evidence {cfg : AnswerSettings} (hsources : 1 ≤ cfg.finalContextK)
    (htokens : 1 ≤ cfg.contextMaxTokens) (question : Text) (sources : List GetSourceDetail) :
    ((hasSufficientScopeEvidence question sources = true ->
        Shows question (cfg.contextMaxTokens * 4) (candidates cfg sources)) ->
      AnsweredFromEvidence cfg question sources) ∧
    (AnsweredFromEvidence cfg question sources ->
      (hasSufficientScopeEvidence question sources = true ->
        Shows question (cfg.contextMaxTokens * 4) (candidates cfg sources)) ∨
      PlacedAfterCut (cfg.contextMaxTokens * 4) (candidates cfg sources)) := by
  constructor
  · intro h complete mode traceId result hanswer hstatus
    rcases answer_sources hsources htokens hanswer hstatus with ⟨hevidence, hplaced⟩
    rcases placed_of_shows (h hevidence) with ⟨source, hsource, hmarks⟩
    rw [← hplaced] at hsource
    constructor
    · exact List.ne_nil_of_mem hsource
    · exact hasSufficientScopeEvidence_iff.mpr ⟨source, hsource, hmarks⟩
  · intro h
    by_cases hafter : PlacedAfterCut (cfg.contextMaxTokens * 4) (candidates cfg sources)
    · exact .inr hafter
    · left
      intro hevidence
      rcases answer_answered hsources htokens hevidence with ⟨result, hanswer, hstatus⟩
      have hplaced := (answer_sources hsources htokens hanswer hstatus).2
      have hshown := (h _ _ _ result hanswer hstatus).2
      rw [hplaced, hasSufficientScopeEvidence_iff] at hshown
      rcases hshown with ⟨source, hsource, hmarks⟩
      exact shows_of_placed hafter hsource hmarks

namespace Sample

def answerSettings : AnswerSettings where
  finalContextK := 8
  contextMaxTokens := 6000
  agentMaxRetrievalRounds := 2
  agentMaxToolCalls := 6

def nthSource (n : Nat) (content : Text) : GetSourceDetail where
  knowledgeBaseId := 1
  documentId := 3
  documentName := "a.txt".toList
  chunkId := 6 + n
  chunkIndex := n
  content := content
  score := 1 / (61 + n)
  rerankScore := none
  citation := "[S".toList ++ decimal (n + 1) ++ "]".toList

def plainSources : List GetSourceDetail :=
  (List.range 8).map fun n => nthSource n (decimal n)

def projectQuestion : Text := "本项目用什么数据库？".toList

def projectSource : GetSourceDetail :=
  nthSource 8 "本项目用 PostgreSQL".toList

end Sample

theorem answered_from_evidence_sample :
    AnsweredFromEvidence Sample.answerSettings Sample.projectQuestion [Sample.projectSource] := by
  refine (answered_from_evidence (by decide) (by decide) _ _).1 fun _ => .inl
    ⟨Sample.projectSource, ?_, .inr ?_⟩
  · decide +kernel
  · exact ⟨"本项目".toList, by decide +kernel, by decide +kernel⟩

/-- The ninth source is the evidence for the question, and the context has eight. -/
theorem answered_from_evidence_fails :
    ¬ AnsweredFromEvidence Sample.answerSettings Sample.projectQuestion
        (Sample.plainSources ++ [Sample.projectSource]) := by
  intro h
  have hevidence : hasSufficientScopeEvidence Sample.projectQuestion
      (Sample.plainSources ++ [Sample.projectSource]) = true := by decide +kernel
  have hsources : 1 ≤ Sample.answerSettings.finalContextK := by decide
  have htokens : 1 ≤ Sample.answerSettings.contextMaxTokens := by decide
  rcases answer_answered hsources htokens hevidence with ⟨result, hanswer, hstatus⟩
  have hplaced := (answer_sources hsources htokens hanswer hstatus).2
  have hshown := (h _ _ _ result hanswer hstatus).2
  rw [hplaced] at hshown
  revert hshown
  decide +kernel

end RagService
