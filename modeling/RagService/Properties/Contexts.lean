import Mathlib.Data.List.Forall2
import RagService.Properties.Evidence

/-!
# Bounded contexts

The context is made of the sources that get a place, each under its citation.  The running
count of the loop leaves out the blank lines between them.  The sources that fit whole and
what is left of the next one tell whether these fit in, too.
-/

namespace RagService

open Text Context

/-!
# Units

The units of a joined text are those of its parts and of what stands between them.
-/

theorem estimateTokenUnits_le_of_isPrefix {s t : Text} (h : s <+: t) :
    estimateTokenUnits s ≤ estimateTokenUnits t := by
  rcases h with ⟨rest, rfl⟩
  rw [estimateTokenUnits_append]
  exact Nat.le_add_right _ _

theorem rstrip_isPrefix (text : Text) : rstrip text <+: text := by
  unfold rstrip
  rw [← List.reverse_suffix, List.reverse_reverse]
  exact List.dropWhile_suffix _

theorem truncateToUnits_isPrefix (text : Text) (availableUnits : Nat) :
    truncateToUnits text availableUnits <+: text :=
  (rstrip_isPrefix _).trans (takeUnits_isPrefix _ _ _)

theorem units_takeUnits_le {availableUnits used : Nat} (h : used ≤ availableUnits)
    (text : Text) :
    used + estimateTokenUnits (takeUnits availableUnits used text) ≤ availableUnits := by
  induction text generalizing used with
  | nil => exact h
  | cons c rest ih =>
      unfold takeUnits
      split
      · exact h
      · rename_i hfits
        have hrest := ih (Nat.le_of_not_lt hfits)
        rw [estimateTokenUnits_cons]
        omega

theorem units_truncateToUnits_le (text : Text) (availableUnits : Nat) :
    estimateTokenUnits (truncateToUnits text availableUnits) ≤ availableUnits := by
  have htaken := units_takeUnits_le (Nat.zero_le availableUnits) text
  rw [Nat.zero_add] at htaken
  exact (estimateTokenUnits_le_of_isPrefix (rstrip_isPrefix _)).trans htaken

/-!
# Parts

The loop keeps a part for each source that gets a place, and tries the distinct ones in their
order.
-/

def sourcePart (source : GetSourceDetail) : Text :=
  sourceLabel source ++ source.content

theorem selectSources_parts {maxSources maxUnits : Nat} (sources : List GetSourceDetail)
    (s : Selecting) (hs : s.parts = s.selectedSources.map sourcePart) :
    (selectSources maxSources maxUnits s sources).parts =
      (selectSources maxSources maxUnits s sources).selectedSources.map sourcePart := by
  induction sources generalizing s with
  | nil => exact hs
  | cons source rest ih =>
      have hnext : forall content : Text,
          s.parts ++ [source.citation ++ [' '] ++ content] =
            (s.selectedSources ++ [{ source with content := content }]).map sourcePart := by
        intro content
        rw [List.map_append, hs]
        rfl
      unfold selectSources
      split
      · exact ih s hs
      · dsimp only
        split
        · exact hs
        · split
          · exact hs
          · split
            · exact hnext _
            · exact ih _ (hnext _)

def tried (maxSources : Nat) (sources : List GetSourceDetail) : List GetSourceDetail :=
  (distinctSources [] sources).take maxSources

theorem buildBoundedContext_eq {maxSources maxTokens : Nat} (hsources : 1 ≤ maxSources)
    (htokens : 1 ≤ maxTokens) (sources : List GetSourceDetail) :
    buildBoundedContext sources maxSources maxTokens =
      .ok ⟨join ['\n', '\n']
          ((placedSources (maxTokens * 4) 0 (tried maxSources sources)).map sourcePart),
        placedSources (maxTokens * 4) 0 (tried maxSources sources)⟩ := by
  have hlimits : ¬ (maxSources < 1 ∨ maxTokens < 1) := by omega
  have hplaced := @selectSources_eq maxSources (maxTokens * 4) sources ⟨0, [], [], []⟩
    (Nat.zero_le maxSources)
  rw [buildBoundedContext, if_neg hlimits]
  dsimp only
  rw [selectSources_parts sources _ rfl, hplaced]
  rfl

/-!
# Faithful selection

The placed sources are the first of those that are tried, cut.
-/

/-- A source of the context is a source of the retrieval with its content cut. -/
def CutFrom (source placed : GetSourceDetail) : Prop :=
  placed = { source with content := placed.content } ∧ placed.content ≠ [] ∧
    placed.content <+: source.content

theorem distinctSources_sublist (seen : List (Nat × Text)) (sources : List GetSourceDetail) :
    (distinctSources seen sources).Sublist sources := by
  induction sources generalizing seen with
  | nil => exact .slnil
  | cons source rest ih =>
      unfold distinctSources
      split
      · exact (ih seen).cons source
      · exact (ih _).cons_cons source

theorem distinctSources_nodup (seen : List (Nat × Text)) (sources : List GetSourceDetail) :
    ((distinctSources seen sources).map dedupeKey).Nodup ∧
      forall key, key ∈ (distinctSources seen sources).map dedupeKey -> key ∉ seen := by
  induction sources generalizing seen with
  | nil => simp [distinctSources]
  | cons source rest ih =>
      unfold distinctSources
      split
      · exact ih seen
      · rename_i hnew
        rcases ih (seen ++ [dedupeKey source]) with ⟨hnodup, hseen⟩
        rw [List.map_cons, List.nodup_cons]
        constructor
        · constructor
          · intro hmem
            exact hseen _ hmem (List.mem_append_right _ (List.mem_singleton_self _))
          · exact hnodup
        · intro key hkey
          cases List.mem_cons.mp hkey with
          | inl hfirst =>
              rw [hfirst]
              exact hnew
          | inr hrest =>
              intro hold
              exact hseen key hrest (List.mem_append_left _ hold)

theorem placedSources_cut (maxUnits used : Nat) (sources : List GetSourceDetail) :
    exists picked, picked <+: sources ∧
      List.Forall₂ CutFrom picked (placedSources maxUnits used sources) := by
  induction sources generalizing used with
  | nil => exact ⟨[], List.nil_prefix, .nil⟩
  | cons source rest ih =>
      unfold placedSources
      split
      · exact ⟨[], List.nil_prefix, .nil⟩
      · rename_i hfits
        rcases ih (usedWith maxUnits used source) with ⟨picked, hpicked, hcut⟩
        exists source :: picked
        constructor
        · exact (List.prefix_cons_inj source).mpr hpicked
        · exact .cons ⟨rfl, hfits, truncateToUnits_isPrefix _ _⟩ hcut

/--
Context selection is faithful: the sources are a subsequence of the retrieved ones, at most
as many as are allowed and no two with the same document and content, each with its content
cut to a prefix that is not empty, and the context shows just these.
-/
theorem context_selection_faithful (sources : List GetSourceDetail) (maxSources maxTokens : Nat)
    (hsources : 1 ≤ maxSources) (htokens : 1 ≤ maxTokens) :
    exists selection, buildBoundedContext sources maxSources maxTokens = .ok selection ∧
      (exists picked, picked.Sublist sources ∧ picked.length ≤ maxSources ∧
        (picked.map dedupeKey).Nodup ∧ List.Forall₂ CutFrom picked selection.sources) ∧
      selection.sources.length ≤ maxSources ∧
      selection.context = join ['\n', '\n'] (selection.sources.map fun source =>
        source.citation ++ [' '] ++ source.content) := by
  rcases placedSources_cut (maxTokens * 4) 0 (tried maxSources sources) with ⟨picked, hpicked, hcut⟩
  have hstart : picked <+: distinctSources [] sources := hpicked.trans (List.take_prefix _ _)
  have hlength : picked.length ≤ maxSources :=
    hpicked.length_le.trans (List.length_take_le _ _)
  refine ⟨_, buildBoundedContext_eq hsources htokens sources, ⟨picked, ?_, hlength, ?_, hcut⟩,
    ?_, rfl⟩
  · exact hstart.sublist.trans (distinctSources_sublist [] sources)
  · exact (distinctSources_nodup [] sources).1.sublist (hstart.sublist.map dedupeKey)
  · exact hcut.length_eq.symm.trans_le hlength

/-!
# The budget

The running count leaves out two units for each blank line between two parts; by so much the
context may exceed its budget.
-/

def spacedUnits (sources : List GetSourceDetail) : Nat :=
  (sources.map fun source => estimateTokenUnits (sourcePart source) + 2).sum

/-- The sources that fit whole and what is cut of the next one fit in with the blank lines. -/
def KeepsBudget (maxUnits : Nat) (sources : List GetSourceDetail) : Prop :=
  ((wholeSources maxUnits 0 sources).map fun source => wholeUnits source + 2).sum +
    spacedUnits (cutSources maxUnits sources) ≤ maxUnits + 2

instance (maxUnits : Nat) (sources : List GetSourceDetail) :
    Decidable (KeepsBudget maxUnits sources) :=
  inferInstanceAs (Decidable (_ ≤ _))

theorem units_join (parts : List Text) :
    estimateTokenUnits (join ['\n', '\n'] parts) =
      (parts.map fun part => estimateTokenUnits part + 2).sum - 2 := by
  induction parts with
  | nil => rfl
  | cons p rest ih =>
      cases rest with
      | nil => simp [join]
      | cons q rest =>
          have hbreak : estimateTokenUnits ['\n', '\n'] = 2 := by decide
          rw [join, estimateTokenUnits_append, estimateTokenUnits_append, ih, hbreak]
          simp only [List.map_cons, List.sum_cons]
          omega

theorem spacedUnits_trimmed (sources : List GetSourceDetail) :
    spacedUnits (sources.map trimmed) =
      (sources.map fun source => wholeUnits source + 2).sum := by
  rw [spacedUnits, List.map_map]
  rfl

theorem spacedUnits_cons (source : GetSourceDetail) (later : List GetSourceDetail) :
    spacedUnits (source :: later) =
      estimateTokenUnits (sourcePart source) + 2 + spacedUnits later :=
  List.sum_cons

theorem spacedUnits_append (sources later : List GetSourceDetail) :
    spacedUnits (sources ++ later) = spacedUnits sources + spacedUnits later := by
  rw [spacedUnits, List.map_append, List.sum_append]
  rfl

theorem context_within_iff {maxSources maxTokens : Nat} (hsources : 1 ≤ maxSources)
    (htokens : 1 ≤ maxTokens) (sources : List GetSourceDetail) :
    (exists selection, buildBoundedContext sources maxSources maxTokens = .ok selection ∧
      estimateTokenUnits selection.context ≤ 4 * maxTokens) ↔
    spacedUnits (placedSources (maxTokens * 4) 0 (tried maxSources sources)) ≤
      maxTokens * 4 + 2 := by
  have hbuild := buildBoundedContext_eq hsources htokens sources
  have hunits := units_join
    ((placedSources (maxTokens * 4) 0 (tried maxSources sources)).map sourcePart)
  rw [List.map_map] at hunits
  change _ = spacedUnits _ - 2 at hunits
  constructor
  · intro h
    rcases h with ⟨selection, hselection, hbudget⟩
    rw [hbuild] at hselection
    cases hselection
    rw [hunits] at hbudget
    omega
  · intro hspaced
    refine ⟨_, hbuild, ?_⟩
    rw [hunits]
    omega

/--
The context keeps to the budget when the sources that fit whole and what is cut of the next
one do so with their blank lines, and no source has a place after the cut one; and only then,
or where a source has such a place.
-/
theorem context_within_budget (sources : List GetSourceDetail) (maxSources maxTokens : Nat)
    (hsources : 1 ≤ maxSources) (htokens : 1 ≤ maxTokens) :
    (KeepsBudget (maxTokens * 4) ((distinctSources [] sources).take maxSources) ∧
        ¬ PlacedAfterCut (maxTokens * 4) ((distinctSources [] sources).take maxSources) ->
      exists selection, buildBoundedContext sources maxSources maxTokens = .ok selection ∧
        estimateTokenUnits selection.context ≤ 4 * maxTokens) ∧
    ((exists selection, buildBoundedContext sources maxSources maxTokens = .ok selection ∧
        estimateTokenUnits selection.context ≤ 4 * maxTokens) ->
      KeepsBudget (maxTokens * 4) ((distinctSources [] sources).take maxSources)) := by
  rw [context_within_iff hsources htokens sources]
  have hstart := placedSources_isPrefix (maxTokens * 4) (tried maxSources sources)
  constructor
  · intro h
    rcases h with ⟨hkeeps, hafter⟩
    rw [tried, placedSources_of_not_after hafter, spacedUnits_append, spacedUnits_trimmed]
    exact hkeeps
  · intro hwithin
    rcases hstart with ⟨later, hlater⟩
    rw [← hlater, spacedUnits_append, spacedUnits_append, spacedUnits_trimmed] at hwithin
    exact (Nat.le_add_right _ _).trans hwithin

theorem units_placed_le {maxUnits used : Nat} (h : used ≤ maxUnits)
    (sources : List GetSourceDetail) :
    used + spacedUnits (placedSources maxUnits used sources) ≤
      maxUnits + 2 * (placedSources maxUnits used sources).length := by
  induction sources generalizing used with
  | nil => exact h
  | cons source rest ih =>
      unfold placedSources
      split
      · exact h
      · rename_i hfits
        have havailable : estimateTokenUnits (sourceLabel source) ≤ maxUnits - used := by
          by_contra hlabel
          apply hfits
          have hzero : maxUnits - used - estimateTokenUnits (sourceLabel source) = 0 := by omega
          rw [fittingContent, hzero, truncateToUnits_zero]
        have hcontent : estimateTokenUnits (fittingContent maxUnits used source) ≤
            maxUnits - used - estimateTokenUnits (sourceLabel source) :=
          units_truncateToUnits_le _ _
        have hused : usedWith maxUnits used source =
            used + (estimateTokenUnits (sourceLabel source) +
              estimateTokenUnits (fittingContent maxUnits used source)) := by
          rw [usedWith, estimateTokenUnits_append]
        have hnext := @ih (usedWith maxUnits used source) (by omega)
        have hpart : estimateTokenUnits
            (sourcePart { source with content := fittingContent maxUnits used source }) =
              estimateTokenUnits (sourceLabel source) +
                estimateTokenUnits (fittingContent maxUnits used source) :=
          estimateTokenUnits_append _ _
        rw [List.length_cons, spacedUnits_cons, hpart]
        omega

/-- The context exceeds its budget by no more than its blank lines. -/
theorem context_exceeds_by_breaks (sources : List GetSourceDetail) {maxSources maxTokens : Nat}
    (hsources : 1 ≤ maxSources) (htokens : 1 ≤ maxTokens) {selection : ContextSelection}
    (h : buildBoundedContext sources maxSources maxTokens = .ok selection) :
    estimateTokenUnits selection.context ≤ 4 * maxTokens + 2 * (maxSources - 1) := by
  rw [buildBoundedContext_eq hsources htokens sources] at h
  cases h
  rw [units_join, List.map_map]
  change spacedUnits _ - 2 ≤ _
  have hplaced := units_placed_le (Nat.zero_le (maxTokens * 4)) (tried maxSources sources)
  rcases placedSources_cut (maxTokens * 4) 0 (tried maxSources sources) with ⟨picked, hpicked, hcut⟩
  have hlength : picked.length ≤ maxSources :=
    hpicked.length_le.trans (List.length_take_le _ _)
  rw [hcut.length_eq] at hlength
  omega

/-!
# Sample contexts
-/

theorem context_selection_faithful_sample : exists selection,
    buildBoundedContext Sample.plainSources 8 6000 = .ok selection ∧
      selection.sources.length ≤ 8 := by
  rcases context_selection_faithful Sample.plainSources 8 6000 (by decide) (by decide) with
    ⟨selection, hselection, -, hlength, -⟩
  exact ⟨selection, hselection, hlength⟩

theorem not_placedAfterCut_singleton (maxUnits : Nat) (source : GetSourceDetail) :
    ¬ PlacedAfterCut maxUnits [source] := by
  intro h
  rcases h with ⟨cut, next, later, hrest, -⟩
  have hlength := congrArg List.length hrest
  simp only [restSources, List.length_drop, List.length_cons, List.length_nil] at hlength
  omega

/-- One source has no blank line to fit in. -/
theorem context_within_budget_sample : exists selection,
    buildBoundedContext [Sample.projectSource] 8 6000 = .ok selection ∧
      estimateTokenUnits selection.context ≤ 4 * 6000 :=
  (context_within_budget [Sample.projectSource] 8 6000 (by decide) (by decide)).1
    ⟨by decide +kernel, not_placedAfterCut_singleton _ _⟩

/-- Two sources of six units each in a context of twelve. -/
theorem context_within_budget_fails :
    ¬ forall (sources : List GetSourceDetail) (maxSources maxTokens : Nat), 1 ≤ maxSources ->
      1 ≤ maxTokens -> exists selection,
        buildBoundedContext sources maxSources maxTokens = .ok selection ∧
          estimateTokenUnits selection.context ≤ 4 * maxTokens := by
  intro h
  rcases h (Sample.plainSources.take 2) 2 3 (by decide) (by decide) with
    ⟨selection, hselection, hbudget⟩
  have hunits : (buildBoundedContext (Sample.plainSources.take 2) 2 3).toOption.map
      (fun selection => estimateTokenUnits selection.context) = some 14 := by decide +kernel
  rw [hselection, Except.toOption, Option.map_some, Option.some.injEq] at hunits
  omega

end RagService
