import RagService.Evaluation.Runner
import RagService.Foundation.JsonRoundTrip
import RagService.Properties.Metrics

/-!
# Evaluation reports

What the retrieval metrics of a report say when nothing was found, and which of its fields
depend on results that are of no case.
-/

namespace RagService
namespace Reports

open Metrics Runner

/-!
# The report of a run

The retrieval metrics of a report are means over the scored cases.
-/

section

variable {K : Type} [Field K] [LinearOrder K] {log2 : Nat -> K} {isPrintable : Char -> Bool}
variable {cases : List EvaluationCase} {results : List (EvaluationResult K)} {report : Report K}

omit [LinearOrder K] in
theorem mean_eq_ok {values : List K} {m : K} :
    mean values = .ok m ↔ values ≠ [] ∧ m = values.sum / (values.length : K) := by
  cases values with
  | nil =>
      constructor
      · intro h
        cases h
      · intro h
        exact absurd rfl h.1
  | cons v rest =>
      simp only [mean, Except.ok.injEq, ne_eq, reduceCtorEq, not_false_eq_true, true_and]
      exact eq_comm

omit [LinearOrder K] in
theorem mean_zero {values : List K} {m : K} (h : mean values = .ok m)
    (hzero : forall v, v ∈ values -> v = 0) : m = 0 := by
  rw [(mean_eq_ok.mp h).2, List.sum_eq_zero hzero, zero_div]

structure Retrieval (log2 : Nat -> K) (rows : List (EvaluationCase × EvaluationResult K))
    (report : Report K) : Prop where
  recallAt5 : mean (rows.map fun (case, result) =>
    recallAtK result.retrievedChunkIds (relevant case) 5) = .ok report.recallAt5
  recallAt20 : mean (rows.map fun (case, result) =>
    recallAtK result.retrievedChunkIds (relevant case) 20) = .ok report.recallAt20
  mrr : mean (rows.map fun (case, result) =>
    reciprocalRank result.retrievedChunkIds (relevant case)) = .ok report.mrr
  ndcgAt20 : mean (rows.map fun (case, result) =>
    ndcgAtK log2 result.retrievedChunkIds case.relevance 20) = .ok report.ndcgAt20

theorem retrieval_of_assembled {mode : Text} {count : Nat} {used : Usage K}
    {rows scored : List (EvaluationCase × EvaluationResult K)}
    (h : assembleReport log2 mode count rows scored used = .ok report) : Retrieval log2 scored report := by
  unfold assembleReport at h
  rcases bind_eq_ok.mp h with ⟨recallAt5, hrecallAt5, h⟩
  rcases bind_eq_ok.mp h with ⟨recallAt20, hrecallAt20, h⟩
  rcases bind_eq_ok.mp h with ⟨mrr, hmrr, h⟩
  rcases bind_eq_ok.mp h with ⟨ndcgAt20, hndcgAt20, h⟩
  rcases bind_eq_ok.mp h with ⟨p50, -, h⟩
  rcases bind_eq_ok.mp h with ⟨p95, -, h⟩
  rcases bind_eq_ok.mp h with ⟨answer, -, h⟩
  cases h
  exact ⟨hrecallAt5, hrecallAt20, hmrr, hndcgAt20⟩

theorem assembled_of_report (h : buildReport log2 isPrintable cases results = .ok report) :
    exists mode, evaluationMode results = .ok mode ∧
      assembleReport log2 mode cases.length (measured cases results) (scored cases results)
        (usage results) = .ok report := by
  unfold buildReport at h
  dsimp only at h
  split at h
  · cases h
  · exact bind_eq_ok.mp h

theorem retrieval_of_report (h : buildReport log2 isPrintable cases results = .ok report) :
    Retrieval log2 (scored cases results) report := by
  rcases assembled_of_report h with ⟨mode, -, hassembled⟩
  exact retrieval_of_assembled hassembled

/-!
# Nothing found

Recall and reciprocal rank are zero on a total miss; the report has nothing else to show.
-/

/-- No case with relevant ids has one of them retrieved. -/
def TotalMiss (cases : List EvaluationCase) (results : List (EvaluationResult K)) : Prop :=
  forall row, row ∈ scored cases results ->
    forall chunkId, chunkId ∈ row.2.retrievedChunkIds -> chunkId ∉ row.1.relevantChunkIds

/-- Every retrieval metric is zero. -/
def NothingFound (report : Report K) : Prop :=
  report.recallAt5 = 0 ∧ report.recallAt20 = 0 ∧ report.mrr = 0 ∧ report.ndcgAt20 = 0

omit [Field K] [LinearOrder K] in
theorem relevant_ne_empty {row : EvaluationCase × EvaluationResult K}
    (h : row ∈ scored cases results) : relevant row.1 ≠ ∅ :=
  of_decide_eq_true (List.mem_filter.mp h).2

omit [LinearOrder K] in
theorem recall_of_miss {rankedIds : List Int} {relevantIds : Finset Int} (k : Nat)
    (hrelevant : relevantIds ≠ ∅)
    (hmiss : forall chunkId, chunkId ∈ rankedIds -> chunkId ∉ relevantIds) :
    recallAtK rankedIds relevantIds k = (0 : K) := by
  have hempty : (rankedIds.take k).toFinset ∩ relevantIds = ∅ := by
    rw [← Finset.disjoint_iff_inter_eq_empty, Finset.disjoint_left]
    intro chunkId h
    exact hmiss chunkId (List.mem_of_mem_take (List.mem_toFinset.mp h))
  rw [recallAtK, if_neg hrelevant, hempty, Finset.card_empty, Nat.cast_zero, zero_div]

omit [LinearOrder K] in
theorem reciprocalRank_of_miss {rankedIds : List Int} {relevantIds : Finset Int}
    (hmiss : forall chunkId, chunkId ∈ rankedIds -> chunkId ∉ relevantIds) :
    reciprocalRank rankedIds relevantIds = (0 : K) := by
  have hloop : forall rank, reciprocalRankFrom relevantIds rank rankedIds = (0 : K) := by
    induction rankedIds with
    | nil => exact fun _ => rfl
    | cons chunkId rest ih =>
        intro rank
        rw [reciprocalRankFrom, if_neg (hmiss chunkId List.mem_cons_self)]
        exact ih (fun c hc => hmiss c (List.mem_cons_of_mem _ hc)) (rank + 1)
  exact hloop 1

theorem nothingFound_iff (hreport : buildReport log2 isPrintable cases results = .ok report)
    (hmiss : TotalMiss cases results) : NothingFound report ↔ report.ndcgAt20 = 0 := by
  have hretrieval := retrieval_of_report hreport
  have hrecall : forall k m, mean ((scored cases results).map fun row =>
      (recallAtK row.2.retrievedChunkIds (relevant row.1) k : K)) = .ok m -> m = 0 := by
    intro k m hm
    apply mean_zero hm
    intro v hv
    rcases List.mem_map.mp hv with ⟨row, hrow, rfl⟩
    apply recall_of_miss k (relevant_ne_empty hrow)
    intro chunkId hretrieved hrelevant
    exact hmiss row hrow chunkId hretrieved (List.mem_toFinset.mp hrelevant)
  have hmrr : report.mrr = 0 := by
    apply mean_zero hretrieval.mrr
    intro v hv
    rcases List.mem_map.mp hv with ⟨row, hrow, rfl⟩
    apply reciprocalRank_of_miss
    intro chunkId hretrieved hrelevant
    exact hmiss row hrow chunkId hretrieved (List.mem_toFinset.mp hrelevant)
  constructor
  · exact fun h => h.2.2.2
  · intro hndcg
    exact ⟨hrecall 5 _ hretrieval.recallAt5, hrecall 20 _ hretrieval.recallAt20, hmrr, hndcg⟩

end

/-!
# Gains of a case on a total miss

With an ideal that is not zero and no counting grade the case scores zero.  Without negative
grades an ideal that is not zero has a positive grade, and a sum of zero has no other terms.
-/

section

variable {K : Type} [Field K] [LinearOrder K] [IsStrictOrderedRing K] {log2 : Nat -> K}
variable {relevance : Dict Int Int} {rankedIds : List Int} {k : Nat}

/-- The ids that count have no grade, or the grade zero. -/
def Ungraded (relevance : Dict Int Int) (ids : List Int) : Prop :=
  forall chunkId, chunkId ∈ ids -> (relevance.get chunkId).getD 0 = 0

instance (relevance : Dict Int Int) (ids : List Int) : Decidable (Ungraded relevance ids) :=
  inferInstanceAs (Decidable (forall chunkId, chunkId ∈ ids -> _))

omit [LinearOrder K] [IsStrictOrderedRing K] in
theorem dcg_of_ungraded (h : Ungraded relevance (rankedIds.take k)) :
    dcg log2 relevance k rankedIds = 0 := by
  apply List.sum_eq_zero
  intro v hv
  rcases List.mem_map.mp hv with ⟨⟨chunkId, rank⟩, hrow, rfl⟩
  have hid : chunkId ∈ rankedIds.take k := (List.mem_zipIdx hrow).2.2 ▸ List.getElem_mem _
  simp only [gain, h chunkId hid, zpow_zero, sub_self, zero_div]

omit [IsStrictOrderedRing K] in
theorem ndcg_of_ungraded (hideal : dcg log2 relevance k (idealIds relevance) ≠ 0)
    (h : Ungraded relevance (rankedIds.take k)) : ndcgAtK log2 rankedIds relevance k = 0 := by
  unfold ndcgAtK
  dsimp only
  rw [if_pos hideal, dcg_of_ungraded h, zero_div]

theorem ndcg_nonneg (hlog : forall i, 0 < weight log2 i) (hkeys : (relevance.map Prod.fst).Nodup)
    (hgrades : forall item, item ∈ relevance -> 0 ≤ item.2) :
    0 ≤ ndcgAtK log2 rankedIds relevance k := by
  unfold ndcgAtK
  dsimp only
  split
  · exact div_nonneg (dcg_nonneg hlog hkeys hgrades _) (dcg_nonneg hlog hkeys hgrades _)
  · exact zero_le_one

omit [LinearOrder K] [IsStrictOrderedRing K] in
theorem exists_graded (hgrades : forall item, item ∈ relevance -> 0 ≤ item.2)
    (hideal : dcg log2 relevance k (idealIds relevance) ≠ 0) :
    exists item, item ∈ relevance ∧ 0 < item.2 := by
  by_contra hnone
  apply hideal
  apply dcg_of_ungraded
  intro chunkId _
  cases hget : relevance.get chunkId with
  | none => rfl
  | some grade =>
      have hmem := Dict.mem_of_get hget
      have hle : ¬ 0 < grade := fun hpos => hnone ⟨_, hmem, hpos⟩
      exact le_antisymm (not_lt.mp hle) (hgrades _ hmem)

theorem ungraded_of_dcg (hlog : forall i, 0 < weight log2 i)
    (hkeys : (relevance.map Prod.fst).Nodup)
    (hgrades : forall item, item ∈ relevance -> 0 ≤ item.2)
    (hactual : dcg log2 relevance k rankedIds = 0) : Ungraded relevance (rankedIds.take k) := by
  rw [dcg_eq_sum] at hactual
  have hterms : forall i, i ∈ Finset.range k ->
      0 ≤ weight log2 i * (rankedIds.map (gain relevance)).getD i (0 : K) := by
    intro i _
    apply mul_nonneg (hlog i).le
    apply getD_nonneg
    intro g hg
    rcases List.mem_map.mp hg with ⟨chunkId, -, rfl⟩
    exact gain_nonneg hkeys hgrades chunkId
  intro chunkId hid
  rcases List.mem_take_iff_getElem.mp hid with ⟨i, hi, rfl⟩
  have hterm := (Finset.sum_eq_zero_iff_of_nonneg hterms).mp hactual i
    (Finset.mem_range.mpr (by omega))
  have hgain := (mul_eq_zero.mp hterm).resolve_left (hlog i).ne'
  have hlength : i < (rankedIds.map (gain relevance) : List K).length := by
    rw [List.length_map]
    omega
  rw [List.getD_eq_getElem?_getD, List.getElem?_eq_getElem hlength, Option.getD_some,
    List.getElem_map, gain, sub_eq_zero] at hgain
  exact zpow_right_injective₀ two_pos (by norm_num) (hgain.trans (zpow_zero 2).symm)

theorem ndcg_eq_zero_iff (hlog : forall i, 0 < weight log2 i)
    (hkeys : (relevance.map Prod.fst).Nodup)
    (hgrades : forall item, item ∈ relevance -> 0 ≤ item.2) (hk : 1 ≤ k) :
    ndcgAtK log2 rankedIds relevance k = 0 ↔
      (exists item, item ∈ relevance ∧ 0 < item.2) ∧ Ungraded relevance (rankedIds.take k) := by
  constructor
  · intro hzero
    unfold ndcgAtK at hzero
    dsimp only at hzero
    split at hzero
    · rename_i hideal
      have hactual := (div_eq_zero_iff.mp hzero).resolve_right hideal
      exact ⟨exists_graded hgrades hideal, ungraded_of_dcg hlog hkeys hgrades hactual⟩
    · exact absurd hzero one_ne_zero
  · intro h
    exact ndcg_of_ungraded (ideal_pos hlog hkeys hgrades h.1 hk).ne' h.2

end

/-!
# Agreement on a total miss

A case without grades, and one with a grade for its relevant chunk.
-/

theorem mean_eq_zero_iff {K : Type} [Field K] [LinearOrder K] [IsStrictOrderedRing K]
    {values : List K} {m : K} (h : mean values = .ok m) (hnonneg : forall v, v ∈ values -> 0 ≤ v) :
    m = 0 ↔ forall v, v ∈ values -> v = 0 := by
  constructor
  · intro hm
    rcases mean_eq_ok.mp h with ⟨hne, hvalue⟩
    have hlength : (values.length : K) ≠ 0 :=
      Nat.cast_ne_zero.mpr (List.length_pos_iff.mpr hne).ne'
    rw [hm, eq_comm, div_eq_zero_iff] at hvalue
    have hsum := hvalue.resolve_right hlength
    intro v hv
    have hle := List.single_le_sum hnonneg v hv
    rw [hsum] at hle
    exact le_antisymm hle (hnonneg v hv)
  · exact mean_zero h

def Graded (row : EvaluationCase × EvaluationResult ℝ) : Prop :=
  dcg realLog2 row.1.relevance 20 (idealIds row.1.relevance) ≠ 0 ∧
    Ungraded row.1.relevance (row.2.retrievedChunkIds.take 20)

theorem weight_realLog2_pos (i : Nat) : 0 < weight realLog2 i :=
  (discount_realLog2 i).pos

/--
The metrics agree on a total miss if every scored case has a positive ideal and no graded id
among the first twenty.  Where no grade is negative, they agree only then.
-/
theorem metrics_agree_on_total_miss {isPrintable : Char -> Bool} {cases : List EvaluationCase}
    {results : List (EvaluationResult ℝ)} {report : Report ℝ}
    (hreport : buildReport realLog2 isPrintable cases results = .ok report)
    (hmiss : TotalMiss cases results) :
    ((forall row, row ∈ scored cases results -> Graded row) -> NothingFound report) ∧
      ((forall row, row ∈ scored cases results ->
          forall item, item ∈ row.1.relevance -> 0 ≤ item.2) ->
        (NothingFound report ↔ forall row, row ∈ scored cases results ->
          (exists item, item ∈ row.1.relevance ∧ 0 < item.2) ∧
            Ungraded row.1.relevance (row.2.retrievedChunkIds.take 20))) := by
  have hmean := (retrieval_of_report hreport).ndcgAt20
  rw [nothingFound_iff hreport hmiss]
  constructor
  · intro hgraded
    apply mean_zero hmean
    intro v hv
    rcases List.mem_map.mp hv with ⟨row, hrow, rfl⟩
    exact ndcg_of_ungraded (hgraded row hrow).1 (hgraded row hrow).2
  · intro hgrades
    have hnonneg : forall v, v ∈ (scored cases results).map (fun row =>
        ndcgAtK realLog2 row.2.retrievedChunkIds row.1.relevance 20) -> 0 ≤ v := by
      intro v hv
      rcases List.mem_map.mp hv with ⟨row, hrow, rfl⟩
      exact ndcg_nonneg weight_realLog2_pos row.1.relevanceKeys (hgrades row hrow)
    rw [mean_eq_zero_iff hmean hnonneg, List.forall_mem_map]
    refine forall_congr' fun row => forall_congr' fun hrow => ?_
    exact ndcg_eq_zero_iff weight_realLog2_pos row.1.relevanceKeys (hgrades row hrow) (by decide)

def freeResult (caseId : Text) (retrievedChunkIds : List Int) : EvaluationResult ℝ where
  caseId := caseId
  retrievedChunkIds := retrievedChunkIds
  citedChunkIds := []
  abstained := false
  latencyMs := 0
  mode := "answer".toList
  rerankCalled := false
  rerankSucceeded := false
  rerankTokens := 0
  rerankCostCny := 0
  chatCalled := false
  chatSucceeded := false
  chatPromptTokens := 0
  chatCompletionTokens := 0
  chatCostCny := 0

def ungradedCase : EvaluationCase where
  caseId := "a".toList
  question := "q".toList
  category := "faq".toList
  knowledgeBaseIds := [1]
  relevantChunkIds := [2]
  relevance := []
  relevanceKeys := List.nodup_nil
  expectedCitationChunkIds := [2]
  expectedAbstain := false
  reviewStatus := "approved".toList

def gradedCase : EvaluationCase :=
  { ungradedCase with relevance := [(2, 1)], relevanceKeys := by decide }

theorem metrics_agree_on_graded_miss : exists report,
    buildReport realLog2 (fun _ => true) [gradedCase] [freeResult "a".toList [3]] = .ok report ∧
      ((forall row, row ∈ scored [gradedCase] [freeResult "a".toList [3]] -> Graded row) ->
        NothingFound report) ∧
      ((forall row, row ∈ scored [gradedCase] [freeResult "a".toList [3]] ->
          forall item, item ∈ row.1.relevance -> 0 ≤ item.2) ->
        (NothingFound report ↔ forall row, row ∈ scored [gradedCase] [freeResult "a".toList [3]] ->
          (exists item, item ∈ row.1.relevance ∧ 0 < item.2) ∧
            Ungraded row.1.relevance (row.2.retrievedChunkIds.take 20))) := by
  have hreport : buildReport realLog2 (fun _ => true) [gradedCase] [freeResult "a".toList [3]] =
    .ok _ := rfl
  have hmiss : TotalMiss [gradedCase] [freeResult "a".toList [3]] := by
    intro row hrow
    cases List.mem_singleton.mp hrow
    decide
  exact ⟨_, hreport, metrics_agree_on_total_miss hreport hmiss⟩

def ungradedLine : Json :=
  .obj [("case_id".toList, .str "a".toList), ("question".toList, .str "q".toList),
    ("category".toList, .str "faq".toList), ("knowledge_base_ids".toList, .arr [.int 1]),
    ("relevant_chunk_ids".toList, .arr [.int 2]), ("expected_abstain".toList, .bool false),
    ("review_status".toList, .str "approved".toList)]

theorem loadLine_ungradedLine (isPrintable : Char -> Bool) :
    Dataset.loadLine isPrintable true 1 (Json.dumps false ungradedLine) = .ok ungradedCase := by
  have hplain : ungradedLine.Plain := by
    simp only [ungradedLine, Json.Plain, Json.PlainFields, Json.PlainItems, and_true]
    decide
  unfold Dataset.loadLine
  rw [Json.loads_dumps false ungradedLine hplain]
  rfl

theorem loadDataset_ungradedLine (isPrintable : Char -> Bool) :
    Dataset.loadDataset isPrintable true (Json.dumps false ungradedLine) =
      .ok [ungradedCase] := by
  have hlines : Text.splitLines (Json.dumps false ungradedLine) =
      [Json.dumps false ungradedLine] := by decide +kernel
  have hvisible : Text.strip (Json.dumps false ungradedLine) ≠ [] := by decide +kernel
  unfold Dataset.loadDataset
  rw [hlines, Dataset.loadLines, if_neg hvisible, loadLine_ungradedLine]
  rfl

/-- An accepted dataset without grades: nothing is found, and nDCG is one. -/
theorem ungraded_miss_scores_one : exists content cases results report,
    Dataset.loadDataset (fun _ => true) true content = .ok cases ∧
      buildReport realLog2 (fun _ => true) cases results = .ok report ∧
      TotalMiss cases results ∧ report.ndcgAt20 = 1 ∧ ¬ NothingFound report := by
  have hreport : buildReport realLog2 (fun _ => true) [ungradedCase]
    [freeResult "a".toList [3]] = .ok _ := rfl
  have hmiss : TotalMiss [ungradedCase] [freeResult "a".toList [3]] := by
    intro row hrow
    cases List.mem_singleton.mp hrow
    decide
  have hscore : ndcgAtK realLog2 [3] [] 20 = 1 := by
    have hideal : dcg realLog2 [] 20 (idealIds []) = 0 := rfl
    unfold ndcgAtK
    dsimp only
    rw [hideal, if_neg (not_not_intro rfl)]
  have hone := (mean_eq_ok.mp (retrieval_of_report hreport).ndcgAt20).2
  have hmean : [ndcgAtK realLog2 [3] [] 20].sum / (([ndcgAtK realLog2 [3] [] 20].length : Nat) : ℝ)
      = 1 := by
    rw [hscore, List.sum_singleton, List.length_singleton, Nat.cast_one, div_one]
  refine ⟨_, _, _, _, loadDataset_ungradedLine _, hreport, hmiss, hone.trans hmean, fun h => ?_⟩
  exact one_ne_zero ((hone.trans hmean).symm.trans h.2.2.2)

/-!
# The results that the index has

The mode does not depend on how often a result occurs, nor where.  So two complete lists with
the same results of the cases have reports that differ in nothing but the usage.
-/

section

variable {K : Type} [Field K] [LinearOrder K] {log2 : Nat -> K} {isPrintable : Char -> Bool}
variable {cases : List EvaluationCase} {results others extras : List (EvaluationResult K)}

/-- Every case has exactly one result. -/
def Complete (cases : List EvaluationCase) (results : List (EvaluationResult K)) : Prop :=
  forall case, case ∈ cases -> (results.map EvaluationResult.caseId).count case.caseId = 1

def resultsOf (results : List (EvaluationResult K)) (caseId : Text) : List (EvaluationResult K) :=
  results.filter fun result => result.caseId = caseId

omit [Field K] [LinearOrder K] in
theorem get_indexed (caseId : Text) :
    (indexed results).get caseId = (resultsOf results caseId).getLast? := by
  rw [indexed, Dict.get_ofPairs, List.filter_map, List.getLast?_map, Option.map_map]
  exact Option.map_id'

omit [Field K] [LinearOrder K] in
theorem resultsOf_eq_singleton (hcomplete : Complete cases results) {case : EvaluationCase}
    (h : case ∈ cases) : exists result, resultsOf results case.caseId = [result] := by
  rw [← List.length_eq_one_iff, ← hcomplete case h, List.count, List.countP_map, resultsOf,
    ← List.countP_eq_length_filter]
  apply List.countP_congr
  intro result _
  simp

omit [Field K] [LinearOrder K] in
theorem missing_eq_nil (hcomplete : Complete cases results) : missing cases results = [] := by
  have hnone : ((cases.map EvaluationCase.caseId).dedup.filter fun caseId =>
      caseId ∉ (indexed results).map Prod.fst) = [] := by
    rw [List.filter_eq_nil_iff]
    intro caseId hid
    rcases List.mem_map.mp (List.mem_dedup.mp hid) with ⟨case, hcase, rfl⟩
    rcases resultsOf_eq_singleton hcomplete hcase with ⟨result, hresult⟩
    have hfound : ((indexed results).get case.caseId).isSome := by
      rw [get_indexed, hresult]
      rfl
    simp only [Dict.get_isSome_iff.mp hfound, not_true, decide_false, Bool.false_eq_true,
      not_false_eq_true]
  rw [missing, hnone]
  rfl

omit [Field K] [LinearOrder K] in
theorem measured_congr (h : forall case, case ∈ cases ->
    resultsOf others case.caseId = resultsOf results case.caseId) :
    measured cases others = measured cases results := by
  apply List.filterMap_congr
  intro case hcase
  rw [get_indexed, get_indexed, h case hcase]

omit [Field K] [LinearOrder K] in
theorem map_fst_measured (hcomplete : Complete cases results) :
    (measured cases results).map Prod.fst = cases := by
  have hsome : forall case, case ∈ cases ->
      (((indexed results).get case.caseId).map fun result => (case, result)).map Prod.fst =
        some case := by
    intro case hcase
    rcases resultsOf_eq_singleton hcomplete hcase with ⟨result, hresult⟩
    rw [get_indexed, hresult]
    rfl
  rw [measured, List.map_filterMap, List.filterMap_congr hsome, List.filterMap_some]

omit [Field K] [LinearOrder K] in
theorem evaluationMode_congr (h : forall mode, mode ∈ others.map EvaluationResult.mode ↔
    mode ∈ results.map EvaluationResult.mode) : evaluationMode others = evaluationMode results := by
  have hperm : (modes others).Perm (modes results) := by
    apply (List.perm_ext_iff_of_nodup (List.nodup_dedup _) (List.nodup_dedup _)).mpr
    intro mode
    rw [List.mem_dedup, List.mem_dedup, h]
  unfold evaluationMode
  cases hmodes : modes results with
  | nil =>
      rw [hmodes] at hperm
      rw [hperm.eq_nil]
  | cons mode rest =>
      rw [hmodes] at hperm
      cases rest with
      | nil => rw [List.perm_singleton.mp hperm]
      | cons second rest =>
          cases hothers : modes others with
          | nil => rfl
          | cons first tail =>
              cases tail with
              | nil =>
                  rw [hothers] at hperm
                  exact absurd hperm.length_eq (by simp)
              | cons _ _ => rfl

theorem buildReport_complete (hcomplete : Complete cases results) :
    buildReport log2 isPrintable cases results = evaluationMode results >>= fun mode =>
      assembleReport log2 mode cases.length (measured cases results) (scored cases results)
        (usage results) := by
  unfold buildReport
  dsimp only
  rw [missing_eq_nil hcomplete, if_neg (not_not_intro rfl)]

theorem assembleReport_usage (log2 : Nat -> K) (mode : Text) (count : Nat)
    (rows scored : List (EvaluationCase × EvaluationResult K)) (used used' : Usage K) :
    assembleReport log2 mode count rows scored used =
      (fun report => { report with usage := used }) <$>
        assembleReport log2 mode count rows scored used' := by
  simp only [assembleReport, map_bind, map_pure]

theorem assembleReport_eq_iff {mode : Text} {count : Nat}
    {rows scored : List (EvaluationCase × EvaluationResult K)} {used used' : Usage K} :
    assembleReport log2 mode count rows scored used =
        assembleReport log2 mode count rows scored used' ↔
      ((exists report, assembleReport log2 mode count rows scored used' = .ok report) ->
        used = used') := by
  rw [assembleReport_usage log2 mode count rows scored used used']
  cases hreport : assembleReport log2 mode count rows scored used' with
  | error e =>
      constructor
      · intro _ h
        rcases h with ⟨report, hok⟩
        cases hok
      · exact fun _ => rfl
  | ok report =>
      have hused : report.usage = used' := by
        have hsame := assembleReport_usage log2 mode count rows scored used' used'
        rw [hreport] at hsame
        exact congrArg Report.usage (Except.ok.inj hsame)
      constructor
      · intro heq _
        rw [← hused]
        exact congrArg Report.usage (Except.ok.inj heq)
      · intro h
        show Except.ok { report with usage := used } = Except.ok report
        rw [h ⟨report, rfl⟩, ← hused]

/-- Two complete lists with the same mode and the same results of the cases: what is left is the usage. -/
theorem buildReport_eq_iff (hresults : Complete cases results) (hothers : Complete cases others)
    (hmode : evaluationMode others = evaluationMode results)
    (hrows : measured cases others = measured cases results) :
    buildReport log2 isPrintable cases others = buildReport log2 isPrintable cases results ↔
      ((exists report, buildReport log2 isPrintable cases results = .ok report) ->
        usage others = usage results) := by
  have hscored : scored cases others = scored cases results := by rw [scored, hrows, scored]
  rw [buildReport_complete hothers, buildReport_complete hresults, hmode, hrows, hscored]
  dsimp only [bind, Except.bind]
  cases evaluationMode results with
  | error e =>
      constructor
      · intro _ h
        rcases h with ⟨report, hreport⟩
        cases hreport
      · exact fun _ => rfl
  | ok mode => exact assembleReport_eq_iff

/-!
# Which lists have a report
-/

omit [Field K] [LinearOrder K] in
theorem evaluationMode_eq_ok {mode : Text} :
    evaluationMode results = .ok mode ↔
      (mode = "retrieval".toList ∨ mode = "answer".toList) ∧ results ≠ [] ∧
        forall result, result ∈ results -> result.mode = mode := by
  constructor
  · intro h
    unfold evaluationMode at h
    split at h
    · rename_i found hmodes
      split at h
      · rename_i hvalid
        cases h
        refine ⟨hvalid, ?_, fun result hresult => ?_⟩
        · intro heq
          subst heq
          cases hmodes
        · have hmem : result.mode ∈ modes results :=
            List.mem_dedup.mpr (List.mem_map_of_mem hresult)
          rw [hmodes] at hmem
          exact List.mem_singleton.mp hmem
      · cases h
    · cases h
  · intro h
    rcases h with ⟨hvalid, hne, hall⟩
    have hmodes : modes results = [mode] := by
      have hreplicate : results.map EvaluationResult.mode = List.replicate results.length mode :=
        List.eq_replicate_iff.mpr ⟨List.length_map _, by simpa using hall⟩
      rw [modes, hreplicate, List.replicate_dedup (by simpa using hne)]
    unfold evaluationMode
    rw [hmodes]
    exact if_pos hvalid

omit [LinearOrder K] in
theorem exists_mean_map {α : Type} {rows : List α} (hrows : rows ≠ []) (f : α -> K) :
    exists m, mean (rows.map f) = .ok m :=
  ⟨_, mean_eq_ok.mpr ⟨mt List.map_eq_nil_iff.mp hrows, rfl⟩⟩

omit [Field K] in
theorem exists_percentile_map {α : Type} {rows : List α} (hrows : rows ≠ []) (f : α -> K) {p : Int}
    (hlow : 1 ≤ p) (hhigh : p ≤ 100) : exists v, percentile (rows.map f) p = .ok v := by
  have hvalues : rows.map f ≠ [] := mt List.map_eq_nil_iff.mp hrows
  rcases percentile_position hvalues hlow hhigh with ⟨_, v, _, hv, _⟩
  exact ⟨v, hv⟩

omit [LinearOrder K] in
theorem exists_answerReport {rows : List (EvaluationCase × EvaluationResult K)} (hrows : rows ≠ [])
    (mode : Text) : exists answer, answerReport mode rows = .ok answer := by
  unfold answerReport
  split
  · dsimp only
    rw [List.map_map, List.map_map]
    rcases exists_mean_map hrows (Prod.fst ∘ fun row =>
      setPrecisionRecall (K := K) row.2.citedChunkIds row.1.expectedCitationChunkIds) with
      ⟨citationPrecision, hprecision⟩
    rcases exists_mean_map hrows (Prod.snd ∘ fun row =>
      setPrecisionRecall (K := K) row.2.citedChunkIds row.1.expectedCitationChunkIds) with
      ⟨citationRecall, hrecall⟩
    rcases exists_mean_map hrows (fun row =>
      (Metrics.abstentionAccuracy row.2.abstained row.1.expectedAbstain : K)) with
      ⟨accuracy, haccuracy⟩
    exact ⟨_, bind_eq_ok.mpr ⟨_, hprecision, bind_eq_ok.mpr ⟨_, hrecall,
      bind_eq_ok.mpr ⟨_, haccuracy, rfl⟩⟩⟩⟩
  · exact ⟨none, rfl⟩

theorem exists_assembleReport {mode : Text} {count : Nat} {used : Usage K}
    {rows scored : List (EvaluationCase × EvaluationResult K)} (hrows : rows ≠ []) :
    (exists report, assembleReport log2 mode count rows scored used = .ok report) ↔ scored ≠ [] := by
  constructor
  · intro h hnone
    rcases h with ⟨report, hreport⟩
    have hmean := (retrieval_of_assembled hreport).mrr
    rw [hnone] at hmean
    cases hmean
  · intro hscored
    unfold assembleReport
    rcases exists_mean_map hscored (fun row =>
      (recallAtK row.2.retrievedChunkIds (relevant row.1) 5 : K)) with ⟨_, hrecallAt5⟩
    rcases exists_mean_map hscored (fun row =>
      (recallAtK row.2.retrievedChunkIds (relevant row.1) 20 : K)) with ⟨_, hrecallAt20⟩
    rcases exists_mean_map hscored (fun row =>
      (reciprocalRank row.2.retrievedChunkIds (relevant row.1) : K)) with ⟨_, hmrr⟩
    rcases exists_mean_map hscored (fun row =>
      ndcgAtK log2 row.2.retrievedChunkIds row.1.relevance 20) with ⟨_, hndcgAt20⟩
    rcases exists_percentile_map hrows (fun row => row.2.latencyMs) (p := 50) (by decide)
      (by decide) with ⟨_, hp50⟩
    rcases exists_percentile_map hrows (fun row => row.2.latencyMs) (p := 95) (by decide)
      (by decide) with ⟨_, hp95⟩
    rcases exists_answerReport hrows mode with ⟨_, hanswer⟩
    exact ⟨_, bind_eq_ok.mpr ⟨_, hrecallAt5, bind_eq_ok.mpr ⟨_, hrecallAt20,
      bind_eq_ok.mpr ⟨_, hmrr, bind_eq_ok.mpr ⟨_, hndcgAt20, bind_eq_ok.mpr ⟨_, hp50,
        bind_eq_ok.mpr ⟨_, hp95, bind_eq_ok.mpr ⟨_, hanswer, rfl⟩⟩⟩⟩⟩⟩⟩⟩

/-- The results have one valid mode, and some case has relevant ids. -/
def Reportable (cases : List EvaluationCase) (results : List (EvaluationResult K)) : Prop :=
  (exists mode, (mode = "retrieval".toList ∨ mode = "answer".toList) ∧
    forall result, result ∈ results -> result.mode = mode) ∧
  exists case, case ∈ cases ∧ case.relevantChunkIds ≠ []

theorem exists_report_iff (hcases : cases ≠ []) (hcomplete : Complete cases results) :
    (exists report, buildReport log2 isPrintable cases results = .ok report) ↔
      Reportable cases results := by
  have hfst := map_fst_measured hcomplete
  have hrows : measured cases results ≠ [] := by
    intro hnone
    rw [hnone] at hfst
    exact hcases hfst.symm
  have hresults : results ≠ [] := by
    intro heq
    subst heq
    rcases List.exists_mem_of_ne_nil cases hcases with ⟨case, hcase⟩
    exact absurd (hcomplete case hcase) Nat.zero_ne_one
  have hscored : scored cases results ≠ [] ↔ exists case, case ∈ cases ∧ case.relevantChunkIds ≠ [] := by
    rw [ne_eq, scored, List.filter_eq_nil_iff]
    push Not
    constructor
    · intro h
      rcases h with ⟨row, hrow, hrelevant⟩
      refine ⟨row.1, hfst ▸ List.mem_map_of_mem hrow, ?_⟩
      intro hnone
      simp [relevant, hnone] at hrelevant
    · intro h
      rcases h with ⟨case, hcase, hrelevant⟩
      rw [← hfst] at hcase
      rcases List.mem_map.mp hcase with ⟨row, hrow, rfl⟩
      exact ⟨row, hrow, by simpa [relevant] using hrelevant⟩
  rw [buildReport_complete hcomplete, Reportable, ← hscored]
  constructor
  · intro h
    rcases h with ⟨report, hreport⟩
    rcases bind_eq_ok.mp hreport with ⟨mode, hmode, hassembled⟩
    rcases evaluationMode_eq_ok.mp hmode with ⟨hvalid, -, hall⟩
    exact ⟨⟨mode, hvalid, hall⟩, (exists_assembleReport hrows).mp ⟨report, hassembled⟩⟩
  · intro h
    rcases h with ⟨⟨mode, hvalid, hall⟩, hsome⟩
    rcases (exists_assembleReport hrows).mpr hsome with ⟨report, hreport⟩
    exact ⟨report, bind_eq_ok.mpr
      ⟨mode, evaluationMode_eq_ok.mpr ⟨hvalid, hresults, hall⟩, hreport⟩⟩

/-!
# Results of no case

The results of no case do not get into the index, and are added up with the others.
-/

structure Unused (extras : List (EvaluationResult K)) : Prop where
  rerankCalled : forall extra, extra ∈ extras -> extra.rerankCalled = false
  rerankSucceeded : forall extra, extra ∈ extras -> extra.rerankSucceeded = false
  rerankTokens : (extras.map EvaluationResult.rerankTokens).sum = 0
  rerankCostCny : (extras.map EvaluationResult.rerankCostCny).sum = 0
  chatCalled : forall extra, extra ∈ extras -> extra.chatCalled = false
  chatSucceeded : forall extra, extra ∈ extras -> extra.chatSucceeded = false
  chatPromptTokens : (extras.map EvaluationResult.chatPromptTokens).sum = 0
  chatCompletionTokens : (extras.map EvaluationResult.chatCompletionTokens).sum = 0
  chatCostCny : (extras.map EvaluationResult.chatCostCny).sum = 0

omit [LinearOrder K] in
theorem usage_append_eq_iff : usage (results ++ extras) = usage results ↔ Unused extras := by
  have hcount : forall called : EvaluationResult K -> Bool,
      (results ++ extras).countP called = results.countP called ↔
        forall extra, extra ∈ extras -> called extra = false := by
    intro called
    rw [List.countP_append, Nat.add_eq_left, List.countP_eq_zero]
    simp only [Bool.not_eq_true]
  have hsum : forall {M : Type} [AddGroup M] (used : EvaluationResult K -> M),
      ((results ++ extras).map used).sum = (results.map used).sum ↔ (extras.map used).sum = 0 := by
    intro M _ used
    rw [List.map_append, List.sum_append, add_eq_left]
  unfold usage
  rw [Usage.mk.injEq, hcount, hcount, hcount, hcount, hsum, hsum, hsum, hsum, hsum]
  constructor
  · intro h
    rcases h with ⟨h₁, h₂, h₃, h₄, h₅, h₆, h₇, h₈, h₉⟩
    exact ⟨h₁, h₂, h₃, h₄, h₅, h₆, h₇, h₈, h₉⟩
  · intro h
    rcases h with ⟨h₁, h₂, h₃, h₄, h₅, h₆, h₇, h₈, h₉⟩
    exact ⟨h₁, h₂, h₃, h₄, h₅, h₆, h₇, h₈, h₉⟩

omit [LinearOrder K] in
theorem usage_perm (h : others.Perm results) : usage others = usage results := by
  unfold usage
  rw [h.countP_eq, h.countP_eq, h.countP_eq, h.countP_eq, (h.map _).sum_eq, (h.map _).sum_eq,
    (h.map _).sum_eq, (h.map _).sum_eq, (h.map _).sum_eq]

/-- The report is the same with the extra results, and in every order of the results. -/
def MeasuresOnlyCases (log2 : Nat -> K) (isPrintable : Char -> Bool) (cases : List EvaluationCase)
    (results extras : List (EvaluationResult K)) : Prop :=
  buildReport log2 isPrintable cases (results ++ extras) =
      buildReport log2 isPrintable cases results ∧
    forall others, others.Perm results ->
      buildReport log2 isPrintable cases others = buildReport log2 isPrintable cases results

/-- Further results of the mode that all the results have, and of no case. -/
structure Extras (cases : List EvaluationCase) (results extras : List (EvaluationResult K)) :
    Prop where
  mode : forall extra, extra ∈ extras -> forall result, result ∈ results ->
    extra.mode = result.mode
  caseId : forall extra, extra ∈ extras -> extra.caseId ∉ cases.map EvaluationCase.caseId

omit [Field K] [LinearOrder K] in
theorem resultsOf_append (hextras : Extras cases results extras) {case : EvaluationCase}
    (h : case ∈ cases) : resultsOf (results ++ extras) case.caseId = resultsOf results case.caseId := by
  have hnone : resultsOf extras case.caseId = [] := by
    rw [resultsOf, List.filter_eq_nil_iff]
    intro extra hextra hid
    apply hextras.caseId extra hextra
    rw [of_decide_eq_true hid]
    exact List.mem_map_of_mem h
  rw [resultsOf, List.filter_append, ← resultsOf, ← resultsOf, hnone, List.append_nil]

omit [Field K] [LinearOrder K] in
theorem complete_of_resultsOf (hcomplete : Complete cases results)
    (h : forall case, case ∈ cases ->
      (resultsOf others case.caseId).Perm (resultsOf results case.caseId)) :
    Complete cases others := by
  have hcount : forall (list : List (EvaluationResult K)) (caseId : Text),
      (list.map EvaluationResult.caseId).count caseId = (resultsOf list caseId).length := by
    intro list caseId
    rw [List.count, List.countP_map, resultsOf, ← List.countP_eq_length_filter]
    apply List.countP_congr
    intro result _
    simp
  intro case hcase
  rw [hcount, (h case hcase).length_eq, ← hcount]
  exact hcomplete case hcase

theorem report_of_appended (hcases : cases ≠ []) (hcomplete : Complete cases results)
    (hextras : Extras cases results extras) :
    buildReport log2 isPrintable cases (results ++ extras) =
        buildReport log2 isPrintable cases results ↔
      (Reportable cases results -> Unused extras) := by
  have hsame := fun case (h : case ∈ cases) => resultsOf_append hextras h
  have hmode : evaluationMode (results ++ extras) = evaluationMode results := by
    apply evaluationMode_congr
    intro mode
    rw [List.map_append, List.mem_append]
    constructor
    · intro h
      rcases h with h | h
      · exact h
      · rcases List.mem_map.mp h with ⟨extra, hextra, rfl⟩
        rcases List.exists_mem_of_ne_nil cases hcases with ⟨case, hcase⟩
        rcases resultsOf_eq_singleton hcomplete hcase with ⟨result, hresult⟩
        have hmem : result ∈ results := by
          have hone : result ∈ resultsOf results case.caseId := hresult ▸ List.mem_singleton_self _
          exact (List.mem_filter.mp hone).1
        rw [hextras.mode extra hextra result hmem]
        exact List.mem_map_of_mem hmem
    · exact .inl
  rw [buildReport_eq_iff hcomplete
    (complete_of_resultsOf hcomplete fun case h => .of_eq (hsame case h)) hmode
    (measured_congr hsame), exists_report_iff hcases hcomplete, usage_append_eq_iff]

theorem report_of_permuted (hcomplete : Complete cases results) (hperm : others.Perm results) :
    buildReport log2 isPrintable cases others = buildReport log2 isPrintable cases results := by
  have hsame : forall case, case ∈ cases ->
      resultsOf others case.caseId = resultsOf results case.caseId := by
    intro case hcase
    have hfilter := hperm.filter fun result => result.caseId = case.caseId
    rcases resultsOf_eq_singleton hcomplete hcase with ⟨result, hresult⟩
    rw [← resultsOf, ← resultsOf, hresult] at hfilter
    rw [hresult]
    exact List.perm_singleton.mp hfilter
  have hmode : evaluationMode others = evaluationMode results :=
    evaluationMode_congr fun mode => (hperm.map EvaluationResult.mode).mem_iff
  rw [buildReport_eq_iff hcomplete
    (complete_of_resultsOf hcomplete fun case h => .of_eq (hsame case h)) hmode
    (measured_congr hsame)]
  exact fun _ => usage_perm hperm

theorem loaded_nonempty {requireApproved : Bool} {content : Text}
    (h : Dataset.loadDataset isPrintable requireApproved content = .ok cases) : cases ≠ [] := by
  unfold Dataset.loadDataset at h
  rcases bind_eq_ok.mp h with ⟨loaded, -, hchecks⟩
  by_cases hnone : loaded = []
  · rw [if_pos hnone] at hchecks
    cases hchecks
  · rw [if_neg hnone] at hchecks
    split at hchecks
    · cases hchecks
    · cases hchecks
      exact hnone

/--
The quality and the latency are those of the cases; what the results used is counted with the
results of no case.
-/
theorem report_measures_only_cases {requireApproved : Bool} {content : Text}
    (hload : Dataset.loadDataset isPrintable requireApproved content = .ok cases)
    (hcomplete : Complete cases results) (hextras : Extras cases results extras) :
    MeasuresOnlyCases log2 isPrintable cases results extras ↔
      (Reportable cases results -> Unused extras) := by
  rw [MeasuresOnlyCases, report_of_appended (loaded_nonempty hload) hcomplete hextras]
  exact and_iff_left fun others hperm => report_of_permuted hcomplete hperm

end

theorem report_measures_only_one_case :
    MeasuresOnlyCases realLog2 (fun _ => true) [ungradedCase] [freeResult "a".toList [3]]
        [freeResult "b".toList []] ↔
      (Reportable [ungradedCase] [freeResult "a".toList [3]] ->
        Unused [freeResult "b".toList []]) := by
  refine report_measures_only_cases (loadDataset_ungradedLine fun _ => true) ?_ ⟨?_, ?_⟩
  · intro case hcase
    cases List.mem_singleton.mp hcase
    decide
  · intro extra hextra result hresult
    cases List.mem_singleton.mp hextra
    cases List.mem_singleton.mp hresult
    rfl
  · intro extra hextra
    cases List.mem_singleton.mp hextra
    decide

noncomputable def chatResult : EvaluationResult ℝ :=
  { freeResult "b".toList [] with chatCalled := true }

theorem chat_of_no_case_is_counted :
    Dataset.loadDataset (fun _ => true) true (Json.dumps false ungradedLine) =
        .ok [ungradedCase] ∧
      Complete [ungradedCase] [freeResult "a".toList [3]] ∧
      Extras [ungradedCase] [freeResult "a".toList [3]] [chatResult] ∧
      ¬ MeasuresOnlyCases realLog2 (fun _ => true) [ungradedCase] [freeResult "a".toList [3]]
        [chatResult] := by
  refine ⟨loadDataset_ungradedLine _, ?_, ⟨?_, ?_⟩, fun hsame => ?_⟩
  · intro case hcase
    cases List.mem_singleton.mp hcase
    decide
  · intro extra hextra result hresult
    cases List.mem_singleton.mp hextra
    cases List.mem_singleton.mp hresult
    rfl
  · intro extra hextra
    cases List.mem_singleton.mp hextra
    decide
  · have hrequests := congrArg (fun report => report.toOption.map fun r => r.usage.chatRequests)
      hsame.1
    exact absurd (Option.some.inj hrequests) Nat.one_ne_zero

end Reports
end RagService
