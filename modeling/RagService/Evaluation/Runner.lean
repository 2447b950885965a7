import Mathlib.Data.Char
import Mathlib.Data.List.Lex
import RagService.Evaluation.Dataset
import RagService.Evaluation.Metrics

/-!
# Evaluation reports

`build_report`: the quality and latency of the cases, with the usage of the results, in exact
arithmetic over an ordered field.
-/

namespace RagService

structure EvaluationResult (K : Type) where
  caseId : Text
  retrievedChunkIds : List Int
  citedChunkIds : List Int
  abstained : Bool
  latencyMs : K
  mode : Text
  rerankCalled : Bool
  rerankSucceeded : Bool
  rerankTokens : Int
  rerankCostCny : K
  chatCalled : Bool
  chatSucceeded : Bool
  chatPromptTokens : Int
  chatCompletionTokens : Int
  chatCostCny : K

structure AnswerReport (K : Type) where
  citationPrecision : K
  citationRecall : K
  abstentionAccuracy : K

structure Usage (K : Type) where
  rerankRequests : Nat
  rerankSuccesses : Nat
  rerankTotalTokens : Int
  rerankCostCny : K
  chatRequests : Nat
  chatSuccesses : Nat
  chatPromptTokens : Int
  chatCompletionTokens : Int
  chatCostCny : K

structure Report (K : Type) where
  caseCount : Nat
  recallAt5 : K
  recallAt20 : K
  mrr : K
  ndcgAt20 : K
  latencyP50Ms : K
  latencyP95Ms : K
  usage : Usage K
  answer : Option (AnswerReport K)

namespace Runner

open Metrics

variable {K : Type} [Field K] [LinearOrder K]

/-- `{result.case_id: result for result in results}` -/
def indexed (results : List (EvaluationResult K)) : Dict Text (EvaluationResult K) :=
  Dict.ofPairs (results.map fun result => (result.caseId, result))

def missing (cases : List EvaluationCase) (results : List (EvaluationResult K)) : List Text :=
  Sorting.sortOn id ((cases.map EvaluationCase.caseId).dedup.filter fun caseId =>
    caseId ∉ (indexed results).map Prod.fst)

def modes (results : List (EvaluationResult K)) : List Text :=
  (results.map EvaluationResult.mode).dedup

/-- The only mode of the results, which has to be a valid one. -/
def evaluationMode (results : List (EvaluationResult K)) : Except Exception Text :=
  match modes results with
  | [mode] =>
      if mode = "retrieval".toList ∨ mode = "answer".toList then .ok mode
      else .error (.value "评测结果必须使用同一种有效 mode".toList)
  | _ => .error (.value "评测结果必须使用同一种有效 mode".toList)

def measured (cases : List EvaluationCase) (results : List (EvaluationResult K)) :
    List (EvaluationCase × EvaluationResult K) :=
  cases.filterMap fun case => ((indexed results).get case.caseId).map fun result => (case, result)

/-- `set(case.relevant_chunk_ids)` -/
def relevant (case : EvaluationCase) : Finset Int :=
  case.relevantChunkIds.toFinset

/-- The cases that the retrieval metrics are computed of, with their results. -/
def scored (cases : List EvaluationCase) (results : List (EvaluationResult K)) :
    List (EvaluationCase × EvaluationResult K) :=
  (measured cases results).filter fun row => relevant row.1 ≠ ∅

omit [LinearOrder K] in
def usage (results : List (EvaluationResult K)) : Usage K where
  rerankRequests := results.countP EvaluationResult.rerankCalled
  rerankSuccesses := results.countP EvaluationResult.rerankSucceeded
  rerankTotalTokens := (results.map EvaluationResult.rerankTokens).sum
  rerankCostCny := (results.map EvaluationResult.rerankCostCny).sum
  chatRequests := results.countP EvaluationResult.chatCalled
  chatSuccesses := results.countP EvaluationResult.chatSucceeded
  chatPromptTokens := (results.map EvaluationResult.chatPromptTokens).sum
  chatCompletionTokens := (results.map EvaluationResult.chatCompletionTokens).sum
  chatCostCny := (results.map EvaluationResult.chatCostCny).sum

/-- What the mode `answer` reports besides. -/
def answerReport (evaluationMode : Text) (rows : List (EvaluationCase × EvaluationResult K)) :
    Except Exception (Option (AnswerReport K)) :=
  if evaluationMode = "answer".toList then do
    let citations := rows.map fun (case, result) =>
      setPrecisionRecall result.citedChunkIds case.expectedCitationChunkIds
    let citationPrecision ← mean (citations.map Prod.fst)
    let citationRecall ← mean (citations.map Prod.snd)
    let abstentionAccuracy ← mean (rows.map fun (case, result) =>
      Metrics.abstentionAccuracy result.abstained case.expectedAbstain)
    return some ⟨citationPrecision, citationRecall, abstentionAccuracy⟩
  else .ok none

def assembleReport (log2 : Nat -> K) (evaluationMode : Text) (caseCount : Nat)
    (rows scored : List (EvaluationCase × EvaluationResult K)) (usage : Usage K) :
    Except Exception (Report K) := do
  let recallAt5 ← mean (scored.map fun (case, result) =>
    recallAtK result.retrievedChunkIds (relevant case) 5)
  let recallAt20 ← mean (scored.map fun (case, result) =>
    recallAtK result.retrievedChunkIds (relevant case) 20)
  let mrr ← mean (scored.map fun (case, result) =>
    reciprocalRank result.retrievedChunkIds (relevant case))
  let ndcgAt20 ← mean (scored.map fun (case, result) =>
    ndcgAtK log2 result.retrievedChunkIds case.relevance 20)
  let latencyP50Ms ← percentile (rows.map fun row => row.2.latencyMs) 50
  let latencyP95Ms ← percentile (rows.map fun row => row.2.latencyMs) 95
  let answer ← answerReport evaluationMode rows
  return { caseCount, recallAt5, recallAt20, mrr, ndcgAt20, latencyP50Ms, latencyP95Ms, usage,
           answer }

def buildReport (log2 : Nat -> K) (isPrintable : Char -> Bool) (cases : List EvaluationCase)
    (results : List (EvaluationResult K)) : Except Exception (Report K) :=
  let missing := missing cases results
  if missing ≠ [] then
    .error (.value ("缺少评测结果: ".toList ++ Json.repr isPrintable (.arr (missing.map .str))))
  else do
    let evaluationMode ← evaluationMode results
    assembleReport log2 evaluationMode cases.length (measured cases results) (scored cases results)
      (usage results)

end Runner
end RagService
