import RagService.Evaluation.Runner

/-!
# Result files

`write_results` and `load_results`: the results of a run as lines of JSON.  Reading a text
file makes `\n` of every `\r` and `\r\n`, which are breaks of `str.splitlines` as well.
-/

namespace RagService
namespace Runner

/-!
# Writing

The fields of a result as `write_results` gives them to `json`.
-/

section

variable {K : Type} (number : K -> Json)

/-- `result.__dict__`; `number` gives the value that `json` writes for a float. -/
def dict (result : EvaluationResult K) : List (Text × Json) :=
  [("case_id".toList, .str result.caseId),
    ("retrieved_chunk_ids".toList, .arr (result.retrievedChunkIds.map .int)),
    ("cited_chunk_ids".toList, .arr (result.citedChunkIds.map .int)),
    ("abstained".toList, .bool result.abstained),
    ("latency_ms".toList, number result.latencyMs),
    ("mode".toList, .str result.mode),
    ("rerank_called".toList, .bool result.rerankCalled),
    ("rerank_succeeded".toList, .bool result.rerankSucceeded),
    ("rerank_tokens".toList, .int result.rerankTokens),
    ("rerank_cost_cny".toList, number result.rerankCostCny),
    ("chat_called".toList, .bool result.chatCalled),
    ("chat_succeeded".toList, .bool result.chatSucceeded),
    ("chat_prompt_tokens".toList, .int result.chatPromptTokens),
    ("chat_completion_tokens".toList, .int result.chatCompletionTokens),
    ("chat_cost_cny".toList, number result.chatCostCny)]

/-- `json.dumps(fields, ensure_ascii=False, sort_keys=True)` -/
def dumpSorted (fields : List (Text × Json)) : Text :=
  Json.dumps false (.obj (Sorting.sortOn Prod.fst fields))

def writeResults (results : List (EvaluationResult K)) : Text :=
  (results.map fun result => dumpSorted (dict number result) ++ ['\n']).flatten

end

/-!
# Reading

A result is read back as its `__dict__`: the loader checks no types.
-/

/-- The fields of `EvaluationResult` with their defaults. -/
def parameters : List (Text × Option Json) :=
  [("case_id".toList, none), ("retrieved_chunk_ids".toList, none),
    ("cited_chunk_ids".toList, none), ("abstained".toList, none), ("latency_ms".toList, none),
    ("mode".toList, some (.str "answer".toList)), ("rerank_called".toList, some (.bool false)),
    ("rerank_succeeded".toList, some (.bool false)), ("rerank_tokens".toList, some (.int 0)),
    ("rerank_cost_cny".toList, some (.float "0.0".toList)),
    ("chat_called".toList, some (.bool false)), ("chat_succeeded".toList, some (.bool false)),
    ("chat_prompt_tokens".toList, some (.int 0)),
    ("chat_completion_tokens".toList, some (.int 0)),
    ("chat_cost_cny".toList, some (.float "0.0".toList))]

/-- `EvaluationResult(**keywords)`, by its `__dict__`; the types of the values are not checked. -/
def construct (keywords : Json) : Except Exception (List (Text × Json)) :=
  match keywords with
  | .obj fields =>
      if exists f, f ∈ fields ∧ f.1 ∉ parameters.map Prod.fst then
        .error (.other "TypeError".toList)
      else
        parameters.mapM fun (name, default) =>
          match (Json.field fields name).or default with
          | some v => .ok (name, v)
          | none => .error (.other "TypeError".toList)
  | _ => .error (.other "TypeError".toList)

def loadResult (line : Text) : Except Exception (List (Text × Json)) :=
  match Json.loads line with
  | some keywords => construct keywords
  | none => .error (.value "JSONDecodeError".toList)

def loadResults (content : Text) : Except Exception (List (List (Text × Json))) :=
  ((Text.splitLines content).filter fun line => Text.strip line ≠ []).mapM loadResult

end Runner
end RagService
