import RagService.Foundation.Dicts
import RagService.Foundation.Representations
import RagService.Query.Bodies

/-!
# Evaluation datasets

`load_dataset`: the cases of a JSONL file.  The texts of a case are texts, as the annotations
of `EvaluationCase` say; the loader itself does not check them.
-/

namespace RagService

structure EvaluationCase where
  caseId : Text
  question : Text
  category : Text
  knowledgeBaseIds : List Int
  relevantChunkIds : List Int
  relevance : Dict Int Int
  relevanceKeys : (relevance.map Prod.fst).Nodup
  expectedCitationChunkIds : List Int
  expectedAbstain : Bool
  reviewStatus : Text

namespace Dataset

/-- The fields that a line has to have, sorted. -/
def required : List Text :=
  ["case_id".toList, "category".toList, "expected_abstain".toList, "knowledge_base_ids".toList,
    "question".toList, "relevant_chunk_ids".toList, "review_status".toList]

def keys (raw : Json) : Except Exception (List Text) :=
  match raw with
  | .obj fields => .ok (fields.map Prod.fst)
  | _ => .error (.other "AttributeError".toList)

/-- `raw.items()` -/
def items (v : Json) : Except Exception (List (Text × Json)) :=
  match v with
  | .obj fields => .ok fields
  | _ => .error (.other "AttributeError".toList)

def text (v : Json) : Except Exception Text :=
  match v with
  | .str s => .ok s
  | _ => .error (.other "TypeError".toList)

/-- `[int(item) for item in v]` -/
def ints (v : Json) : Except Exception (List Int) := do
  let items ← v.iterate
  items.mapM Json.toInt

/-- `{int(key): int(value) for key, value in v.items()}` -/
def grades (v : Json) : Except Exception { d : Dict Int Int // (d.map Prod.fst).Nodup } := do
  let fields ← items v
  let pairs ← fields.mapM fun (key, value) => do
    let key ← (Json.str key).toInt
    let value ← value.toInt
    return (key, value)
  return ⟨Dict.ofPairs pairs, Dict.nodup_keys_ofPairs pairs⟩

def loadLine (isPrintable : Char -> Bool) (requireApproved : Bool) (lineNumber : Nat)
    (line : Text) : Except Exception EvaluationCase := do
  match Json.loads line with
  | none => throw (.value "JSONDecodeError".toList)
  | some raw => do
      let present ← keys raw
      let missing := required.filter fun field => field ∉ present
      if missing ≠ [] then
        throw (.value ("第 ".toList ++ Text.decimal lineNumber ++ " 行缺少字段: ".toList ++
          Json.repr isPrintable (.arr (missing.map .str))))
      let caseId ← raw.subscript "case_id".toList
      let reviewStatus ← text (← raw.subscript "review_status".toList)
      if requireApproved ∧ reviewStatus ≠ "approved".toList then
        throw (.value ("样本 ".toList ++ Json.asText isPrintable caseId ++ " 尚未人工审批".toList))
      let ⟨relevance, relevanceKeys⟩ ← grades (← raw.get "relevance".toList (.obj []))
      let caseId ← text caseId
      let question ← text (← raw.subscript "question".toList)
      let category ← text (← raw.subscript "category".toList)
      let knowledgeBaseIds ← ints (← raw.subscript "knowledge_base_ids".toList)
      let relevant ← raw.subscript "relevant_chunk_ids".toList
      let relevantChunkIds ← ints relevant
      let expectedCitationChunkIds ← ints (← raw.get "expected_citation_chunk_ids".toList relevant)
      let expectedAbstain ← raw.subscript "expected_abstain".toList
      return { caseId, question, category, knowledgeBaseIds, relevantChunkIds, relevance,
               relevanceKeys, expectedCitationChunkIds, expectedAbstain := expectedAbstain.truthy, reviewStatus }

/-- The lines from one on; blank lines are skipped. -/
def loadLines (isPrintable : Char -> Bool) (requireApproved : Bool) :
    Nat -> List Text -> Except Exception (List EvaluationCase)
  | _, [] => .ok []
  | lineNumber, line :: rest =>
      if Text.strip line = [] then loadLines isPrintable requireApproved (lineNumber + 1) rest
      else do
        let case ← loadLine isPrintable requireApproved lineNumber line
        let cases ← loadLines isPrintable requireApproved (lineNumber + 1) rest
        return case :: cases

/-- `load_dataset` on the text of a file. -/
def loadDataset (isPrintable : Char -> Bool) (requireApproved : Bool) (content : Text) :
    Except Exception (List EvaluationCase) := do
  let cases ← loadLines isPrintable requireApproved 1 (Text.splitLines content)
  if cases = [] then
    throw (.value "评测数据集不能为空".toList)
  if ¬ (cases.map EvaluationCase.caseId).Nodup then
    throw (.value "评测数据集存在重复 case_id".toList)
  return cases

end Dataset
end RagService
