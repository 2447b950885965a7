import Mathlib.Algebra.Order.Field.Basic
import Mathlib.Data.Finset.Basic
import Mathlib.Data.Finset.Card
import RagService.Foundation.Dicts
import RagService.Foundation.Sorting
import RagService.Store.Model

/-!
# Retrieval metrics

The metrics of one case and the statistics over the cases, in exact arithmetic over an
ordered field.  `log2` is a function of the integers it is applied to.
-/

namespace RagService
namespace Metrics

variable {K : Type} [Field K]

def recallAtK (rankedIds : List Int) (relevantIds : Finset Int) (k : Nat) : K :=
  if relevantIds = ∅ then 1
  else (((rankedIds.take k).toFinset ∩ relevantIds).card : K) / (relevantIds.card : K)

/-- The loop of `reciprocal_rank`, with the rank of the next id. -/
def reciprocalRankFrom (relevantIds : Finset Int) : Nat -> List Int -> K
  | _, [] => 0
  | rank, chunkId :: rest =>
      if chunkId ∈ relevantIds then 1 / (rank : K) else reciprocalRankFrom relevantIds (rank + 1) rest

def reciprocalRank (rankedIds : List Int) (relevantIds : Finset Int) : K :=
  reciprocalRankFrom relevantIds 1 rankedIds

/-- `2 ** relevance.get(chunk_id, 0) - 1` -/
def gain (relevance : Dict Int Int) (chunkId : Int) : K :=
  (2 : K) ^ ((relevance.get chunkId).getD 0) - 1

def dcg (log2 : Nat -> K) (relevance : Dict Int Int) (k : Nat) (ids : List Int) : K :=
  (((ids.take k).zipIdx 1).map fun (chunkId, rank) =>
    gain relevance chunkId / log2 (rank + 1)).sum

/-- `sorted(relevance.items(), key=operator.itemgetter(1), reverse=True)`, the ids. -/
def idealIds (relevance : Dict Int Int) : List Int :=
  (Sorting.sortOn (fun item : Int × Int => OrderDual.toDual item.2) relevance).map Prod.fst

/-- `predicted` and `expected` as sets, and the precision and recall of one in the other. -/
def setPrecisionRecall (predictedIds expectedIds : List Int) : K × K :=
  let predicted := predictedIds.toFinset
  let expected := expectedIds.toFinset
  if predicted = ∅ then
    (if expected = ∅ then 1 else 0, if expected = ∅ then 1 else 0)
  else
    let overlap := (predicted ∩ expected).card
    ((overlap : K) / (predicted.card : K),
      if expected = ∅ then 1 else (overlap : K) / (expected.card : K))

def abstentionAccuracy (predictedAbstain expectedAbstain : Bool) : K :=
  if predictedAbstain = expectedAbstain then 1 else 0

def mean (values : List K) : Except Exception K :=
  match values with
  | [] => .error (.value "指标样本不能为空".toList)
  | _ :: _ => .ok (values.sum / (values.length : K))

section

variable [DecidableEq K]

def ndcgAtK (log2 : Nat -> K) (rankedIds : List Int) (relevance : Dict Int Int) (k : Nat) : K :=
  let actual := dcg log2 relevance k rankedIds
  let ideal := dcg log2 relevance k (idealIds relevance)
  if ideal ≠ 0 then actual / ideal else 1

end

/-- The nearest-rank percentile; `IndexError` where the index is out of range. -/
def percentile {α : Type} [LinearOrder α] (values : List α) (percentileValue : Int) :
    Except Exception α :=
  match values with
  | [] => .error (.value "延迟样本不能为空".toList)
  | _ :: _ =>
      if ¬ (0 < percentileValue ∧ percentileValue ≤ 100) then
        .error (.value "percentile 必须在 1 到 100 之间".toList)
      else
        let ordered := Sorting.sortOn id values
        let index := max 0 (((ordered.length : Int) * percentileValue + 99) / 100 - 1)
        match ordered[index.toNat]? with
        | some v => .ok v
        | none => .error (.other "IndexError".toList)

end Metrics
end RagService
