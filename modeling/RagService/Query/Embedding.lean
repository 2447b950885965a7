import RagService.Foundation.Sorting
import RagService.Query.Rerank

/-!
# The embedding provider

`EmbeddingProvider.embed`: the request to the embedding service, and the vectors that are
read from the items of its answer.
-/

namespace RagService
namespace EmbeddingProvider

open Sorting

structure EmbeddingSettings where
  baseUrl : Option Text
  apiKey : Option Text
  allowLocalModelFallback : Bool
  model : Text
  dimensions : Nat

structure Request where
  endpoint : Text
  payload : Json
  apiKey : Text

/-- An element of `data`: its vector, and its index if it has one. -/
structure Item where
  index : Option Int
  embedding : Embedding
  deriving DecidableEq

/-- What `httpx` answers: a status, and what `response.json()['data']` gives. -/
structure Response where
  status : Nat
  data : Except Exception (List Item)

def payload (cfg : EmbeddingSettings) (texts : List Text) : Json :=
  .obj [("model".toList, .str cfg.model), ("input".toList, .arr (texts.map .str)),
    ("dimensions".toList, .int cfg.dimensions), ("encoding_format".toList, .str "float".toList)]

/-- `item.get('index', 0)` -/
def Item.key (item : Item) : Int :=
  item.index.getD 0

def readVectors (dimensions : Nat) (texts : List Text) (items : List Item) :
    Except Exception (List Embedding) :=
  let data := sortOn Item.key items
  let vectors := data.map Item.embedding
  if vectors.length ≠ texts.length ∨ vectors.any fun vector => vector.length ≠ dimensions then
    .error (.value "Embedding 返回向量数量或维度不匹配".toList)
  else
    .ok vectors

/-- `embed`, with the development vector of a text. -/
def embed (cfg : EmbeddingSettings) (localEmbedding : Text -> Embedding)
    (post : Request -> Except Exception Response) (texts : List Text) :
    Except Exception (List Embedding) :=
  match RerankProvider.configured cfg.baseUrl, RerankProvider.configured cfg.apiKey with
  | some baseUrl, some apiKey => do
      let response ← post ⟨baseUrl ++ "/embeddings".toList, payload cfg texts, apiKey⟩
      -- `raise_for_status`
      if response.status < 200 ∨ 300 ≤ response.status then
        throw (.httpStatus response.status)
      let items ← response.data
      readVectors cfg.dimensions texts items
  | _, _ =>
      if cfg.allowLocalModelFallback then .ok (texts.map localEmbedding)
      else
        .error (.server "未配置 Embedding 服务，当前环境禁止使用确定性本地伪向量".toList)

end EmbeddingProvider
end RagService
