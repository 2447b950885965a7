import RagService.Query.Bodies
import RagService.Query.Retrieve

/-!
# Reranking

`RerankProvider.rerank`: the request to the rerank service and the reading of its answer,
which may be any JSON value.
-/

namespace RagService

/-!
# The provider

The settings, the request, and the parts of a body for both protocols.
-/

inductive RerankProtocol where
  | openai
  | dashscope
  deriving DecidableEq

structure RerankSettings where
  enabled : Bool
  protocol : RerankProtocol
  baseUrl : Option Text
  apiKey : Option Text
  model : Option Text
  topN : Nat

namespace RerankProvider

structure RerankResult where
  index : Int
  score : Double

structure RerankUsage where
  called : Bool
  succeeded : Bool
  totalTokens : Int
  deriving DecidableEq

structure Request where
  endpoint : Text
  payload : Json
  apiKey : Text

/-- What `httpx` answers: a status, and what `response.json()` gives. -/
structure Response where
  status : Nat
  json : Except Exception Json

/-- `base_url.rstrip('/')` -/
def trimSlashes (url : Text) : Text :=
  (url.reverse.dropWhile (· = '/')).reverse

def endpoint (protocol : RerankProtocol) (baseUrl : Text) : Text :=
  let path := match protocol with
    | .dashscope => "/services/rerank/text-rerank/text-rerank".toList
    | .openai => "/reranks".toList
  if path <:+ baseUrl then baseUrl else baseUrl ++ path

def payload (protocol : RerankProtocol) (model query : Text) (documents : List Text)
    (topN : Nat) : Json :=
  let texts := Json.arr (documents.map .str)
  match protocol with
  | .dashscope =>
      .obj [("model".toList, .str model),
        ("input".toList, .obj [("query".toList, .str query), ("documents".toList, texts)]),
        ("parameters".toList, .obj [("top_n".toList, .int topN)])]
  | .openai =>
      .obj [("model".toList, .str model), ("query".toList, .str query),
        ("documents".toList, texts), ("top_n".toList, .int topN)]

def findResults (protocol : RerankProtocol) (body : Json) : Except Exception Json :=
  match protocol with
  | .dashscope => do
      let output ← body.get "output".toList (.obj [])
      output.get "results".toList (.arr [])
  | .openai => do
      let data ← body.get "data".toList (.arr [])
      body.get "results".toList data

def parseItem (item : Json) : Except Exception RerankResult := do
  let index ← (← item.subscript "index".toList).toInt
  let fallback ← item.get "score".toList .null
  let score ← (← item.get "relevance_score".toList fallback).toFloat
  return ⟨index, score⟩

def parseItems : List Json -> Except Exception (List RerankResult)
  | [] => .ok []
  | item :: rest => do
      let result ← parseItem item
      let results ← parseItems rest
      return result :: results

def outOfRange (documents : Nat) (r : RerankResult) : Bool :=
  r.index < 0 ∨ documents ≤ r.index

def parseBody (protocol : RerankProtocol) (documents : Nat) (body : Json) :
    Except Exception (List RerankResult × Int) := do
  let results ← findResults protocol body
  let items ← results.iterate
  let parsed ← parseItems items
  if parsed.any (outOfRange documents) then
    throw (.value "Rerank 返回了无效候选索引".toList)
  let usage ← body.get "usage".toList (.obj [])
  let totalTokens ← (← usage.get "total_tokens".toList (.int 0)).toInt
  return (parsed, totalTokens)

def configured (setting : Option Text) : Option Text :=
  setting.filter fun s => !s.isEmpty

/-- `rerank` with the usage that it leaves in the context variable. -/
def rerank (cfg : RerankSettings) (post : Request -> Except Exception Response) (query : Text)
    (documents : List Text) : RerankUsage × Except Exception (List RerankResult) :=
  if !cfg.enabled then (⟨false, false, 0⟩, .ok [])
  else
    match configured cfg.baseUrl, configured cfg.apiKey, configured cfg.model with
    | some baseUrl, some apiKey, some model =>
        let topN := min documents.length cfg.topN
        let request : Request :=
          ⟨endpoint cfg.protocol (trimSlashes baseUrl),
            payload cfg.protocol model query documents topN, apiKey⟩
        let answer : Except Exception (List RerankResult × Int) := do
          let response ← post request
          -- `raise_for_status`
          if response.status < 200 ∨ 300 ≤ response.status then
            throw (.httpStatus response.status)
          let body ← response.json
          parseBody cfg.protocol documents.length body
        match answer with
        | .ok (parsed, totalTokens) => (⟨true, true, totalTokens⟩, .ok parsed)
        | .error e => (⟨true, false, 0⟩, .error e)
    | _, _, _ => (⟨false, false, 0⟩, .error (.value "Rerank 已启用但配置不完整".toList))

end RerankProvider
end RagService
