import RagService.Evaluation.Runner
import RagService.Foundation.Ambient
import RagService.Query.Answer
import RagService.Query.Chat

/-!
# Evaluating the service

`run_service_evaluation`: the cases of a dataset are put to `QueryService`, one after another.
The providers leave what their calls used in context variables, which are there for all cases.
-/

namespace RagService
namespace ServiceExecutor

open Context

/-!
# The context variables
-/

/-- `_rerank_usage` and `_chat_usage` -/
structure UsageContext where
  rerank : Option RerankProvider.RerankUsage := none
  chat : Option ChatProvider.ChatUsage := none

def UsageContext.rerankUsage (ctx : UsageContext) : RerankProvider.RerankUsage :=
  ctx.rerank.getD ⟨false, false, 0⟩

def UsageContext.chatUsage (ctx : UsageContext) : ChatProvider.ChatUsage :=
  ctx.chat.getD {}

abbrev Evaluating (α : Type) :=
  EStateM Exception UsageContext α

/-!
# The service

The settings, the arguments, and what a case meets when it is its turn.  `retrieve` and
`answer` are those of `QueryService`, with the usage that the providers leave.
-/

structure ExecutorSettings (K : Type) where
  retrieval : RetrievalSettings
  answer : AnswerSettings
  rerank : RerankSettings
  chat : ChatProvider.ChatSettings
  rerankInputPrice : K
  chatInputPrice : K
  chatOutputPrice : K

structure Evaluation (K : Type) where
  env : Env
  isPrintable : Char -> Bool
  cfg : ExecutorSettings K
  userId : Nat
  isAdmin : Bool
  answerMode : Option QueryMode

structure Moment (K : Type) where
  db : Db
  n : Nat
  backend : Backend
  postRerank : RerankProvider.Request -> Except Exception RerankProvider.Response
  postChat : ChatProvider.Request -> Except Exception RerankProvider.Response
  traceId : Text
  latencyMs : K

section

variable {K : Type} (run : Evaluation K) (m : Moment K)

def rerank (query : Text) (documents : List Text) :
    RerankProvider.RerankUsage × Except Exception (List RerankProvider.RerankResult) :=
  RerankProvider.rerank run.cfg.rerank m.postRerank query documents

def complete (question context : Text) : ChatProvider.ChatUsage × Except Exception Text :=
  ChatProvider.complete run.isPrintable run.cfg.chat m.postChat question context

/-- The backend of the retrieval, with the results of the rerank provider. -/
def backend : Backend :=
  { m.backend with
    rerank := fun query documents =>
      (rerank run m query documents).2.map fun results =>
        results.map fun r => ⟨r.index.toNat, r.score⟩ }

def retrieve (obj : RetrieveParam) : Evaluating (List GetSourceDetail) := do
  let b := backend run m
  let ids ← ofExcept
    (QueryService.accessibleKbIds m.db m.n run.userId run.isAdmin obj.knowledgeBaseIds)
  let vector ← ofExcept (QueryService.embedQuestion b obj.question)
  let ordered ← ofExcept (QueryService.fuse run.env b run.cfg.retrieval m.db m.n obj.question
    vector (QueryService.candidates m.db m.n ids))
  let usage :=
    (rerank run m obj.question (ordered.map fun item => item.chunk.contextualContent)).1
  modify fun ctx => { ctx with rerank := some usage }
  let ordered ← ofExcept (QueryService.rerankResults b obj.question ordered)
  let ordered := QueryService.selectContextResults run.cfg.retrieval ordered obj.topK
  let parentContent := QueryService.getParentContent run.cfg.retrieval m.db m.n ordered
  return (ordered.zipIdx 1).map fun row => QueryService.source b parentContent row.1 row.2

def answer (mode : QueryMode) (obj : RetrieveParam) : Evaluating GetAnswerDetail := do
  -- `reset_chat_usage`
  modify fun ctx => { ctx with chat := some {} }
  let effectiveMode := QueryService.effectiveMode mode obj.question
  let state := QueryService.agentState run.cfg.answer effectiveMode
  let sources ← retrieve run m obj
  if hasSufficientScopeEvidence obj.question sources = false then
    return {
      answer := "当前知识库中没有足够资料回答该问题。".toList
      sources := []
      requestedMode := mode
      effectiveMode := effectiveMode
      status := .insufficientEvidence
      retrievalRounds := state.retrievalRounds
      stopReason :=
        if sources.isEmpty then "no_sources".toList else "insufficient_scope_evidence".toList
      traceId := m.traceId }
  else do
    let selection ← ofExcept
      (buildBoundedContext sources run.cfg.answer.finalContextK run.cfg.answer.contextMaxTokens)
    let completed := complete run m obj.question selection.context
    modify fun ctx => { ctx with chat := some completed.1 }
    let answer ← ofExcept completed.2
    return {
      answer := sanitizeAnswerCitations answer selection.sources
      sources := selection.sources
      requestedMode := mode
      effectiveMode := effectiveMode
      status := .answered
      retrievalRounds := state.retrievalRounds
      stopReason := state.stopReason
      traceId := m.traceId }

end

/-!
# Cases

Each case is put to the service as a `RetrieveParam`, with or without an answer.
-/

/--
`RetrieveParam` with the checks of its fields; a negative id is that of no row.
-/
def retrieveParam (question : Text) (knowledgeBaseIds : List Int) (topK : Nat) :
    Except Exception RetrieveParam :=
  if 1 ≤ question.length ∧ question.length ≤ 4000 ∧ 1 ≤ knowledgeBaseIds.length ∧
      knowledgeBaseIds.length ≤ 50 ∧ 1 ≤ topK ∧ topK ≤ 20 then
    .ok
      { question := question
        knowledgeBaseIds := (knowledgeBaseIds.filter fun id => 0 ≤ id).map Int.toNat
        topK := topK }
  else .error (.value "ValidationError".toList)

section

variable {K : Type} [Field K] (run : Evaluation K)

def rerankCost (cfg : ExecutorSettings K) (usage : RerankProvider.RerankUsage) : K :=
  (usage.totalTokens : K) * cfg.rerankInputPrice / 1000000

def chatCost (cfg : ExecutorSettings K) (usage : ChatProvider.ChatUsage) : K :=
  ((usage.promptTokens : K) * cfg.chatInputPrice +
    (usage.completionTokens : K) * cfg.chatOutputPrice) / 1000000

def evaluateRetrieval (case : EvaluationCase) (m : Moment K) : Evaluating (EvaluationResult K) := do
  let obj ← ofExcept (retrieveParam case.question case.knowledgeBaseIds 20)
  let sources ← retrieve run m obj
  let usage ← UsageContext.rerankUsage <$> get
  return {
    caseId := case.caseId
    retrievedChunkIds := sources.map fun source => (source.chunkId : Int)
    citedChunkIds := []
    abstained := sources.isEmpty
    latencyMs := m.latencyMs
    mode := "retrieval".toList
    rerankCalled := usage.called
    rerankSucceeded := usage.succeeded
    rerankTokens := usage.totalTokens
    rerankCostCny := rerankCost run.cfg usage
    chatCalled := false
    chatSucceeded := false
    chatPromptTokens := 0
    chatCompletionTokens := 0
    chatCostCny := 0 }

def evaluateAnswer (mode : QueryMode) (case : EvaluationCase) (m : Moment K) :
    Evaluating (EvaluationResult K) := do
  let obj ← ofExcept (retrieveParam case.question case.knowledgeBaseIds 20)
  let detail ← answer run m mode obj
  let usage ← UsageContext.rerankUsage <$> get
  let chatUsage ← UsageContext.chatUsage <$> get
  return {
    caseId := case.caseId
    retrievedChunkIds := detail.sources.map fun source => (source.chunkId : Int)
    citedChunkIds := (extractCitedChunkIds detail.answer detail.sources).map Int.ofNat
    abstained := detail.status = .insufficientEvidence
    latencyMs := m.latencyMs
    mode := "answer".toList
    rerankCalled := usage.called
    rerankSucceeded := usage.succeeded
    rerankTokens := usage.totalTokens
    rerankCostCny := rerankCost run.cfg usage
    chatCalled := chatUsage.called
    chatSucceeded := chatUsage.succeeded
    chatPromptTokens := chatUsage.promptTokens
    chatCompletionTokens := chatUsage.completionTokens
    chatCostCny := chatCost run.cfg chatUsage }

def evaluateCase (case : EvaluationCase) (m : Moment K) : Evaluating (EvaluationResult K) :=
  match run.answerMode with
  | none => evaluateRetrieval run case m
  | some mode => evaluateAnswer run mode case m

end

/-!
# The run
-/

def assertIndexProfileAvailable (db : Db) (n : Nat) (profileHash : Text) : Except Exception Unit :=
  match (scan db.profiles n).find? fun p => p.profileHash = profileHash with
  | none => .error (.value "指定的 index_profile_hash 不存在".toList)
  | some profile =>
      if (scan db.documents n).any fun d =>
          d.indexProfileId = some profile.id ∧ d.deleted = 0 then .ok ()
      else .error (.value "指定索引配置下没有可评测文档".toList)

/-- `run_service_evaluation` on the cases, each with what it meets. -/
def runServiceEvaluation {K : Type} [Field K] (run : Evaluation K) (db : Db) (n : Nat)
    (indexProfileHash : Text) (cases : List (EvaluationCase × Moment K)) :
    Evaluating (List (EvaluationResult K)) := do
  ofExcept (assertIndexProfileAvailable db n indexProfileHash)
  cases.mapM fun case => evaluateCase run case.1 case.2

end ServiceExecutor
end RagService
