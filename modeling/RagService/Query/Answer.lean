import RagService.Query.Context

/-!
# Answering

`QueryService.answer` after the retrieval: the evidence gate, the bounded context, the
model and the citations of its answer.
-/

namespace RagService

open Context

inductive QueryMode where
  | basic
  | agentic
  | auto
  deriving DecidableEq

inductive AnswerStatus where
  | answered
  | insufficientEvidence
  deriving DecidableEq

structure AnswerSettings where
  finalContextK : Nat
  contextMaxTokens : Nat
  agentMaxRetrievalRounds : Nat
  agentMaxToolCalls : Nat

structure AgentState where
  retrievalRounds : Nat
  toolCalls : Nat
  stopReason : Text

structure GetAnswerDetail where
  answer : Text
  sources : List GetSourceDetail
  requestedMode : QueryMode
  effectiveMode : QueryMode
  status : AnswerStatus
  retrievalRounds : Nat
  stopReason : Text
  traceId : Text

namespace QueryService

def effectiveMode (mode : QueryMode) (question : Text) : QueryMode :=
  if mode = .agentic ∨ (mode = .auto ∧ 80 < question.length) then .agentic else .basic

/-- The one node of the agent graph. -/
def agentState (cfg : AnswerSettings) (mode : QueryMode) : AgentState :=
  if mode = .agentic then
    { retrievalRounds := min 1 cfg.agentMaxRetrievalRounds
      toolCalls := min 1 cfg.agentMaxToolCalls
      stopReason := "bounded_retrieval".toList }
  else
    { retrievalRounds := 1, toolCalls := 0, stopReason := "basic_retrieval".toList }

/--
The answer to a question from its retrieved sources.  `complete` is the chat provider on
the question and the context.
-/
def answer (cfg : AnswerSettings) (complete : Text -> Text -> Except Exception Text)
    (mode : QueryMode) (question traceId : Text) (sources : List GetSourceDetail) :
    Except Exception GetAnswerDetail :=
  let effectiveMode := effectiveMode mode question
  let state := agentState cfg effectiveMode
  if hasSufficientScopeEvidence question sources = false then
    .ok
      { answer := "当前知识库中没有足够资料回答该问题。".toList
        sources := []
        requestedMode := mode
        effectiveMode := effectiveMode
        status := .insufficientEvidence
        retrievalRounds := state.retrievalRounds
        stopReason :=
          if sources.isEmpty then "no_sources".toList
          else "insufficient_scope_evidence".toList
        traceId := traceId }
  else do
    let selection ← buildBoundedContext sources cfg.finalContextK cfg.contextMaxTokens
    let answer ← complete question selection.context
    return {
      answer := sanitizeAnswerCitations answer selection.sources
      sources := selection.sources
      requestedMode := mode
      effectiveMode := effectiveMode
      status := .answered
      retrievalRounds := state.retrievalRounds
      stopReason := state.stopReason
      traceId := traceId }

end QueryService
end RagService
