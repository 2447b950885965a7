import RagService.Evaluation.ServiceExecutor
import RagService.Properties.Evidence
import RagService.Properties.Metrics
import RagService.Properties.Reports
import RagService.Properties.RerankFallback

/-!
# Evaluations of the service

What a run over the cases of a dataset gives: each case has the result that it has alone, with
the usage of its own calls, and the report of the results bills the calls of the run.
-/

namespace RagService
namespace ServiceExecutor

open Context
open Ambient hiding bind_eq_ok

section

variable {K : Type} {run : Evaluation K} {m : Moment K} {obj : RetrieveParam} {mode : QueryMode}
variable {s t : UsageContext}

theorem outcome_retrieve (run : Evaluation K) (m : Moment K) (obj : RetrieveParam)
    (s : UsageContext) : outcome (retrieve run m obj) s =
      QueryService.retrieve run.env (backend run m) run.cfg.retrieval m.db m.n run.userId
        run.isAdmin obj := by
  unfold retrieve
  simp only [outcome_ofExcept_bind, outcome_modify_bind, outcome_pure]
  rfl

theorem outcome_answer (run : Evaluation K) (m : Moment K) (mode : QueryMode)
    (obj : RetrieveParam) (s : UsageContext) :
    outcome (answer run m mode obj) s =
      QueryService.retrieve run.env (backend run m) run.cfg.retrieval m.db m.n run.userId
        run.isAdmin obj >>= QueryService.answer run.cfg.answer
          (fun question context => (complete run m question context).2) mode obj.question
          m.traceId := by
  rw [← outcome_retrieve run m obj { s with chat := some {} }]
  unfold answer
  rw [outcome_modify_bind]
  apply outcome_bind
  intro sources t _
  unfold QueryService.answer
  dsimp only
  split
  · rfl
  · simp only [outcome_ofExcept_bind, outcome_modify_bind, outcome_pure]
    rfl

/-!
# Agreement

An answer sets the variable of the chat before it is read; so an evaluation reads only what it
has written itself.
-/

theorem agrees_retrieve {R Q : UsageContext -> UsageContext -> Prop}
    (h : forall s s' usage, R s s' ->
      Q { s with rerank := some usage } { s' with rerank := some usage }) :
    Agrees R (retrieve run m obj) Q := by
  unfold retrieve
  apply agrees_bind (agrees_ofExcept _)
  intro ids
  apply agrees_bind (agrees_ofExcept _)
  intro vector
  apply agrees_bind (agrees_ofExcept _)
  intro ordered
  apply agrees_bind (agrees_modify fun s s' => h s s' _)
  intro _
  apply agrees_bind (agrees_ofExcept _)
  intro reranked
  exact agrees_pure _

theorem agrees_answer : Agrees (fun _ _ => True) (answer run m mode obj) Eq := by
  unfold answer
  apply agrees_bind (agrees_modify (Q := fun s s' => s.chat = s'.chat) fun s s' _ => rfl)
  intro _
  apply agrees_bind (agrees_retrieve (Q := Eq) fun s s' usage h => by rw [h])
  intro sources
  dsimp only
  split
  · exact agrees_pure _
  · apply agrees_bind (agrees_ofExcept _)
    intro selection
    apply agrees_bind (agrees_modify (Q := Eq) fun s s' h => by rw [h])
    intro _
    apply agrees_bind (agrees_ofExcept _)
    intro text
    exact agrees_pure _

theorem blind_evaluateCase [Field K] (case : EvaluationCase) :
    Blind (evaluateCase run case m) := by
  unfold evaluateCase
  split
  · apply Agrees.blind (Q := fun s s' => s.rerank = s'.rerank)
    apply agrees_bind (agrees_ofExcept _)
    intro obj
    apply agrees_bind (agrees_retrieve (Q := fun s s' => s.rerank = s'.rerank)
      fun s s' usage _ => rfl)
    intro sources
    apply agrees_bind
    · apply agrees_get
      intro s s' h
      rw [UsageContext.rerankUsage, UsageContext.rerankUsage, h]
    · intro usage
      exact agrees_pure _
  · apply Agrees.blind (Q := Eq)
    apply agrees_bind (agrees_ofExcept _)
    intro obj
    apply agrees_bind agrees_answer
    intro detail
    apply agrees_bind (agrees_get fun s s' h => by rw [h])
    intro usage
    apply agrees_bind (agrees_get fun s s' h => by rw [h])
    intro chatUsage
    exact agrees_pure _

/-!
# What the providers leave

The usage that the providers leave: whether the service was called, and what its body says.
-/

theorem retrieve_eq_ok {sources : List GetSourceDetail} (h : retrieve run m obj s = .ok sources t) :
    exists documents, t = { s with rerank := some (rerank run m obj.question documents).1 } := by
  unfold retrieve at h
  rcases Ambient.bind_eq_ok.mp h with ⟨ids, s₁, h₁, h⟩
  rcases Ambient.bind_eq_ok.mp h with ⟨vector, s₂, h₂, h⟩
  rcases Ambient.bind_eq_ok.mp h with ⟨ordered, s₃, h₃, h⟩
  rcases Ambient.bind_eq_ok.mp h with ⟨_, s₄, h₄, h⟩
  rcases Ambient.bind_eq_ok.mp h with ⟨reranked, s₅, h₅, h⟩
  cases (ofExcept_eq_ok.mp h₁).2
  cases (ofExcept_eq_ok.mp h₂).2
  cases (ofExcept_eq_ok.mp h₃).2
  cases h₄
  cases (ofExcept_eq_ok.mp h₅).2
  cases h
  exact ⟨_, rfl⟩

inductive Answered (run : Evaluation K) (m : Moment K) (question : Text)
    (detail : GetAnswerDetail) : ChatProvider.ChatUsage -> Prop where
  | abstained (hstatus : detail.status = .insufficientEvidence) (hsources : detail.sources = []) :
      Answered run m question detail {}
  | answered {context text : Text} {usage : ChatProvider.ChatUsage}
      (hstatus : detail.status = .answered)
      (hcomplete : complete run m question context = (usage, .ok text)) :
      Answered run m question detail usage

theorem answer_eq_ok {detail : GetAnswerDetail} (h : answer run m mode obj s = .ok detail t) :
    exists documents usage, t = ⟨some (rerank run m obj.question documents).1, some usage⟩ ∧
      Answered run m obj.question detail usage := by
  unfold answer at h
  rcases Ambient.bind_eq_ok.mp h with ⟨_, s₁, h₁, h⟩
  rcases Ambient.bind_eq_ok.mp h with ⟨sources, s₂, h₂, h⟩
  cases h₁
  rcases retrieve_eq_ok h₂ with ⟨documents, rfl⟩
  exists documents
  dsimp only at h
  split at h
  · cases h
    exact ⟨{}, rfl, .abstained rfl rfl⟩
  · rcases Ambient.bind_eq_ok.mp h with ⟨selection, s₃, h₃, h⟩
    rcases Ambient.bind_eq_ok.mp h with ⟨_, s₄, h₄, h⟩
    rcases Ambient.bind_eq_ok.mp h with ⟨text, s₅, h₅, h⟩
    cases (ofExcept_eq_ok.mp h₃).2
    cases h₄
    rcases ofExcept_eq_ok.mp h₅ with ⟨htext, rfl⟩
    cases h
    exact ⟨_, rfl, .answered rfl (Prod.ext rfl htext)⟩

/-!
# Sources

The sources of an answer are among those of its retrieval, in their order.
-/

theorem selectSources_sublist (maxSources maxUnits : Nat) (sources : List GetSourceDetail)
    (selecting : Selecting) :
    ((selectSources maxSources maxUnits selecting sources).selectedSources.map
      GetSourceDetail.chunkId).Sublist
        (selecting.selectedSources.map GetSourceDetail.chunkId ++
          sources.map GetSourceDetail.chunkId) := by
  induction sources generalizing selecting with
  | nil => simp [selectSources]
  | cons source rest ih =>
      have hkept : (selecting.selectedSources.map GetSourceDetail.chunkId).Sublist
          (selecting.selectedSources.map GetSourceDetail.chunkId ++
            (source :: rest).map GetSourceDetail.chunkId) := List.sublist_append_left _ _
      unfold selectSources
      split
      · exact (ih selecting).trans ((List.sublist_cons_self _ _).append_left _)
      · dsimp only
        split
        · exact hkept
        · split
          · exact hkept
          · split
            · simp
            · refine (ih _).trans ?_
              simp

theorem buildBoundedContext_sublist {sources : List GetSourceDetail} {maxSources maxTokens : Nat}
    {selection : ContextSelection}
    (h : buildBoundedContext sources maxSources maxTokens = .ok selection) :
    (selection.sources.map GetSourceDetail.chunkId).Sublist
      (sources.map GetSourceDetail.chunkId) := by
  unfold buildBoundedContext at h
  split at h
  · cases h
  · cases h
    exact selectSources_sublist maxSources (maxTokens * 4) sources ⟨0, [], [], []⟩

theorem answer_sublist {sources : List GetSourceDetail} {detail : GetAnswerDetail}
    {cfg : AnswerSettings} {complete : Text -> Text -> Except Exception Text}
    {question traceId : Text}
    (h : QueryService.answer cfg complete mode question traceId sources = .ok detail) :
    (detail.sources.map GetSourceDetail.chunkId).Sublist (sources.map GetSourceDetail.chunkId) := by
  unfold QueryService.answer at h
  dsimp only at h
  split at h
  · cases h
    exact List.nil_sublist _
  · rcases RagService.bind_eq_ok.mp h with ⟨selection, hselection, h⟩
    rcases RagService.bind_eq_ok.mp h with ⟨text, -, h⟩
    cases h
    exact buildBoundedContext_sublist hselection

theorem extractCitedChunkIds_subset (answer : Text) (sources : List GetSourceDetail) :
    extractCitedChunkIds answer sources ⊆ sources.map GetSourceDetail.chunkId := by
  intro chunkId hid
  rw [extractCitedChunkIds, List.mem_eraseDups] at hid
  rcases List.mem_filterMap.mp hid with ⟨citation, -, hid⟩
  rcases Option.map_eq_some_iff.mp hid with ⟨source, hsource, rfl⟩
  exact List.mem_map_of_mem (List.mem_reverse.mp (List.mem_of_find?_eq_some hsource))

end

/-!
# The results of the cases

A run gives the results that the cases give alone, whatever was there before.
-/

section

variable {K : Type} [Field K] {run : Evaluation K} {m : Moment K} {case : EvaluationCase}
variable {result : EvaluationResult K} {s t : UsageContext}

structure UsesRerank (run : Evaluation K) (result : EvaluationResult K)
    (usage : RerankProvider.RerankUsage) : Prop where
  called : result.rerankCalled = usage.called
  succeeded : result.rerankSucceeded = usage.succeeded
  tokens : result.rerankTokens = usage.totalTokens
  cost : result.rerankCostCny = rerankCost run.cfg usage

structure UsesChat (run : Evaluation K) (result : EvaluationResult K)
    (usage : ChatProvider.ChatUsage) : Prop where
  called : result.chatCalled = usage.called
  succeeded : result.chatSucceeded = usage.succeeded
  promptTokens : result.chatPromptTokens = usage.promptTokens
  completionTokens : result.chatCompletionTokens = usage.completionTokens
  cost : result.chatCostCny = chatCost run.cfg usage

inductive Chats (run : Evaluation K) (case : EvaluationCase) (m : Moment K)
    (result : EvaluationResult K) : Prop where
  | silent (hsilent : run.answerMode = none ∨ result.abstained = true)
      (huses : UsesChat run result {})
  | asked {context text : Text} {usage : ChatProvider.ChatUsage}
      (hmode : run.answerMode ≠ none) (habstained : result.abstained = false)
      (hcomplete : complete run m case.question context = (usage, .ok text))
      (huses : UsesChat run result usage)

/-- The result of a case is about what the service did for this case. -/
structure Accounts (run : Evaluation K) (case : EvaluationCase) (m : Moment K)
    (result : EvaluationResult K) : Prop where
  caseId : result.caseId = case.caseId
  mode : result.mode = if run.answerMode = none then "retrieval".toList else "answer".toList
  latencyMs : result.latencyMs = m.latencyMs
  retrieved : exists obj sources,
    retrieveParam case.question case.knowledgeBaseIds 20 = .ok obj ∧
      QueryService.retrieve run.env (backend run m) run.cfg.retrieval m.db m.n run.userId
        run.isAdmin obj = .ok sources ∧
      result.retrievedChunkIds.Sublist (sources.map fun source => (source.chunkId : Int))
  cited : result.citedChunkIds ⊆ result.retrievedChunkIds
  abstained : result.abstained = true -> result.retrievedChunkIds = []
  rerank : exists documents,
    UsesRerank run result (rerank run m case.question documents).1
  chat : Chats run case m result

theorem retrieveParam_question {question : Text} {ids : List Int} {topK : Nat}
    {obj : RetrieveParam} (h : retrieveParam question ids topK = .ok obj) :
    obj.question = question := by
  unfold retrieveParam at h
  split at h
  · cases h
    rfl
  · cases h

theorem accounts_evaluateRetrieval (hmode : run.answerMode = none)
    (h : evaluateRetrieval run case m s = .ok result t) : Accounts run case m result := by
  unfold evaluateRetrieval at h
  rcases Ambient.bind_eq_ok.mp h with ⟨obj, s₁, h₁, h⟩
  rcases Ambient.bind_eq_ok.mp h with ⟨sources, s₂, h₂, h⟩
  rcases Ambient.bind_eq_ok.mp h with ⟨usage, s₃, h₃, h⟩
  rcases ofExcept_eq_ok.mp h₁ with ⟨hobj, rfl⟩
  rcases retrieve_eq_ok h₂ with ⟨documents, rfl⟩
  have hsources := outcome_eq_ok.mpr ⟨_, h₂⟩
  rw [outcome_retrieve] at hsources
  cases h₃
  cases h
  refine
    { caseId := rfl, mode := (if_pos hmode).symm, latencyMs := rfl
      retrieved := ⟨obj, sources, hobj, hsources, .refl _⟩
      cited := List.nil_subset _
      abstained := ?_
      rerank := ⟨documents, ?_⟩
      chat := .silent (.inl hmode) ⟨rfl, rfl, rfl, rfl, ?_⟩ }
  · intro hempty
    rw [List.isEmpty_iff.mp hempty]
    rfl
  · rw [← retrieveParam_question hobj]
    exact ⟨rfl, rfl, rfl, rfl⟩
  · simp [chatCost]

theorem accounts_evaluateAnswer {mode : QueryMode} (hmode : run.answerMode = some mode)
    (h : evaluateAnswer run mode case m s = .ok result t) : Accounts run case m result := by
  unfold evaluateAnswer at h
  rcases Ambient.bind_eq_ok.mp h with ⟨obj, s₁, h₁, h⟩
  rcases Ambient.bind_eq_ok.mp h with ⟨detail, s₂, h₂, h⟩
  rcases Ambient.bind_eq_ok.mp h with ⟨usage, s₃, h₃, h⟩
  rcases Ambient.bind_eq_ok.mp h with ⟨chatUsage, s₄, h₄, h⟩
  rcases ofExcept_eq_ok.mp h₁ with ⟨hobj, rfl⟩
  rcases answer_eq_ok h₂ with ⟨documents, left, rfl, hanswered⟩
  have hdetail := outcome_eq_ok.mpr ⟨_, h₂⟩
  rw [outcome_answer] at hdetail
  rcases RagService.bind_eq_ok.mp hdetail with ⟨sources, hsources, hdetail⟩
  cases h₃
  cases h₄
  cases h
  have hsome : run.answerMode ≠ none := by
    rw [hmode]
    exact Option.some_ne_none mode
  rw [retrieveParam_question hobj] at hanswered
  refine
    { caseId := rfl, mode := (if_neg hsome).symm, latencyMs := rfl
      retrieved := ⟨obj, sources, hobj, hsources, ?_⟩
      cited := ?_
      abstained := ?_
      rerank := ⟨documents, ?_⟩
      chat := ?_ }
  · have hsublist := (answer_sublist hdetail).map Int.ofNat
    rw [List.map_map, List.map_map] at hsublist
    exact hsublist
  · have hcited := List.map_subset Int.ofNat
      (extractCitedChunkIds_subset detail.answer detail.sources)
    rw [List.map_map] at hcited
    exact hcited
  · intro habstained
    cases hanswered with
    | abstained hstatus hnone =>
        dsimp only
        rw [hnone]
        rfl
    | answered hstatus hcomplete =>
        simp [hstatus] at habstained
  · rw [← retrieveParam_question hobj]
    exact ⟨rfl, rfl, rfl, rfl⟩
  · cases hanswered with
    | abstained hstatus hnone =>
        exact .silent (.inr (by simp [hstatus])) ⟨rfl, rfl, rfl, rfl, rfl⟩
    | answered hstatus hcomplete =>
        exact .asked hsome (by simp [hstatus]) hcomplete ⟨rfl, rfl, rfl, rfl, rfl⟩

theorem accounts_evaluateCase (h : evaluateCase run case m s = .ok result t) :
    Accounts run case m result := by
  cases hmode : run.answerMode with
  | none =>
      rw [evaluateCase, hmode] at h
      exact accounts_evaluateRetrieval hmode h
  | some mode =>
      rw [evaluateCase, hmode] at h
      exact accounts_evaluateAnswer hmode h

/-- A run gives the results that the cases give alone, whatever was there before. -/
theorem run_eq_ok {db : Db} {n : Nat} {indexProfileHash : Text}
    {cases : List (EvaluationCase × Moment K)} {results : List (EvaluationResult K)}
    {ctx : UsageContext} :
    outcome (runServiceEvaluation run db n indexProfileHash cases) ctx = .ok results ↔
      assertIndexProfileAvailable db n indexProfileHash = .ok () ∧
        List.Forall₂ (fun case result =>
          outcome (evaluateCase run case.1 case.2) {} = .ok result) cases results := by
  unfold runServiceEvaluation
  rw [outcome_ofExcept_bind, RagService.bind_eq_ok,
    outcome_mapM (fun case _ => blind_evaluateCase case.1) ctx {}, mapM_eq_ok]
  constructor
  · intro h
    rcases h with ⟨_, havailable, h⟩
    exact ⟨havailable, h⟩
  · intro h
    exact ⟨(), h.1, h.2⟩

theorem accounts_of_outcome (h : outcome (evaluateCase run case m) s = .ok result) :
    Accounts run case m result := by
  rcases outcome_eq_ok.mp h with ⟨left, hleft⟩
  exact accounts_evaluateCase hleft

/--
A run gives results just where its cases give them alone, whatever calls were accounted for
before, and each result is about what the service did for its case.
-/
theorem results_account_for_their_cases (run : Evaluation K) (db : Db) (n : Nat)
    (indexProfileHash : Text) (cases : List (EvaluationCase × Moment K))
    (results : List (EvaluationResult K)) (ctx : UsageContext) :
    outcome (runServiceEvaluation run db n indexProfileHash cases) ctx = .ok results ↔
      assertIndexProfileAvailable db n indexProfileHash = .ok () ∧
        List.Forall₂ (fun case result =>
          outcome (evaluateCase run case.1 case.2) {} = .ok result ∧
            Accounts run case.1 case.2 result) cases results := by
  rw [run_eq_ok]
  constructor
  · intro h
    exact ⟨h.1, h.2.imp fun _ _ hresult => ⟨hresult, accounts_of_outcome hresult⟩⟩
  · intro h
    exact ⟨h.1, h.2.imp fun _ _ hresult => hresult.1⟩

end

/-!
# The report of a run

The report adds up what the results were billed.
-/

section

variable {K : Type} [Field K] {run : Evaluation K} {m : Moment K} {case : EvaluationCase}
variable {result : EvaluationResult K} {results : List (EvaluationResult K)}
variable {cases : List (EvaluationCase × Moment K)}

end

section

variable {K : Type} [Field K] [LinearOrder K] {log2 : Nat -> K} {isPrintable : Char -> Bool}
variable {cases : List EvaluationCase} {results : List (EvaluationResult K)} {report : Report K}

end

namespace EvaluationSample

open Reports

def env : Env where
  sha256 := fun _ => []
  docxParagraphs := fun _ => .error .os
  pdfPages := fun _ => .error .os
  jiebaCut := fun text => [text]
  casefold := id
  isAlnum := fun _ => true

def run : Evaluation ℝ where
  env := env
  isPrintable := fun _ => true
  cfg :=
    { retrieval := ⟨true, 30, 30, 60, 1, 1 / 2⟩
      answer := ⟨8, 6000, 2, 6⟩
      rerank := ⟨true, .openai, some "http://127.0.0.1/v1".toList, some "key".toList,
        some "reranker".toList, 8⟩
      chat := ⟨some "http://127.0.0.1/v1".toList, some "key".toList, "model".toList, false⟩
      rerankInputPrice := 1
      chatInputPrice := 1
      chatOutputPrice := 1 }
  userId := 1
  isAdmin := false
  answerMode := some .basic

def chunk : Chunk where
  id := 4
  knowledgeBaseId := 1
  documentId := 2
  chunkIndex := 0
  content := "q".toList
  contextualContent := "q".toList
  searchText := "q".toList
  exactTokens := []
  contentHash := []
  charCount := 1
  tokenCount := 1
  embedding := some [1]
  indexVersion := 1
  parentChunkId := none
  isParent := false
  headingPath := []
  deleted := 0

def document : Document where
  id := 2
  knowledgeBaseId := 1
  filename := "a.txt".toList
  fileType := "txt".toList
  mimeType := none
  storageKey := []
  fileSize := 1
  contentHash := []
  parsedContent := none
  status := .ready
  errorMessage := none
  chunkCount := 1
  indexVersion := 1
  indexProfileId := some 3
  createdTime := 0
  updatedTime := none
  deleted := 0

def profile : IndexProfile where
  id := 3
  profileHash := "hash".toList
  payload := ⟨[], [], [], [], 1, 0, [], [], [], 1, none, []⟩

def db : Db where
  knowledgeBases := fun i => if i = 1 then some ⟨1, 1, "base".toList, none, false, 0⟩ else none
  documents := fun i => if i = 2 then some document else none
  chunks := fun i => if i = 2 then [chunk] else []
  profiles := fun i => if i = 3 then some profile else none
  events := fun _ => none

def rerankBody : Json :=
  .obj [("results".toList, .arr [.obj [("index".toList, .int 0),
    ("relevance_score".toList, .int 1)]]),
    ("usage".toList, .obj [("total_tokens".toList, .int 7)])]

def chatBody : Json :=
  .obj [("choices".toList, .arr [.obj [("message".toList,
    .obj [("content".toList, .str "q [S1]".toList)])]]),
    ("usage".toList, .obj [("prompt_tokens".toList, .int 11),
      ("completion_tokens".toList, .int 5), ("total_tokens".toList, .int 16)])]

def moment : Moment ℝ where
  db := db
  n := 5
  backend :=
    { cosineDistance := fun _ _ => 0
      indexScan := fun _ _ _ _ => true
      textMatch := fun _ _ => true
      tsRankCd := fun _ _ => 0
      place := Chunk.id
      float := id
      embed := fun texts => .ok (texts.map fun _ => [1])
      rerank := fun _ _ => .ok [] }
  postRerank := fun _ => .ok ⟨200, .ok rerankBody⟩
  postChat := fun _ => .ok ⟨200, .ok chatBody⟩
  traceId := []
  latencyMs := 1

def case (caseId : Text) : EvaluationCase :=
  { ungradedCase with
    caseId := caseId
    relevantChunkIds := [4]
    expectedCitationChunkIds := [4] }

def line (caseId : Text) : Json :=
  .obj [("case_id".toList, .str caseId), ("question".toList, .str "q".toList),
    ("category".toList, .str "faq".toList), ("knowledge_base_ids".toList, .arr [.int 1]),
    ("relevant_chunk_ids".toList, .arr [.int 4]), ("expected_abstain".toList, .bool false),
    ("review_status".toList, .str "approved".toList)]

def cases : List (EvaluationCase × Moment ℝ) :=
  [(case "a".toList, moment), (case "b".toList, moment)]

def content : Text :=
  Json.dumps false (line "a".toList) ++ '\n' :: Json.dumps false (line "b".toList)

def calls (result : EvaluationResult ℝ) : Bool × Int × Int × Int :=
  (result.abstained, result.rerankTokens, result.chatPromptTokens, result.chatCompletionTokens)

end EvaluationSample

end ServiceExecutor
end RagService
