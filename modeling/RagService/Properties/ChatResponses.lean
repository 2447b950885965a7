import RagService.Query.Chat

/-!
# Chat answers

A body of the chat service gives an answer that is not empty or a `ServerError`, unless its
usage or a part on the way to the content has the wrong shape, or the content is blank.
-/

namespace RagService
namespace ChatResponses

open ChatProvider RerankProvider Json Text

/-- The computation returns an answer that is not empty, or raises a `ServerError`. -/
def Settled (x : Except Exception Text) : Prop :=
  (exists answer, x = .ok answer ∧ answer ≠ []) ∨ exists msg, x = .error (.server msg)

/-!
# Shapes of a body

The usage has to convert, and the way to the content has to be one of objects and lists.
-/

def Converts : Json -> Prop
  | .int _ | .bool _ => True
  | .float literal => exists q, Double.ofLiteral literal = .finite q
  | .str s => exists z, Double.intOfText s = some z
  | _ => False

def GoodUsage (usage : Json) : Prop :=
  exists fields, usage = .obj fields ∧
    forall key, key ∈ ["prompt_tokens".toList, "completion_tokens".toList, "total_tokens".toList] ->
      Converts ((field fields key).getD (.int 0))

/-- The content is no text, or an empty one, or one with a visible character. -/
def GoodContent (content : Json) : Prop :=
  forall s, content = .str s -> s = [] ∨ exists c, c ∈ s ∧ isSpace c = false

def GoodMessage (message : Json) : Prop :=
  message.truthy = false ∨ exists fields, message = .obj fields ∧
    GoodContent ((field fields "content".toList).getD .null)

def GoodChoices (choices : Json) : Prop :=
  choices.truthy = false ∨ exists fields rest, choices = .arr (.obj fields :: rest) ∧
    GoodMessage ((field fields "message".toList).getD .null)

/-!
# Exceptions of the steps

What a step gives has to be settled, as the step itself raises no `ServerError`.
-/

section

variable {α : Type} {v : Json}

def NoServerError (x : Except Exception α) : Prop :=
  forall msg, x ≠ .error (.server msg)

/-- What a step gives has to be settled, as the step itself raises no `ServerError`. -/
theorem settled_bind {x : Except Exception α} (h : NoServerError x)
    {f : α -> Except Exception Text} :
    Settled (x >>= f) ↔ exists a, x = .ok a ∧ Settled (f a) := by
  cases x with
  | ok a =>
      show Settled (f a) ↔ _
      constructor
      · intro hf
        exact ⟨a, rfl, hf⟩
      · intro hf
        rcases hf with ⟨a', ha, hf⟩
        rw [Except.ok.inj ha]
        exact hf
  | error e =>
      show Settled (.error e) ↔ _
      constructor
      · intro herror
        rcases herror with ⟨answer, hok, -⟩ | ⟨msg, hserver⟩
        · cases hok
        · exact absurd hserver (fun hserver => h msg (congrArg _ (Except.error.inj hserver)))
      · intro hf
        rcases hf with ⟨a, ha, -⟩
        cases ha

theorem noServerError_bind {β : Type} {x : Except Exception α} (h : NoServerError x)
    {f : α -> Except Exception β} (hf : forall a, NoServerError (f a)) :
    NoServerError (x >>= f) := by
  cases x with
  | ok a => exact hf a
  | error e =>
      intro msg hmsg
      exact h msg (congrArg _ (Except.error.inj hmsg))

theorem noServerError_get (key : Text) (default : Json) : NoServerError (v.get key default) := by
  intro msg h
  unfold Json.get at h
  split at h
  · cases h
  · cases h

theorem noServerError_first : NoServerError v.first := by
  intro msg h
  unfold Json.first at h
  split at h <;> cases h

theorem noServerError_toInt : NoServerError v.toInt := by
  intro msg h
  unfold Json.toInt at h
  split at h
  · cases h
  · cases h
  · split at h <;> cases h
  · split at h <;> cases h
  · cases h

theorem toInt_eq_ok : (exists z, v.toInt = .ok z) ↔ Converts v := by
  unfold Json.toInt Converts
  cases v with
  | int z => exact ⟨fun _ => trivial, fun _ => ⟨z, rfl⟩⟩
  | bool b => exact ⟨fun _ => trivial, fun _ => ⟨_, rfl⟩⟩
  | float literal =>
      dsimp only
      cases Double.ofLiteral literal with
      | finite q => exact ⟨fun _ => ⟨q, rfl⟩, fun _ => ⟨_, rfl⟩⟩
      | infinite _ | nan =>
          constructor
          · intro h
            rcases h with ⟨z, h⟩
            cases h
          · intro h
            rcases h with ⟨q, h⟩
            cases h
  | str s =>
      dsimp only
      cases Double.intOfText s with
      | some z => exact ⟨fun _ => ⟨z, rfl⟩, fun _ => ⟨z, rfl⟩⟩
      | none =>
          constructor
          · intro h
            rcases h with ⟨z, h⟩
            cases h
          · intro h
            rcases h with ⟨z, h⟩
            cases h
  | null | arr _ | obj _ =>
      constructor
      · intro h
        rcases h with ⟨z, h⟩
        cases h
      · intro h
        cases h

/-!
# Usage

The usage is read before the content, and may raise.
-/

theorem readTokens_eq_ok {fields : List (Text × Json)} {key : Text} :
    (exists z, readTokens (.obj fields) key = .ok z) ↔
      Converts ((field fields key).getD (.int 0)) :=
  toInt_eq_ok

theorem noServerError_readTokens (key : Text) : NoServerError (readTokens v key) :=
  noServerError_bind (noServerError_get _ _) fun _ => noServerError_toInt

theorem noServerError_readUsage : NoServerError (readUsage v) := by
  apply noServerError_bind (noServerError_get _ _)
  intro usage
  apply noServerError_bind (noServerError_readTokens _)
  intro promptTokens
  apply noServerError_bind (noServerError_readTokens _)
  intro completionTokens
  apply noServerError_bind (noServerError_readTokens _)
  intro totalTokens msg h
  cases h

theorem readUsage_eq_ok {fields : List (Text × Json)} :
    (exists usage, readUsage (.obj fields) = .ok usage) ↔
      GoodUsage ((field fields "usage".toList).getD (.obj [])) := by
  have hbody : readUsage (.obj fields) = (do
      let usage : Json := (field fields "usage".toList).getD (.obj [])
      let promptTokens ← readTokens usage "prompt_tokens".toList
      let completionTokens ← readTokens usage "completion_tokens".toList
      let totalTokens ← readTokens usage "total_tokens".toList
      return ⟨true, true, promptTokens, completionTokens, totalTokens⟩) := rfl
  rw [hbody]
  dsimp only
  generalize (field fields "usage".toList).getD (.obj []) = usage
  constructor
  · intro h
    rcases h with ⟨result, h⟩
    rcases bind_eq_ok.mp h with ⟨promptTokens, hprompt, h⟩
    rcases bind_eq_ok.mp h with ⟨completionTokens, hcompletion, h⟩
    rcases bind_eq_ok.mp h with ⟨totalTokens, htotal, -⟩
    rcases bind_eq_ok.mp hprompt with ⟨value, hget, -⟩
    rcases get_eq_ok.mp hget with ⟨usageFields, rfl, -⟩
    exists usageFields
    constructor
    · rfl
    · intro key hkey
      rw [← readTokens_eq_ok]
      rw [List.mem_cons, List.mem_cons, List.mem_singleton] at hkey
      rcases hkey with rfl | rfl | rfl
      · exact ⟨promptTokens, hprompt⟩
      · exact ⟨completionTokens, hcompletion⟩
      · exact ⟨totalTokens, htotal⟩
  · intro h
    rcases h with ⟨usageFields, rfl, htokens⟩
    rcases readTokens_eq_ok.mpr (htokens "prompt_tokens".toList (by simp)) with
      ⟨promptTokens, hprompt⟩
    rcases readTokens_eq_ok.mpr (htokens "completion_tokens".toList (by simp)) with
      ⟨completionTokens, hcompletion⟩
    rcases readTokens_eq_ok.mpr (htokens "total_tokens".toList (by simp)) with
      ⟨totalTokens, htotal⟩
    rw [hprompt]
    exists ⟨true, true, promptTokens, completionTokens, totalTokens⟩
    apply bind_eq_ok.mpr
    exists promptTokens
    constructor
    · rfl
    · rw [hcompletion]
      apply bind_eq_ok.mpr
      exists completionTokens
      constructor
      · rfl
      · rw [htotal]
        rfl

/-!
# Content

The choices, the first of them, its message and the content: a `ServerError` where one of them
is missing or empty.
-/

variable {isPrintable : Char -> Bool}

def finish (isPrintable : Char -> Bool) (content : Json) : Except Exception Text :=
  if !content.truthy then .error (.server "聊天模型返回了空回答".toList)
  else .ok (strip (content.asText isPrintable))

theorem settled_finish (isPrintable : Char -> Bool) (content : Json) :
    Settled (finish isPrintable content) ↔ GoodContent content := by
  unfold finish
  cases htruthy : content.truthy with
  | false =>
      constructor
      · intro _ s hs
        rw [hs] at htruthy
        cases s with
        | nil => exact .inl rfl
        | cons c rest => cases htruthy
      · intro _
        exact .inr ⟨_, rfl⟩
  | true =>
      have hsettled : Settled (.ok (strip (content.asText isPrintable))) ↔
          strip (content.asText isPrintable) ≠ [] := by
        constructor
        · intro h
          rcases h with ⟨answer, hok, hne⟩ | ⟨msg, herror⟩
          · rw [Except.ok.inj hok]
            exact hne
          · cases herror
        · exact fun h => .inl ⟨_, rfl, h⟩
      show Settled (.ok (strip (content.asText isPrintable))) ↔ _
      rw [hsettled, strip_ne_nil_iff]
      constructor
      · intro h s hs
        rw [hs] at h
        exact .inr h
      · intro h
        by_cases htext : exists s, content = .str s
        · rcases htext with ⟨s, rfl⟩
          cases h s rfl with
          | inl hempty =>
              rw [hempty] at htruthy
              cases htruthy
          | inr hvisible => exact hvisible
        · exact visible_asText isPrintable fun s hs => htext ⟨s, hs⟩

theorem settled_message (isPrintable : Char -> Bool) (message : Json) :
    Settled (do
      let content ← (message.orElse (.obj [])).get "content".toList .null
      finish isPrintable content) ↔ GoodMessage message := by
  rw [settled_bind (noServerError_get _ _)]
  unfold GoodMessage orElse
  cases htruthy : message.truthy with
  | false =>
      constructor
      · intro _
        exact .inl rfl
      · intro _
        exact ⟨.null, rfl, .inr ⟨_, rfl⟩⟩
  | true =>
      rw [if_pos rfl]
      constructor
      · intro h
        rcases h with ⟨content, hget, hsettled⟩
        rcases get_eq_ok.mp hget with ⟨fields, rfl, rfl⟩
        exact .inr ⟨fields, rfl, (settled_finish isPrintable _).mp hsettled⟩
      · intro h
        rcases h.resolve_left nofun with ⟨fields, rfl, hcontent⟩
        exact ⟨_, rfl, (settled_finish isPrintable _).mpr hcontent⟩

theorem settled_choices (isPrintable : Char -> Bool) {choices : Json}
    (htruthy : choices.truthy = true) :
    Settled (do
      let choice ← choices.first
      let message ← choice.get "message".toList .null
      let content ← (message.orElse (.obj [])).get "content".toList .null
      finish isPrintable content) ↔ GoodChoices choices := by
  have hmessage : forall choice : Json, Settled (do
      let message ← choice.get "message".toList .null
      let content ← (message.orElse (.obj [])).get "content".toList .null
      finish isPrintable content) ↔ exists fields, choice = .obj fields ∧
        GoodMessage ((field fields "message".toList).getD .null) := by
    intro choice
    rw [settled_bind (noServerError_get _ _)]
    constructor
    · intro h
      rcases h with ⟨message, hget, hsettled⟩
      rcases get_eq_ok.mp hget with ⟨fields, rfl, rfl⟩
      exact ⟨fields, rfl, (settled_message isPrintable _).mp hsettled⟩
    · intro h
      rcases h with ⟨fields, rfl, hgood⟩
      exact ⟨_, rfl, (settled_message isPrintable _).mpr hgood⟩
  rw [settled_bind noServerError_first]
  unfold GoodChoices
  rw [htruthy]
  constructor
  · intro h
    rcases h with ⟨choice, hfirst, hsettled⟩
    rcases (hmessage choice).mp hsettled with ⟨fields, rfl, hgood⟩
    right
    unfold Json.first at hfirst
    split at hfirst
    · rename_i item rest
      rw [Except.ok.inj hfirst]
      exact ⟨fields, rest, rfl, hgood⟩
    · cases hfirst
    · cases hfirst
    · cases hfirst
    · cases hfirst
    · cases hfirst
  · intro h
    rcases h.resolve_left nofun with ⟨fields, rest, rfl, hgood⟩
    exact ⟨.obj fields, rfl, (hmessage _).mpr ⟨fields, rfl, hgood⟩⟩

theorem settled_readAnswer {fields : List (Text × Json)} :
    Settled (readAnswer isPrintable (.obj fields)) ↔
      GoodChoices ((field fields "choices".toList).getD .null) := by
  let choices := (field fields "choices".toList).getD .null
  cases htruthy : choices.truthy with
  | false =>
      constructor
      · intro _
        exact .inl htruthy
      · intro _
        right
        exists "聊天模型未返回任何候选回答".toList
        show (if !(choices.orElse (.arr [])).truthy then _ else _) = _
        unfold orElse
        rw [htruthy]
        rfl
  | true =>
      have hread : readAnswer isPrintable (.obj fields) = (do
          let choice ← choices.first
          let message ← choice.get "message".toList .null
          let content ← (message.orElse (.obj [])).get "content".toList .null
          finish isPrintable content) := by
        have horElse : choices.orElse (.arr []) = choices := by
          unfold orElse
          rw [htruthy, if_pos rfl]
        have hguard : readAnswer isPrintable (.obj fields) =
            if !(choices.orElse (.arr [])).truthy then
              .error (.server "聊天模型未返回任何候选回答".toList)
            else (do
              let choice ← (choices.orElse (.arr [])).first
              let message ← choice.get "message".toList .null
              let content ← (message.orElse (.obj [])).get "content".toList .null
              finish isPrintable content) := rfl
        rw [hguard, horElse, htruthy]
        rfl
      rw [hread]
      exact settled_choices isPrintable htruthy

end

/--
A configured provider that gets a JSON object with a success status gives an answer that is
not empty, or a `ServerError`, if and only if the usage and the choices have the right shape.
-/
theorem chat_settles_iff (isPrintable : Char -> Bool) (cfg : ChatSettings)
    {post : ChatProvider.Request -> Except Exception Response} (question context : Text)
    {baseUrl apiKey : Text} {status : Nat} {fields : List (Text × Json)}
    (hbaseUrl : configured cfg.baseUrl = some baseUrl)
    (hapiKey : configured cfg.apiKey = some apiKey)
    (hpost : post ⟨baseUrl ++ "/chat/completions".toList, payload cfg.model question context,
      apiKey⟩ = .ok ⟨status, .ok (.obj fields)⟩) (hstatus : 200 ≤ status ∧ status < 300) :
    Settled (complete isPrintable cfg post question context).2 ↔
      GoodUsage ((field fields "usage".toList).getD (.obj [])) ∧
        GoodChoices ((field fields "choices".toList).getD .null) := by
  have hcomplete : (complete isPrintable cfg post question context).2 = (do
      let _ ← readUsage (.obj fields)
      readAnswer isPrintable (.obj fields)) := by
    have hok : ¬ (status < 200 ∨ 300 ≤ status) := by omega
    have hbody : (do
        let response ← post ⟨baseUrl ++ "/chat/completions".toList,
          payload cfg.model question context, apiKey⟩
        if response.status < 200 ∨ 300 ≤ response.status then
          throw (.httpStatus response.status)
        response.json : Except Exception Json) = .ok (.obj fields) := by
      rw [hpost]
      exact if_neg hok
    unfold complete
    rw [hbaseUrl, hapiKey]
    dsimp only
    rw [hbody]
    dsimp only [Except.bind]
    cases readUsage (.obj fields) with
    | ok usage => rfl
    | error e => rfl
  rw [hcomplete, settled_bind noServerError_readUsage, ← readUsage_eq_ok]
  constructor
  · intro h
    rcases h with ⟨usage, husage, hanswer⟩
    exact ⟨⟨usage, husage⟩, settled_readAnswer.mp hanswer⟩
  · intro h
    rcases h with ⟨⟨usage, husage⟩, hanswer⟩
    exact ⟨usage, husage, settled_readAnswer.mpr hanswer⟩

/-!
# Sample bodies

A service that answers with the same object to every request.
-/

namespace ChatSample

def settings : ChatSettings :=
  ⟨some "http://127.0.0.1/v1".toList, some "key".toList, "qwen-plus".toList, false⟩

def answers (fields : List (Text × Json)) (_ : ChatProvider.Request) :
    Except Exception Response :=
  .ok ⟨200, .ok (.obj fields)⟩

def body (usage : Json) : List (Text × Json) :=
  [("choices".toList, .arr [.obj [("message".toList,
    .obj [("content".toList, .str "a".toList)])]]), ("usage".toList, usage)]

end ChatSample

open ChatSample in
/-- A body with a usage in floats and texts. -/
theorem chat_settles_sample :
    Settled (complete (fun _ => true) settings (answers (body (.obj
      [("prompt_tokens".toList, .float "12.0".toList),
        ("total_tokens".toList, .str " 15 ".toList)]))) "q".toList "c".toList).2 := by
  apply (chat_settles_iff (fun _ => true) settings "q".toList "c".toList rfl rfl rfl
    (by decide)).mpr
  constructor
  · refine ⟨_, rfl, ?_⟩
    intro key hkey
    rw [List.mem_cons, List.mem_cons, List.mem_singleton] at hkey
    rcases hkey with rfl | rfl | rfl
    · exact ⟨12, by decide +kernel⟩
    · trivial
    · exact ⟨15, by decide +kernel⟩
  · right
    refine ⟨_, [], rfl, .inr ⟨_, rfl, ?_⟩⟩
    intro s hs
    cases hs
    exact .inr ⟨'a', List.mem_cons_self, by decide⟩

open ChatSample in
/-- A usage that is null raises an `AttributeError`. -/
theorem chat_settles_fails : ¬ forall (isPrintable : Char -> Bool) (cfg : ChatSettings)
    (post : ChatProvider.Request -> Except Exception Response) (question context : Text)
    (baseUrl apiKey : Text) (status : Nat) (fields : List (Text × Json)),
    configured cfg.baseUrl = some baseUrl -> configured cfg.apiKey = some apiKey ->
      post ⟨baseUrl ++ "/chat/completions".toList, payload cfg.model question context, apiKey⟩ =
        .ok ⟨status, .ok (.obj fields)⟩ -> 200 ≤ status ∧ status < 300 ->
          Settled (complete isPrintable cfg post question context).2 := by
  intro h
  have hnull := h (fun _ => true) settings (answers (body .null)) [] [] _ _ 200 _ rfl rfl rfl
    (by decide)
  rcases hnull with ⟨answer, hok, -⟩ | ⟨msg, hserver⟩
  · cases hok
  · cases hserver

end ChatResponses
end RagService
