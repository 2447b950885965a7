import Mathlib.Data.List.Forall2
import RagService.Query.Rerank

/-!
# Reranking degrades

A retrieval goes on without the reranker where `rerank` raises one of four classes.  Two
others escape: the body or a part of it has no `get`, and a number is too large to convert.
-/

namespace RagService

open QueryService RerankProvider

/-!
# Escaping exceptions

The exceptions that the retrieval does not catch, through the steps of a computation.
-/

def Escaping {α : Type} (x : Except Exception α) : Prop :=
  exists e, x = .error e ∧ degrades e = false

section

variable {α β : Type}

theorem not_escaping_ok (a : α) : ¬ Escaping (.ok a : Except Exception α) := by
  intro h
  rcases h with ⟨e, h, -⟩
  cases h

theorem escaping_error {e : Exception} :
    Escaping (.error e : Except Exception α) ↔ degrades e = false := by
  constructor
  · intro h
    rcases h with ⟨e', h, hescapes⟩
    cases h
    exact hescapes
  · intro h
    exact ⟨e, rfl, h⟩

theorem escaping_bind {x : Except Exception α} {f : α -> Except Exception β} :
    Escaping (x >>= f) ↔ Escaping x ∨ exists a, x = .ok a ∧ Escaping (f a) := by
  cases x with
  | ok a =>
      show Escaping (f a) ↔ _
      constructor
      · intro h
        exact .inr ⟨a, rfl, h⟩
      · intro h
        cases h with
        | inl h => exact absurd h (not_escaping_ok a)
        | inr h =>
            rcases h with ⟨a', ha, h⟩
            cases ha
            exact h
  | error e =>
      show Escaping (.error e) ↔ _
      rw [escaping_error]
      constructor
      · intro h
        exact .inl (escaping_error.mpr h)
      · intro h
        cases h with
        | inl h => exact escaping_error.mp h
        | inr h =>
            rcases h with ⟨a, ha, -⟩
            cases ha

end

/-!
# JSON values

Numbers of a body that `int` or `float` refuses with an `OverflowError`.
-/

namespace Json

def Infinite (v : Json) : Prop :=
  exists literal negative, v = .float literal ∧ Double.ofLiteral literal = .infinite negative

def TooLarge (v : Json) : Prop :=
  exists z : Int, v = .int z ∧ forall q, Double.ofRat z ≠ .finite q

variable {v : Json} {key : Text}

theorem escaping_get {default : Json} : Escaping (v.get key default) ↔ ¬ v.IsObject := by
  cases v with
  | obj fields =>
      constructor
      · intro h
        exact absurd h (not_escaping_ok _)
      · intro h
        exact absurd ⟨fields, rfl⟩ h
  | null | bool _ | int _ | float _ | str _ | arr _ =>
      constructor
      · intro _ h
        rcases h with ⟨fields, h⟩
        cases h
      · intro _
        exact ⟨_, rfl, by decide⟩

theorem not_escaping_subscript : ¬ Escaping (v.subscript key) := by
  unfold subscript
  split
  · split
    · exact not_escaping_ok _
    · rw [escaping_error]
      decide
  · rw [escaping_error]
    decide

theorem subscript_eq_ok {value : Json} : v.subscript key = .ok value ↔
    exists fields, v = .obj fields ∧ field fields key = some value := by
  unfold subscript
  split
  · rename_i fields
    split
    · rename_i found hfound
      constructor
      · intro h
        cases h
        exact ⟨fields, rfl, hfound⟩
      · intro h
        rcases h with ⟨fields', h, hvalue⟩
        cases h
        rw [hfound, Option.some.injEq] at hvalue
        rw [hvalue]
    · rename_i hnone
      constructor
      · intro h
        cases h
      · intro h
        rcases h with ⟨fields', h, hvalue⟩
        cases h
        rw [hnone] at hvalue
        cases hvalue
  · rename_i hother
    constructor
    · intro h
      cases h
    · intro h
      rcases h with ⟨fields, h, -⟩
      exact absurd h (hother fields)

theorem not_escaping_iterate : ¬ Escaping v.iterate := by
  unfold iterate
  split
  · exact not_escaping_ok _
  · exact not_escaping_ok _
  · exact not_escaping_ok _
  · rw [escaping_error]
    decide

theorem escaping_toInt : Escaping v.toInt ↔ v.Infinite := by
  constructor
  · intro h
    unfold toInt at h
    split at h
    · exact absurd h (not_escaping_ok _)
    · exact absurd h (not_escaping_ok _)
    · split at h
      · exact absurd h (not_escaping_ok _)
      · rename_i hliteral
        exact ⟨_, _, rfl, hliteral⟩
      · exact absurd (escaping_error.mp h) (by decide)
    · split at h
      · exact absurd h (not_escaping_ok _)
      · exact absurd (escaping_error.mp h) (by decide)
    · exact absurd (escaping_error.mp h) (by decide)
  · intro h
    rcases h with ⟨literal, negative, rfl, hliteral⟩
    have hvalue : toInt (.float literal) = .error (.other "OverflowError".toList) := by
      simp only [toInt, hliteral]
    rw [hvalue, escaping_error]
    decide

theorem escaping_floatOfInt {z : Int} :
    Escaping (floatOfInt z) ↔ forall q, Double.ofRat z ≠ .finite q := by
  unfold floatOfInt
  split
  · rename_i q hq
    rw [hq]
    constructor
    · intro h
      exact absurd h (not_escaping_ok _)
    · intro h
      exact absurd rfl (h q)
  · rename_i hother
    constructor
    · intro _
      exact hother
    · intro _
      rw [escaping_error]
      decide

theorem not_escaping_floatOfBool (b : Bool) : ¬ Escaping (floatOfInt (if b then 1 else 0)) := by
  rw [escaping_floatOfInt]
  intro h
  cases b with
  | false => exact h 0 (by decide +kernel)
  | true => exact h 1 (by decide +kernel)

theorem escaping_toFloat : Escaping v.toFloat ↔ v.TooLarge := by
  constructor
  · intro h
    unfold toFloat at h
    split at h
    · rename_i z
      exact ⟨z, rfl, escaping_floatOfInt.mp h⟩
    · rename_i b
      exact absurd h (not_escaping_floatOfBool b)
    · exact absurd h (not_escaping_ok _)
    · split at h
      · exact absurd h (not_escaping_ok _)
      · exact absurd (escaping_error.mp h) (by decide)
    · exact absurd (escaping_error.mp h) (by decide)
  · intro h
    rcases h with ⟨z, rfl, hz⟩
    exact escaping_floatOfInt.mpr hz

end Json

/-!
# Results of a body

The comprehension reads one item after another and stops at the first that raises.
-/

open Json

def scoreValue (fields : List (Text × Json)) : Json :=
  (field fields "relevance_score".toList).getD ((field fields "score".toList).getD .null)

def ReadsAs (item : Json) (r : RerankProvider.RerankResult) : Prop :=
  exists fields index, item = .obj fields ∧ field fields "index".toList = some index ∧
    index.toInt = .ok r.index ∧ (scoreValue fields).toFloat = .ok r.score

def Overflows (item : Json) : Prop :=
  exists fields index, item = .obj fields ∧ field fields "index".toList = some index ∧
    (index.Infinite ∨ (exists i, index.toInt = .ok i) ∧ (scoreValue fields).TooLarge)

theorem parseItem_eq_ok {item : Json} {r : RerankProvider.RerankResult} :
    parseItem item = .ok r ↔ ReadsAs item r := by
  unfold parseItem
  simp only [bind_eq_ok, subscript_eq_ok, get_eq_ok]
  constructor
  · rintro ⟨index, ⟨fields, rfl, hindex⟩, i, hi, fallback, ⟨_, hfields, rfl⟩, value,
      ⟨_, hfields', rfl⟩, score, hscore, hr⟩
    cases hfields
    cases hfields'
    cases hr
    exact ⟨fields, index, rfl, hindex, hi, hscore⟩
  · intro h
    rcases h with ⟨fields, index, rfl, hindex, hi, hscore⟩
    exact ⟨index, ⟨fields, rfl, hindex⟩, r.index, hi, _, ⟨fields, rfl, rfl⟩, _,
      ⟨fields, rfl, rfl⟩, r.score, hscore, rfl⟩

theorem escaping_parseItem {item : Json} : Escaping (parseItem item) ↔ Overflows item := by
  unfold parseItem
  simp only [escaping_bind, subscript_eq_ok, get_eq_ok, not_escaping_subscript, false_or,
    escaping_toInt, escaping_get, escaping_toFloat]
  constructor
  · intro h
    rcases h with ⟨index, ⟨fields, rfl, hindex⟩, h⟩
    refine ⟨fields, index, rfl, hindex, ?_⟩
    cases h with
    | inl h => exact .inl h
    | inr h =>
        rcases h with ⟨i, hi, h⟩
        cases h with
        | inl h => exact absurd ⟨fields, rfl⟩ h
        | inr h =>
            rcases h with ⟨_, ⟨_, hfields, rfl⟩, h⟩
            cases hfields
            cases h with
            | inl h => exact absurd ⟨fields, rfl⟩ h
            | inr h =>
                rcases h with ⟨_, ⟨_, hfields, rfl⟩, h⟩
                cases hfields
                cases h with
                | inl h => exact .inr ⟨⟨i, hi⟩, h⟩
                | inr h =>
                    rcases h with ⟨_, _, h⟩
                    exact absurd h (not_escaping_ok _)
  · intro h
    rcases h with ⟨fields, index, rfl, hindex, h⟩
    refine ⟨index, ⟨fields, rfl, hindex⟩, ?_⟩
    cases h with
    | inl h => exact .inl h
    | inr h =>
        rcases h with ⟨⟨i, hi⟩, h⟩
        exact .inr ⟨i, hi, .inr ⟨_, ⟨fields, rfl, rfl⟩, .inr ⟨_, ⟨fields, rfl, rfl⟩, .inl h⟩⟩⟩

theorem parseItems_eq_ok {items : List Json} {parsed : List RerankProvider.RerankResult} :
    parseItems items = .ok parsed ↔ List.Forall₂ ReadsAs items parsed := by
  induction items generalizing parsed with
  | nil =>
      constructor
      · intro h
        cases h
        exact .nil
      · intro h
        cases h
        rfl
  | cons item rest ih =>
      unfold parseItems
      simp only [bind_eq_ok, parseItem_eq_ok, ih]
      constructor
      · intro h
        rcases h with ⟨r, hr, rs, hrs, h⟩
        cases h
        exact .cons hr hrs
      · intro h
        cases h with
        | cons hr hrs => exact ⟨_, hr, _, hrs, rfl⟩

/-- The comprehension stops with an overflow: all items before it are good. -/
def OverflowsIn (items : List Json) : Prop :=
  exists before item after, items = before ++ item :: after ∧
    (forall x, x ∈ before -> exists r, ReadsAs x r) ∧ Overflows item

theorem overflowsIn_cons {item : Json} {rest : List Json} : OverflowsIn (item :: rest) ↔
    Overflows item ∨ (exists r, ReadsAs item r) ∧ OverflowsIn rest := by
  constructor
  · intro h
    rcases h with ⟨before, overflowing, after, hitems, hbefore, hoverflows⟩
    cases before with
    | nil =>
        cases hitems
        exact .inl hoverflows
    | cons first before =>
        cases hitems
        have hrest : forall x, x ∈ before -> exists r, ReadsAs x r :=
          fun x hx => hbefore x (.tail _ hx)
        exact .inr ⟨hbefore _ (.head _), before, overflowing, after, rfl, hrest, hoverflows⟩
  · intro h
    cases h with
    | inl h => exact ⟨[], item, rest, rfl, nofun, h⟩
    | inr h =>
        rcases h with ⟨hitem, before, overflowing, after, rfl, hbefore, hoverflows⟩
        exact ⟨item :: before, overflowing, after, rfl, List.forall_mem_cons.mpr ⟨hitem, hbefore⟩,
          hoverflows⟩

theorem escaping_parseItems {items : List Json} :
    Escaping (parseItems items) ↔ OverflowsIn items := by
  induction items with
  | nil =>
      constructor
      · intro h
        exact absurd h (not_escaping_ok _)
      · intro h
        rcases h with ⟨before, item, after, hitems, -⟩
        simp at hitems
  | cons item rest ih =>
      unfold parseItems
      rw [overflowsIn_cons, escaping_bind, escaping_parseItem]
      simp only [parseItem_eq_ok, escaping_bind, ih]
      constructor
      · intro h
        cases h with
        | inl h => exact .inl h
        | inr h =>
            rcases h with ⟨r, hr, h⟩
            cases h with
            | inl h => exact .inr ⟨⟨r, hr⟩, h⟩
            | inr h =>
                rcases h with ⟨_, -, h⟩
                exact absurd h (not_escaping_ok _)
      · intro h
        cases h with
        | inl h => exact .inl h
        | inr h =>
            rcases h with ⟨⟨r, hr⟩, h⟩
            exact .inr ⟨r, hr, .inl h⟩

/-!
# Bodies

The parts of a body: the fields that are read with `get`, the results, and the usage after
them.
-/

def outputOf (fields : List (Text × Json)) : Json :=
  (field fields "output".toList).getD (.obj [])

def usageOf (fields : List (Text × Json)) : Json :=
  (field fields "usage".toList).getD (.obj [])

inductive FindsResults : RerankProtocol -> List (Text × Json) -> Json -> Prop where
  | dashscope {fields output : List (Text × Json)} : outputOf fields = .obj output ->
      FindsResults .dashscope fields ((field output "results".toList).getD (.arr []))
  | openai {fields : List (Text × Json)} : FindsResults .openai fields
      ((field fields "results".toList).getD ((field fields "data".toList).getD (.arr [])))

def InRange (documents : Nat) (r : RerankProvider.RerankResult) : Prop :=
  0 ≤ r.index ∧ r.index < documents

def GoodResults (protocol : RerankProtocol) (documents : Nat) (fields : List (Text × Json)) :
    Prop :=
  exists results items parsed, FindsResults protocol fields results ∧
    results.iterate = .ok items ∧ List.Forall₂ ReadsAs items parsed ∧
      forall r, r ∈ parsed -> InRange documents r

/-- The bodies that raise an exception which the retrieval does not catch: something that
is read with `get` is no object, or a number that is converted is out of range. -/
inductive Escapes (protocol : RerankProtocol) (documents : Nat) : Json -> Prop where
  | body {v : Json} : ¬ v.IsObject -> Escapes protocol documents v
  | output {fields : List (Text × Json)} : protocol = .dashscope ->
      ¬ (outputOf fields).IsObject -> Escapes protocol documents (.obj fields)
  | item {fields : List (Text × Json)} {results : Json} {items : List Json} :
      FindsResults protocol fields results -> results.iterate = .ok items ->
        OverflowsIn items -> Escapes protocol documents (.obj fields)
  | usage {fields : List (Text × Json)} : GoodResults protocol documents fields ->
      ¬ (usageOf fields).IsObject -> Escapes protocol documents (.obj fields)
  | totalTokens {fields usage : List (Text × Json)} : GoodResults protocol documents fields ->
      usageOf fields = .obj usage ->
        ((field usage "total_tokens".toList).getD (.int 0)).Infinite ->
          Escapes protocol documents (.obj fields)

section

variable {protocol : RerankProtocol} {documents : Nat} {body : Json}

theorem findResults_eq_ok {results : Json} : findResults protocol body = .ok results ↔
    exists fields, body = .obj fields ∧ FindsResults protocol fields results := by
  unfold findResults
  cases protocol with
  | dashscope =>
      simp only [bind_eq_ok, get_eq_ok]
      constructor
      · intro h
        rcases h with ⟨_, ⟨fields, rfl, rfl⟩, output, houtput, rfl⟩
        exact ⟨fields, rfl, .dashscope houtput⟩
      · intro h
        rcases h with ⟨fields, rfl, h⟩
        cases h with
        | dashscope houtput => exact ⟨_, ⟨fields, rfl, rfl⟩, _, houtput, rfl⟩
  | openai =>
      simp only [bind_eq_ok, get_eq_ok]
      constructor
      · intro h
        rcases h with ⟨_, ⟨fields, rfl, rfl⟩, _, hfields, rfl⟩
        cases hfields
        exact ⟨fields, rfl, .openai⟩
      · intro h
        rcases h with ⟨fields, rfl, h⟩
        cases h with
        | openai => exact ⟨_, ⟨fields, rfl, rfl⟩, fields, rfl, rfl⟩

theorem escaping_findResults : Escaping (findResults protocol body) ↔ ¬ body.IsObject ∨
    exists fields, body = .obj fields ∧ protocol = .dashscope ∧
      ¬ (outputOf fields).IsObject := by
  unfold findResults
  cases protocol with
  | dashscope =>
      simp only [escaping_bind, escaping_get, get_eq_ok]
      constructor
      · intro h
        cases h with
        | inl h => exact .inl h
        | inr h =>
            rcases h with ⟨_, ⟨fields, rfl, rfl⟩, h⟩
            exact .inr ⟨fields, rfl, trivial, h⟩
      · intro h
        cases h with
        | inl h => exact .inl h
        | inr h =>
            rcases h with ⟨fields, rfl, -, h⟩
            exact .inr ⟨_, ⟨fields, rfl, rfl⟩, h⟩
  | openai =>
      simp only [escaping_bind, escaping_get, get_eq_ok]
      constructor
      · intro h
        cases h with
        | inl h => exact .inl h
        | inr h =>
            rcases h with ⟨_, ⟨fields, rfl, rfl⟩, h⟩
            exact absurd ⟨fields, rfl⟩ h
      · intro h
        cases h with
        | inl h => exact .inl h
        | inr h =>
            rcases h with ⟨_, -, h, -⟩
            cases h

theorem inRange_iff {parsed : List RerankProvider.RerankResult} :
    (forall r, r ∈ parsed -> InRange documents r) ↔ parsed.any (outOfRange documents) = false := by
  rw [List.any_eq_false]
  apply forall₂_congr
  intro r _
  simp only [InRange, outOfRange, decide_eq_true_eq]
  omega

theorem escaping_usage {fields : List (Text × Json)} {parsed : List RerankProvider.RerankResult} :
    (Escaping do
      if parsed.any (outOfRange documents) then
        throw (.value "Rerank 返回了无效候选索引".toList)
      let usage ← (obj fields).get "usage".toList (.obj [])
      let totalTokens ← (← usage.get "total_tokens".toList (.int 0)).toInt
      return (parsed, totalTokens)) ↔
    (forall r, r ∈ parsed -> InRange documents r) ∧ (¬ (usageOf fields).IsObject ∨
      exists usage, usageOf fields = .obj usage ∧
        ((field usage "total_tokens".toList).getD (.int 0)).Infinite) := by
  rw [inRange_iff]
  cases parsed.any (outOfRange documents) with
  | true =>
      constructor
      · intro h
        exact absurd (escaping_error.mp h) (by decide)
      · intro h
        cases h.1
  | false =>
      simp only [Bool.false_eq_true, if_false, true_and, escaping_bind, get_eq_ok,
        escaping_get, escaping_toInt]
      constructor
      · intro h
        cases h with
        | inl h => exact absurd ⟨fields, rfl⟩ h
        | inr h =>
            rcases h with ⟨_, ⟨_, hfields, rfl⟩, h⟩
            cases hfields
            cases h with
            | inl h => exact .inl h
            | inr h =>
                rcases h with ⟨_, ⟨usage, husage, rfl⟩, h⟩
                cases h with
                | inl h => exact .inr ⟨usage, husage, h⟩
                | inr h =>
                    rcases h with ⟨_, _, h⟩
                    exact absurd h (not_escaping_ok _)
      · intro h
        cases h with
        | inl h => exact .inr ⟨_, ⟨fields, rfl, rfl⟩, .inl h⟩
        | inr h =>
            rcases h with ⟨usage, husage, h⟩
            exact .inr ⟨_, ⟨fields, rfl, rfl⟩, .inr ⟨_, ⟨usage, husage, rfl⟩, .inl h⟩⟩

theorem escaping_parseBody :
    Escaping (parseBody protocol documents body) ↔ Escapes protocol documents body := by
  unfold parseBody
  rw [escaping_bind, escaping_findResults]
  simp only [findResults_eq_ok]
  constructor
  · intro h
    cases h with
    | inl h =>
        cases h with
        | inl h => exact .body h
        | inr h =>
            rcases h with ⟨fields, rfl, hprotocol, houtput⟩
            exact .output hprotocol houtput
    | inr h =>
        rcases h with ⟨results, ⟨fields, rfl, hresults⟩, h⟩
        rw [escaping_bind] at h
        cases h with
        | inl h => exact absurd h not_escaping_iterate
        | inr h =>
            rcases h with ⟨items, hitems, h⟩
            rw [escaping_bind, escaping_parseItems] at h
            cases h with
            | inl h => exact .item hresults hitems h
            | inr h =>
                rcases h with ⟨parsed, hparsed, h⟩
                rcases escaping_usage.mp h with ⟨hrange, h⟩
                have hgood : GoodResults protocol documents fields :=
                  ⟨results, items, parsed, hresults, hitems, parseItems_eq_ok.mp hparsed, hrange⟩
                cases h with
                | inl h => exact .usage hgood h
                | inr h =>
                    rcases h with ⟨usage, husage, h⟩
                    exact .totalTokens hgood husage h
  · -- the results are good when the usage raises
    have hafter : forall fields : List (Text × Json), GoodResults protocol documents fields ->
        (¬ (usageOf fields).IsObject ∨ exists usage, usageOf fields = .obj usage ∧
          ((field usage "total_tokens".toList).getD (.int 0)).Infinite) ->
        exists results, (exists fs, obj fields = .obj fs ∧ FindsResults protocol fs results) ∧
          Escaping (do
            let items ← results.iterate
            let parsed ← parseItems items
            if parsed.any (outOfRange documents) then
              throw (.value "Rerank 返回了无效候选索引".toList)
            let usage ← (obj fields).get "usage".toList (.obj [])
            let totalTokens ← (← usage.get "total_tokens".toList (.int 0)).toInt
            return (parsed, totalTokens)) := by
      intro fields hgood h
      rcases hgood with ⟨results, items, parsed, hresults, hitems, hparsed, hrange⟩
      refine ⟨results, ⟨fields, rfl, hresults⟩, ?_⟩
      rw [escaping_bind]
      refine .inr ⟨items, hitems, ?_⟩
      rw [escaping_bind]
      exact .inr ⟨parsed, parseItems_eq_ok.mpr hparsed, escaping_usage.mpr ⟨hrange, h⟩⟩
    intro h
    cases h with
    | body h => exact .inl (.inl h)
    | output hprotocol h => exact .inl (.inr ⟨_, rfl, hprotocol, h⟩)
    | item hresults hitems h =>
        refine .inr ⟨_, ⟨_, rfl, hresults⟩, ?_⟩
        rw [escaping_bind]
        refine .inr ⟨_, hitems, ?_⟩
        rw [escaping_bind]
        exact .inl (escaping_parseItems.mpr h)
    | usage hgood h => exact .inr (hafter _ hgood (.inl h))
    | totalTokens hgood husage h => exact .inr (hafter _ hgood (.inr ⟨_, husage, h⟩))

theorem parseBody_inRange {parsed : List RerankProvider.RerankResult} {totalTokens : Int}
    (h : parseBody protocol documents body = .ok (parsed, totalTokens)) :
    forall r, r ∈ parsed -> InRange documents r := by
  unfold parseBody at h
  rcases bind_eq_ok.mp h with ⟨results, -, h⟩
  rcases bind_eq_ok.mp h with ⟨items, -, h⟩
  rcases bind_eq_ok.mp h with ⟨found, -, h⟩
  have hrange : found.any (outOfRange documents) = false := by
    cases hany : found.any (outOfRange documents) with
    | false => rfl
    | true =>
        rw [hany] at h
        cases h
  rw [hrange] at h
  rcases bind_eq_ok.mp h with ⟨usage, -, h⟩
  rcases bind_eq_ok.mp h with ⟨value, -, h⟩
  rcases bind_eq_ok.mp h with ⟨tokens, -, h⟩
  cases h
  exact inRange_iff.mpr hrange

/-!
# The call

The result of a call is what the body is read as.
-/

/-- The call gives results for the documents, or an exception that the retrieval catches. -/
def Degrades (documents : Nat) :
    Except Exception (List RerankProvider.RerankResult) -> Prop
  | .ok results => forall r, r ∈ results -> InRange documents r
  | .error e => degrades e = true

def Calls (cfg : RerankSettings) : Prop :=
  cfg.enabled = true ∧ (configured cfg.baseUrl).isSome ∧ (configured cfg.apiKey).isSome ∧
    (configured cfg.model).isSome

def DecodesOrValueError (json : Except Exception Json) : Prop :=
  forall e, json = .error e -> exists text, e = .value text

theorem not_escaping_iff_degrades {e : Exception} :
    degrades e = true ↔ ¬ degrades e = false := by
  cases degrades e <;> decide

/-- The result of a call is what the body is read as. -/
theorem rerank_of_calls {cfg : RerankSettings} (hcalls : Calls cfg) {status : Nat}
    (hstatus : 200 ≤ status ∧ status < 300) (json : Except Exception Json) (query : Text)
    (documents : List Text) :
    (rerank cfg (fun _ => .ok ⟨status, json⟩) query documents).2 =
      (json >>= parseBody cfg.protocol documents.length).map Prod.fst := by
  rcases hcalls with ⟨henabled, hurl, hkey, hmodel⟩
  rcases Option.isSome_iff_exists.mp hurl with ⟨baseUrl, hurl⟩
  rcases Option.isSome_iff_exists.mp hkey with ⟨apiKey, hkey⟩
  rcases Option.isSome_iff_exists.mp hmodel with ⟨model, hmodel⟩
  have hsuccess : ¬ (status < 200 ∨ 300 ≤ status) := by omega
  unfold rerank
  rw [henabled, hurl, hkey, hmodel]
  dsimp only
  have hread : (do
      let response ← (.ok ⟨status, json⟩ : Except Exception Response)
      if response.status < 200 ∨ 300 ≤ response.status then
        throw (Exception.httpStatus response.status)
      let body ← response.json
      parseBody cfg.protocol documents.length body : Except Exception _) =
      json >>= parseBody cfg.protocol documents.length :=
    if_neg hsuccess
  rw [hread]
  cases json >>= parseBody cfg.protocol documents.length with
  | ok answer => rfl
  | error e => rfl

theorem degrades_of_not_calls {cfg : RerankSettings} (hcalls : ¬ Calls cfg)
    (post : Request -> Except Exception Response) (query : Text) (documents : List Text) :
    Degrades documents.length (rerank cfg post query documents).2 := by
  unfold rerank
  split
  · exact nofun
  · rename_i henabled
    split
    · rename_i baseUrl apiKey model hurl hkey hmodel
      rw [Bool.not_eq_true', Bool.not_eq_false] at henabled
      exact absurd ⟨henabled, by rw [hurl]; rfl, by rw [hkey]; rfl, by rw [hmodel]; rfl⟩ hcalls
    · rfl

theorem degrades_parseBody_iff : Degrades documents ((parseBody protocol documents body).map
    Prod.fst) ↔ ¬ Escapes protocol documents body := by
  rw [← escaping_parseBody]
  cases h : parseBody protocol documents body with
  | ok answer =>
      constructor
      · intro _
        exact not_escaping_ok _
      · intro _
        exact parseBody_inRange h
  | error e =>
      rw [escaping_error]
      exact not_escaping_iff_degrades

end

/-- Reranking degrades for a 2xx answer just when its body is none of those that escape. -/
theorem rerank_degrades_iff (cfg : RerankSettings) (query : Text) (documents : List Text)
    {status : Nat} (hstatus : 200 ≤ status ∧ status < 300) {json : Except Exception Json}
    (hjson : DecodesOrValueError json) :
    Degrades documents.length (rerank cfg (fun _ => .ok ⟨status, json⟩) query documents).2 ↔
      (Calls cfg -> forall body, json = .ok body ->
        ¬ Escapes cfg.protocol documents.length body) := by
  by_cases hcalls : Calls cfg
  · rw [rerank_of_calls hcalls hstatus]
    cases json with
    | ok body =>
        have hbody := @degrades_parseBody_iff cfg.protocol documents.length body
        constructor
        · intro h _ body' hbody'
          cases hbody'
          exact hbody.mp h
        · intro h
          exact hbody.mpr (h hcalls body rfl)
    | error e =>
        rcases hjson e rfl with ⟨text, rfl⟩
        constructor
        · intro _ _ body hbody
          cases hbody
        · intro _
          rfl
  · constructor
    · intro _ h
      exact absurd h hcalls
    · intro _
      exact degrades_of_not_calls hcalls _ query documents

/-!
# Examples

One result for one document, without usage.
-/

namespace RerankSample

def cfg : RerankSettings :=
  ⟨true, .openai, some "https://rerank.example".toList, some "key".toList,
    some "model".toList, 8⟩

def body : Json :=
  .obj [("results".toList, .arr [.obj [("index".toList, .int 0),
    ("relevance_score".toList, .float "0.5".toList)]])]

def documents : List Text :=
  ["text".toList]

theorem not_escapes_body : ¬ Escapes cfg.protocol documents.length body := by
  rw [← escaping_parseBody]
  intro h
  rcases h with ⟨e, h, -⟩
  have hparse : (match parseBody cfg.protocol documents.length body with
      | .ok _ => true
      | .error _ => false) = true := by decide +kernel
  rw [h] at hparse
  cases hparse

end RerankSample

/-- A good answer degrades to its results. -/
theorem rerank_degrades_iff_sample :
    Degrades 1 (rerank RerankSample.cfg (fun _ => .ok ⟨200, .ok RerankSample.body⟩)
      "question".toList RerankSample.documents).2 :=
  (rerank_degrades_iff RerankSample.cfg "question".toList RerankSample.documents
    (by decide : 200 ≤ 200 ∧ 200 < 300)
    (nofun : DecodesOrValueError (.ok RerankSample.body))).mpr
    fun _ _ h => by
      cases h
      exact RerankSample.not_escapes_body

/-- A body that is an empty array raises an `AttributeError`, which is not caught. -/
theorem rerank_degrades_fails : ¬ forall (cfg : RerankSettings) (query : Text)
    (documents : List Text) (status : Nat) (json : Except Exception Json),
    200 ≤ status ∧ status < 300 -> DecodesOrValueError json ->
      Degrades documents.length (rerank cfg (fun _ => .ok ⟨status, json⟩) query documents).2 := by
  intro h
  have hempty := h RerankSample.cfg "question".toList RerankSample.documents 200 (.ok (.arr []))
    (by decide) nofun
  change degrades (.other "AttributeError".toList) = true at hempty
  exact absurd hempty (by decide)

end RagService
