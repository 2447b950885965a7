import RagService.Query.Embedding

/-!
# Which text a vector belongs to

The items of an answer are sorted by their indices and then only counted, so the vectors
belong to the texts when the indices are the places of the texts, or when there are none.
-/

namespace RagService
namespace EmbeddingOrder

open Sorting EmbeddingProvider

/-- No item has an index. -/
def Unlabelled (items : List Item) : Prop :=
  forall item, item ∈ items -> item.index = none

/-- The indices are `0`, …, `n - 1`, each of them once. -/
def Labelled (n : Nat) (items : List Item) : Prop :=
  (items.map Item.index).Perm ((List.range n).map fun i : Nat => some (i : Int))

def Fitting (dimensions n : Nat) (items : List Item) : Prop :=
  items.length = n ∧ forall item, item ∈ items -> item.embedding.length = dimensions

/-- The vectors are in the places that the items tell. -/
def InPlace (n : Nat) (items : List Item) (vectors : List Embedding) : Prop :=
  (Unlabelled items ∧ vectors = items.map Item.embedding) ∨
    Labelled n items ∧ vectors.length = n ∧
      forall item (i : Nat), item ∈ items -> item.index = some (i : Int) ->
        vectors[i]? = some item.embedding

theorem readVectors_eq (dimensions : Nat) (texts : List Text) (items : List Item) :
    readVectors dimensions texts items =
      if items.length ≠ texts.length ∨
          items.any fun item => item.embedding.length ≠ dimensions then
        .error (.value "Embedding 返回向量数量或维度不匹配".toList)
      else .ok ((sortOn Item.key items).map Item.embedding) := by
  have hlength : ((sortOn Item.key items).map Item.embedding).length = items.length := by
    rw [List.length_map, (perm_sortOn Item.key items).length_eq]
  have hany : ((sortOn Item.key items).map Item.embedding).any
        (fun vector => decide (vector.length ≠ dimensions)) =
      items.any fun item => decide (item.embedding.length ≠ dimensions) := by
    rw [List.any_map]
    exact (perm_sortOn Item.key items).any_eq
  unfold readVectors
  dsimp only
  rw [hlength, hany]

theorem readVectors_ok_iff {dimensions : Nat} {texts : List Text} {items : List Item}
    {vectors : List Embedding} :
    readVectors dimensions texts items = .ok vectors ↔
      Fitting dimensions texts.length items ∧
        vectors = (sortOn Item.key items).map Item.embedding := by
  rw [readVectors_eq]
  constructor
  · intro h
    split at h
    · cases h
    · rename_i hcheck
      constructor
      · constructor
        · exact Decidable.not_not.mp fun hne => hcheck (.inl hne)
        · intro item hitem
          apply Decidable.not_not.mp
          intro hne
          exact hcheck (.inr (List.any_eq_true.mpr ⟨item, hitem, decide_eq_true hne⟩))
      · exact (Except.ok.inj h).symm
  · intro h
    rw [if_neg, h.2]
    intro hcheck
    cases hcheck with
    | inl hne => exact hne h.1.1
    | inr hany =>
        rcases List.any_eq_true.mp hany with ⟨item, hitem, hne⟩
        exact of_decide_eq_true hne (h.1.2 item hitem)

theorem sortOn_unlabelled {items : List Item} (h : Unlabelled items) :
    sortOn Item.key items = items := by
  apply sortOn_eq_self_of_const (k := 0)
  intro item hitem
  unfold Item.key
  rw [h item hitem]
  rfl

theorem getElem?_sortOn_labelled {n : Nat} {items : List Item} (h : Labelled n items) {item : Item}
    {i : Nat} (hitem : item ∈ items) (hindex : item.index = some (i : Int)) :
    (sortOn Item.key items)[i]? = some item := by
  have hkeys : (items.map Item.key).Perm ((List.range n).map fun j : Nat => (j : Int)) := by
    have hmap := h.map fun index => index.getD 0
    rw [List.map_map, List.map_map] at hmap
    exact hmap
  have hsorted : ((List.range n).map fun j : Nat => (j : Int)).Pairwise (· ≤ ·) := by
    rw [List.pairwise_map]
    exact List.pairwise_lt_range.imp fun hlt => Int.ofNat_le.mpr (Nat.le_of_lt hlt)
  have hplaces := map_sortOn_eq hkeys hsorted
  have hmem : item ∈ sortOn Item.key items := mem_sortOn.mpr hitem
  rcases List.mem_iff_getElem.mp hmem with ⟨j, hj, hget⟩
  have hkey : (((sortOn Item.key items).map Item.key)[j]?) = some item.key := by
    rw [List.getElem?_map, List.getElem?_eq_getElem hj, hget]
    rfl
  have hjn : j < n := by
    have hlength := congrArg List.length hplaces
    rw [List.length_map, List.length_map, List.length_range] at hlength
    omega
  rw [hplaces, List.getElem?_map, List.getElem?_range hjn] at hkey
  have hij : (j : Int) = i := by
    have hsome : some (j : Int) = some item.key := hkey
    unfold Item.key at hsome
    rw [hindex] at hsome
    exact Option.some.inj hsome
  have hij : j = i := by exact_mod_cast hij
  rw [← hij, List.getElem?_eq_getElem hj, hget]

theorem readVectors_inPlace_iff (dimensions : Nat) (texts : List Text) (items : List Item) :
    (forall vectors, readVectors dimensions texts items = .ok vectors ->
        InPlace texts.length items vectors) ↔
      ¬ Fitting dimensions texts.length items ∨ Unlabelled items ∨
        Labelled texts.length items := by
  constructor
  · intro h
    by_cases hfit : Fitting dimensions texts.length items
    · cases h _ (readVectors_ok_iff.mpr ⟨hfit, rfl⟩) with
      | inl hnone => exact .inr (.inl hnone.1)
      | inr hplaces => exact .inr (.inr hplaces.1)
    · exact .inl hfit
  · intro h vectors hvectors
    rcases readVectors_ok_iff.mp hvectors with ⟨hfit, hvectors⟩
    cases h with
    | inl hnot => exact absurd hfit hnot
    | inr hindices =>
        cases hindices with
        | inl hnone =>
            left
            constructor
            · exact hnone
            · rw [hvectors, sortOn_unlabelled hnone]
        | inr hplaces =>
            right
            constructor
            · exact hplaces
            · constructor
              · rw [hvectors, List.length_map, (perm_sortOn Item.key items).length_eq]
                exact hfit.1
              · intro item i hitem hindex
                rw [hvectors, List.getElem?_map, getElem?_sortOn_labelled hplaces hitem hindex]
                rfl

section

variable {cfg : EmbeddingSettings} {localEmbedding : Text -> Embedding}
variable {post : Request -> Except Exception Response} {baseUrl apiKey : Text}
variable {texts : List Text} {status : Nat} {items : List Item}

theorem embed_eq_readVectors (hbaseUrl : RerankProvider.configured cfg.baseUrl = some baseUrl)
    (hapiKey : RerankProvider.configured cfg.apiKey = some apiKey)
    (hpost : post ⟨baseUrl ++ "/embeddings".toList, payload cfg texts, apiKey⟩ =
      .ok ⟨status, .ok items⟩) (hstatus : 200 ≤ status ∧ status < 300) :
    embed cfg localEmbedding post texts = readVectors cfg.dimensions texts items := by
  have hsuccess : ¬ (status < 200 ∨ 300 ≤ status) := by omega
  unfold embed
  rw [hbaseUrl, hapiKey]
  dsimp only
  rw [hpost]
  show (do
    if status < 200 ∨ 300 ≤ status then throw (.httpStatus status)
    readVectors cfg.dimensions texts items : Except Exception (List Embedding)) = _
  rw [if_neg hsuccess]

theorem embed_shape (hlocal : forall t, (localEmbedding t).length = cfg.dimensions)
    {vectors : List Embedding} (h : embed cfg localEmbedding post texts = .ok vectors) :
    vectors.length = texts.length ∧ forall v, v ∈ vectors -> v.length = cfg.dimensions := by
  unfold embed at h
  split at h
  · rename_i baseUrl apiKey _ _
    cases hpost : post ⟨baseUrl ++ "/embeddings".toList, payload cfg texts, apiKey⟩ with
    | error e =>
        rw [hpost] at h
        cases h
    | ok response =>
        rw [hpost] at h
        rcases response with ⟨status, data⟩
        change (do
          if status < 200 ∨ 300 ≤ status then throw (.httpStatus status)
          readVectors cfg.dimensions texts (← data)) = Except.ok vectors at h
        split at h
        · cases h
        · cases data with
          | error e => cases h
          | ok items =>
              rcases readVectors_ok_iff.mp h with ⟨hfit, hvectors⟩
              rw [hvectors, List.length_map, (perm_sortOn Item.key items).length_eq]
              constructor
              · exact hfit.1
              · intro v hv
                rcases List.mem_map.mp hv with ⟨item, hitem, rfl⟩
                exact hfit.2 item (mem_sortOn.mp hitem)
  · split at h
    · rw [← Except.ok.inj h]
      constructor
      · exact List.length_map _
      · intro v hv
        rcases List.mem_map.mp hv with ⟨t, -, rfl⟩
        exact hlocal t
    · cases h

/--
Whenever the vectors of an answer are returned they are in the places that its items tell, if
and only if the answer is refused for its vectors, or has no indices, or those of the texts.
-/
theorem vectors_in_place (hbaseUrl : RerankProvider.configured cfg.baseUrl = some baseUrl)
    (hapiKey : RerankProvider.configured cfg.apiKey = some apiKey)
    (hpost : post ⟨baseUrl ++ "/embeddings".toList, payload cfg texts, apiKey⟩ =
      .ok ⟨status, .ok items⟩) (hstatus : 200 ≤ status ∧ status < 300) :
    (forall vectors, embed cfg localEmbedding post texts = .ok vectors ->
        InPlace texts.length items vectors) ↔
      ¬ Fitting cfg.dimensions texts.length items ∨ Unlabelled items ∨
        Labelled texts.length items := by
  rw [embed_eq_readVectors hbaseUrl hapiKey hpost hstatus]
  exact readVectors_inPlace_iff cfg.dimensions texts items

end

def oneDimension : EmbeddingSettings where
  baseUrl := some "http://127.0.0.1/v1".toList
  apiKey := some "key".toList
  allowLocalModelFallback := false
  model := "text-embedding-v3".toList
  dimensions := 1

def answers (items : List Item) (_ : Request) : Except Exception Response :=
  .ok ⟨200, .ok items⟩

theorem vectors_in_place_sample :
    (forall vectors, embed oneDimension (fun _ => []) (answers [⟨some 1, [2]⟩, ⟨some 0, [1]⟩])
        ["a".toList, "b".toList] = .ok vectors ->
          InPlace 2 [⟨some 1, [2]⟩, ⟨some 0, [1]⟩] vectors) ↔
      ¬ Fitting 1 2 [⟨some 1, [2]⟩, ⟨some 0, [1]⟩] ∨ Unlabelled [⟨some 1, [2]⟩, ⟨some 0, [1]⟩] ∨
        Labelled 2 [⟨some 1, [2]⟩, ⟨some 0, [1]⟩] :=
  vectors_in_place rfl rfl (rfl : answers _ ⟨_, payload oneDimension ["a".toList, "b".toList], _⟩ = _)
    (by decide)

/-- Two items with the same index are both taken. -/
theorem vectors_in_place_fails :
    ¬ forall vectors, embed oneDimension (fun _ => []) (answers [⟨some 0, [1]⟩, ⟨some 0, [2]⟩])
        ["a".toList, "b".toList] = .ok vectors ->
          InPlace 2 [⟨some 0, [1]⟩, ⟨some 0, [2]⟩] vectors := by
  intro h
  cases h [[1], [2]] (by decide) with
  | inl hnone => exact absurd (hnone.1 _ List.mem_cons_self) (by decide)
  | inr hplaces =>
      have hmem := hplaces.1.mem_iff (a := some 1)
      exact absurd (hmem.mpr (by decide)) (by decide)

end EmbeddingOrder
end RagService
