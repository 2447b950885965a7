import RagService.Foundation.Firsts
import RagService.Query.Fusion

/-!
# Reordered candidates

The candidates that a retrieval has fused are reordered by the scores of the reranker and
selected by their contexts.  No candidate is lost before the selection, the ones with a
score come first, and the sources are the first candidates of their contexts.
-/

namespace RagService
namespace Reordering

open Sorting Firsts Text QueryService

def documents (items : List MergedResult) : List Text :=
  items.map fun item => item.chunk.contextualContent

/-- The last score that is given for a place. -/
def lastScore (results : List RerankResult) (i : Nat) : Option Double :=
  ((results.filter fun r => r.index = i).getLast?).map RerankResult.score

def withScores (results : List RerankResult) (fused : List MergedResult) : List MergedResult :=
  fused.mapIdx fun i item => { item with rerank := lastScore results i }

/-- The final candidates, compared with the fused ones and the answer of the reranker. -/
structure Reordered (dense : List Ranked) (lexical : List Candidate)
    (answer : Except Exception (List RerankResult)) (fused final : List MergedResult) :
    Prop where
  candidates : (final.map MergedResult.row).Perm (unionRows dense lexical)
  unranked : (answer = .ok [] ∨ exists e, answer = .error e) -> final = fused
  scores : forall results, answer = .ok results -> results ≠ [] ->
    final.Perm (withScores results fused)
  rankedFirst : final.Pairwise fun x y => x.rerank = none -> y.rerank = none
  descending : final.Pairwise fun x y =>
    forall s t, x.rerank = some s -> y.rerank = some t -> t.le s = true
  stable : final.Pairwise fun x y => x.rerank = y.rerank ->
    [x.chunk.id, y.chunk.id].Sublist (fused.map fun item => item.chunk.id)

/-- The sources, compared with the final candidates. -/
structure Selected (cfg : RetrievalSettings) (topK : Nat) (final : List MergedResult)
    (sources : List GetSourceDetail) : Prop where
  chunks : sources.map GetSourceDetail.chunkId =
    (if cfg.parentContextEnabled then
        (firsts (fun item => contextId item.chunk) final).take topK
      else final.take topK).map fun item => item.chunk.id
  citations : sources.map GetSourceDetail.citation =
    (List.range sources.length).map fun i => "[S".toList ++ decimal (i + 1) ++ [']']
  distinct : (sources.map GetSourceDetail.citation).Nodup

/-- A retrieval from these rows goes through, and reordering and selection lose nothing else. -/
def KeepsCandidates (b : Backend) (cfg : RetrievalSettings) (db : Db) (n : Nat)
    (obj : RetrieveParam) (dense : List Ranked) (lexical : List Candidate) : Prop :=
  exists fused final sources, fuseRows b cfg dense lexical = .ok fused ∧
    rerankResults b obj.question fused = .ok final ∧
    retrieveRows b cfg db n obj dense lexical = .ok sources ∧
    Reordered dense lexical (b.rerank obj.question (documents fused)) fused final ∧
    Selected cfg obj.topK final sources

/--
What the reranker raises is caught, and no candidate has `-inf` for its score after one
without a score.
-/
structure Orderly (answer : Except Exception (List RerankResult)) : Prop where
  caught : forall e, answer = .error e -> degrades e = true
  noMinusInf : forall results, answer = .ok results -> forall i j, i < j ->
    lastScore results i = none -> lastScore results j ≠ some (.infinite true)

/-!
# Sorting by the scores

Without `nan` the candidates are sorted stably by their scores, the highest first; `-inf`
stands behind a missing score, which is seen in the results.
-/

section

variable {results : List RerankResult} {fused : List MergedResult}

def sortKey (item : MergedResult) : OrderDual (WithBot (WithTop Rat)) :=
  OrderDual.toDual item.rerankKey.place

theorem get_ofPairs_eq_lastScore (results : List RerankResult) (i : Nat) :
    (Dict.ofPairs (results.map fun r => (r.index, r.score))).get i = lastScore results i := by
  rw [Dict.get_ofPairs, List.filter_map, List.getLast?_map, Option.map_map]
  rfl

theorem exists_of_lastScore {i : Nat} {s : Double} (h : lastScore results i = some s) :
    exists r, r ∈ results ∧ r.index = i ∧ r.score = s := by
  rcases Option.map_eq_some_iff.mp h with ⟨r, hlast, hscore⟩
  have hmem := List.mem_filter.mp (List.mem_of_getLast? hlast)
  exact ⟨r, hmem.1, of_decide_eq_true hmem.2, hscore⟩

theorem mem_withScores {item : MergedResult} (h : item ∈ withScores results fused) :
    exists i, item.rerank = lastScore results i := by
  rcases List.mem_mapIdx.mp h with ⟨i, hi, rfl⟩
  exact ⟨i, rfl⟩

theorem map_withScores {β : Type} {f : MergedResult -> β}
    (hf : forall item s, f { item with rerank := s } = f item) (results : List RerankResult)
    (fused : List MergedResult) : (withScores results fused).map f = fused.map f := by
  unfold withScores
  apply List.ext_getElem
  · rw [List.length_map, List.length_map, List.length_mapIdx]
  · intro i hi hi'
    rw [List.getElem_map, List.getElem_map, List.getElem_mapIdx]
    exact hf _ _

theorem rerankKey_ne_nan (hscores : forall r, r ∈ results -> r.score ≠ .nan)
    {item : MergedResult} (hitem : item ∈ withScores results fused) : item.rerankKey ≠ .nan := by
  rcases mem_withScores hitem with ⟨i, hi⟩
  unfold MergedResult.rerankKey
  rw [hi]
  cases hlast : lastScore results i with
  | none => exact nofun
  | some s =>
      rcases exists_of_lastScore hlast with ⟨r, hr, -, rfl⟩
      exact hscores r hr

theorem applyRerank_eq (hne : results ≠ []) (hscores : forall r, r ∈ results -> r.score ≠ .nan) :
    applyRerank results fused = sortOn sortKey (withScores results fused) := by
  have hassigned : (fused.mapIdx fun i item => { item with rerank :=
      (Dict.ofPairs (results.map fun r => (r.index, r.score))).get i }) =
        withScores results fused := by
    unfold withScores
    congr 1
    funext i item
    rw [get_ofPairs_eq_lastScore]
  unfold applyRerank
  rw [if_neg (by rwa [List.isEmpty_iff])]
  dsimp only
  rw [hassigned]
  apply insertionSort_eq_sortOn
  intro x hx y hy
  exact Double.le_iff_place (rerankKey_ne_nan hscores hy) (rerankKey_ne_nan hscores hx)

theorem rankedFirst_iff (hnodup : (withScores results fused).Nodup)
    (hscores : forall r, r ∈ results -> r.score ≠ .nan) :
    (sortOn sortKey (withScores results fused)).Pairwise
        (fun x y => x.rerank = none -> y.rerank = none) ↔
      (withScores results fused).Pairwise fun x y =>
        x.rerank = none -> y.rerank ≠ some (.infinite true) := by
  have hbottom : forall item : MergedResult, (item.rerank = none ∨
      item.rerank = some (.infinite true)) -> sortKey item = OrderDual.toDual ⊥ := by
    intro item hitem
    unfold sortKey MergedResult.rerankKey
    cases hitem with
    | inl hnone =>
        rw [hnone]
        rfl
    | inr hsome =>
        rw [hsome]
        rfl
  rw [List.pairwise_iff_forall_sublist, List.pairwise_iff_forall_sublist]
  constructor
  · intro h x y hpair hx hy
    have hsorted : [x, y].Sublist (sortOn sortKey (withScores results fused)) := by
      apply sublist_sortOn _ hpair
      rw [List.pairwise_pair, hbottom x (.inl hx), hbottom y (.inr hy)]
    rw [h hsorted hx] at hy
    cases hy
  · intro h x y hsorted hx
    cases hy : y.rerank with
    | none => rfl
    | some s =>
        exfalso
        have hle := List.pairwise_iff_forall_sublist.mp (pairwise_sortOn sortKey _) hsorted
        rw [hbottom x (.inl hx)] at hle
        have hplace : y.rerankKey.place = ⊥ := le_bot_iff.mp (OrderDual.toDual_le_toDual.mp hle)
        have hmem := hsorted.subset (List.mem_cons_of_mem _ List.mem_cons_self)
        have hkey := Double.eq_of_place_eq_bot
          (rerankKey_ne_nan hscores (mem_sortOn.mp hmem)) hplace
        have hinf : y.rerank = some (.infinite true) := by
          unfold MergedResult.rerankKey at hkey
          rw [hy] at hkey ⊢
          exact congrArg some hkey
        have hkeys : sortKey x = sortKey y := by
          rw [hbottom x (.inl hx), hbottom y (.inr hinf)]
        exact h (pair_sublist_of_sortOn hnodup hkeys hsorted) hx hinf

theorem pairwise_withScores_iff (hindex : forall r, r ∈ results -> r.index < fused.length) :
    ((withScores results fused).Pairwise fun x y =>
        x.rerank = none -> y.rerank ≠ some (.infinite true)) ↔
      forall i j, i < j -> lastScore results i = none ->
        lastScore results j ≠ some (.infinite true) := by
  have hlength : (withScores results fused).length = fused.length := List.length_mapIdx
  have hrerank : forall i (hi : i < (withScores results fused).length),
      (withScores results fused)[i].rerank = lastScore results i := by
    intro i hi
    exact congrArg MergedResult.rerank List.getElem_mapIdx
  rw [List.pairwise_iff_getElem]
  constructor
  · intro h i j hlt hi hj
    rcases exists_of_lastScore hj with ⟨r, hr, rfl, -⟩
    have hbound := hindex r hr
    apply h i r.index (by omega) (by omega) hlt
    · rw [hrerank]
      exact hi
    · rw [hrerank]
      exact hj
  · intro h i j hi hj hlt hx
    rw [hrerank] at hx ⊢
    exact h i j hlt hx

theorem stable_sortOn (hnodup : (withScores results fused).Nodup) :
    (sortOn sortKey (withScores results fused)).Pairwise fun x y => x.rerank = y.rerank ->
      [x.chunk.id, y.chunk.id].Sublist (fused.map fun item => item.chunk.id) := by
  rw [List.pairwise_iff_forall_sublist]
  intro x y hsorted hsame
  have hkeys : sortKey x = sortKey y := by
    unfold sortKey MergedResult.rerankKey
    rw [hsame]
  have hpair := (pair_sublist_of_sortOn hnodup hkeys hsorted).map fun item => item.chunk.id
  rw [map_withScores (fun _ _ => rfl)] at hpair
  exact hpair

theorem descending_sortOn (hscores : forall r, r ∈ results -> r.score ≠ .nan) :
    (sortOn sortKey (withScores results fused)).Pairwise fun x y =>
      forall s t, x.rerank = some s -> y.rerank = some t -> t.le s = true := by
  rw [List.pairwise_iff_forall_sublist]
  intro x y hsorted s t hx hy
  have hle := List.pairwise_iff_forall_sublist.mp (pairwise_sortOn sortKey _) hsorted
  have hxmem := mem_sortOn.mp (hsorted.subset List.mem_cons_self)
  have hymem := mem_sortOn.mp (hsorted.subset (List.mem_cons_of_mem _ List.mem_cons_self))
  have hplaces := (Double.le_iff_place (rerankKey_ne_nan hscores hymem)
    (rerankKey_ne_nan hscores hxmem)).mpr (OrderDual.toDual_le_toDual.mp hle)
  unfold MergedResult.rerankKey at hplaces
  rw [hx, hy] at hplaces
  exact hplaces

/-!
# The answers of the reranker

Candidates without scores stay as they are, and those with scores are reordered as they should,
up to where `-inf` may stand.
-/

variable {b : Backend} {cfg : RetrievalSettings} {obj : RetrieveParam} {dense : List Ranked}
variable {lexical : List Candidate}

theorem rows_of_fused (hdense : (dense.map fun row => row.1.1.id).Nodup)
    (hlexical : (lexical.map fun row => row.1.id).Nodup)
    (hfused : fuseRows b cfg dense lexical = .ok fused) :
    (fused.map MergedResult.row).Perm (unionRows dense lexical) ∧
      (fused.map fun item => item.chunk.id).Nodup ∧
        forall item, item ∈ fused -> item.rerank = none := by
  rcases fused_of_ok hdense hlexical hfused with ⟨items, hitems, rfl⟩
  have hperm := perm_sortByScore items
  constructor
  · rw [← hitems.rows]
    exact hperm.map MergedResult.row
  · constructor
    · exact hitems.nodup_sorted hdense hlexical
    · intro item hitem
      exact hitems.rerank item (hperm.mem_iff.mp hitem)

theorem nodup_withScores (hids : (fused.map fun item => item.chunk.id).Nodup) :
    (withScores results fused).Nodup := by
  rw [← map_withScores (fun _ _ => rfl) results] at hids
  exact hids.of_map _

theorem reordered_of_unranked {answer : Except Exception (List RerankResult)}
    (hrows : (fused.map MergedResult.row).Perm (unionRows dense lexical))
    (hnone : forall item, item ∈ fused -> item.rerank = none)
    (hanswer : forall results, answer = .ok results -> results = []) :
    Reordered dense lexical answer fused fused := by
  constructor
  · exact hrows
  · exact fun _ => rfl
  · intro results hresults hne
    exact absurd (hanswer results hresults) hne
  · apply List.pairwise_of_forall_mem_list
    intro _ _ y hy _
    exact hnone y hy
  · apply List.pairwise_of_forall_mem_list
    intro x hx y _ s t hs
    rw [hnone x hx] at hs
    cases hs
  · rw [List.pairwise_iff_forall_sublist]
    intro x y hpair _
    exact hpair.map fun item => item.chunk.id

theorem reordered_of_ranked (hrows : (fused.map MergedResult.row).Perm (unionRows dense lexical))
    (hids : (fused.map fun item => item.chunk.id).Nodup) (hne : results ≠ [])
    (hresults : forall r, r ∈ results -> r.index < fused.length ∧ r.score ≠ .nan) :
    Reordered dense lexical (.ok results) fused (applyRerank results fused) ↔
      forall i j, i < j -> lastScore results i = none ->
        lastScore results j ≠ some (.infinite true) := by
  have hscores := fun r hr => (hresults r hr).2
  have hnodup : (withScores results fused).Nodup := nodup_withScores hids
  have hperm := perm_sortOn sortKey (withScores results fused)
  rw [applyRerank_eq hne hscores, ← pairwise_withScores_iff fun r hr => (hresults r hr).1,
    ← rankedFirst_iff hnodup hscores]
  constructor
  · exact fun h => h.rankedFirst
  · intro hfirst
    constructor
    · have hmap := hperm.map MergedResult.row
      rw [map_withScores (fun _ _ => rfl)] at hmap
      exact hmap.trans hrows
    · intro hanswer
      cases hanswer with
      | inl hempty => exact absurd (Except.ok.inj hempty) hne
      | inr herror =>
          rcases herror with ⟨e, herror⟩
          cases herror
    · intro results' hresults' _
      rw [← Except.ok.inj hresults']
      exact hperm
    · exact hfirst
    · exact descending_sortOn hscores
    · exact stable_sortOn hnodup

/-- What becomes of the fused candidates is in order if and only if the answer is. -/
theorem reordered_iff (hrows : (fused.map MergedResult.row).Perm (unionRows dense lexical))
    (hids : (fused.map fun item => item.chunk.id).Nodup)
    (hnone : forall item, item ∈ fused -> item.rerank = none)
    (hanswer : forall results, b.rerank obj.question (documents fused) = .ok results ->
      forall r, r ∈ results -> r.index < fused.length ∧ r.score ≠ .nan) :
    (exists final, rerankResults b obj.question fused = .ok final ∧
      Reordered dense lexical (b.rerank obj.question (documents fused)) fused final) ↔
        Orderly (b.rerank obj.question (documents fused)) := by
  have hdocuments : documents fused = fused.map fun item => item.chunk.contextualContent := rfl
  unfold rerankResults
  rw [← hdocuments]
  cases hcase : b.rerank obj.question (documents fused) with
  | error e =>
      dsimp only
      constructor
      · intro h
        rcases h with ⟨final, hfinal, -⟩
        constructor
        · intro e' he'
          rw [← Except.error.inj he']
          split at hfinal
          · assumption
          · cases hfinal
        · intro results hresults
          cases hresults
      · intro h
        rw [if_pos (h.caught e rfl)]
        exact ⟨fused, rfl, reordered_of_unranked hrows hnone nofun⟩
  | ok results =>
      dsimp only
      by_cases hne : results = []
      · constructor
        · intro _
          constructor
          · intro e he
            cases he
          · intro results' hresults' i j _ _
            rw [← Except.ok.inj hresults', hne]
            exact nofun
        · intro _
          rw [hne]
          exact ⟨fused, rfl, reordered_of_unranked hrows hnone fun _ h => (Except.ok.inj h).symm⟩
      · have hiff := reordered_of_ranked hrows hids hne (hanswer results hcase)
        constructor
        · intro h
          rcases h with ⟨final, hfinal, hreordered⟩
          rw [← Except.ok.inj hfinal] at hreordered
          constructor
          · intro e he
            cases he
          · intro results' hresults'
            rw [← Except.ok.inj hresults']
            exact hiff.mp hreordered
        · intro h
          exact ⟨_, rfl, hiff.mpr (h.noMinusInf results rfl)⟩

/-!
# Selection

The first candidates of their contexts are selected.
-/

variable {db : Db} {n : Nat} {final : List MergedResult}

theorem selectUnique_eq_collect (topK : Nat) (items : List MergedResult) (seen : List Nat)
    (kept : List MergedResult) :
    selectUnique topK kept seen items =
      collect (fun item : MergedResult => contextId item.chunk) topK kept seen items := by
  induction items generalizing kept seen with
  | nil => rfl
  | cons item rest ih =>
      rw [selectUnique, collect, ih, ih]

theorem selectContextResults_eq (cfg : RetrievalSettings) (items : List MergedResult)
    {topK : Nat} (htop : 1 ≤ topK) :
    selectContextResults cfg items topK =
      if cfg.parentContextEnabled then
        (firsts (fun item => contextId item.chunk) items).take topK
      else items.take topK := by
  unfold selectContextResults
  rw [selectUnique_eq_collect, collect_nil _ items htop]

theorem selected_of_final (htop : 1 ≤ obj.topK)
    (hfused : fuseRows b cfg dense lexical = .ok fused)
    (hfinal : rerankResults b obj.question fused = .ok final) :
    exists sources, retrieveRows b cfg db n obj dense lexical = .ok sources ∧
      Selected cfg obj.topK final sources := by
  let kept := selectContextResults cfg final obj.topK
  let parentContent := getParentContent cfg db n kept
  have hretrieve : retrieveRows b cfg db n obj dense lexical =
      .ok ((kept.zipIdx 1).map fun p => source b parentContent p.1 p.2) := by
    unfold retrieveRows
    rw [hfused]
    show (do
      let ordered ← rerankResults b obj.question fused
      let ordered := selectContextResults cfg ordered obj.topK
      let parentContent := getParentContent cfg db n ordered
      return (ordered.zipIdx 1).map fun p =>
        source b parentContent p.1 p.2 : Except Exception _) = _
    rw [hfinal]
    rfl
  have hcitations : ((kept.zipIdx 1).map fun p =>
      source b parentContent p.1 p.2).map GetSourceDetail.citation =
        (List.range kept.length).map fun i => "[S".toList ++ decimal (i + 1) ++ [']'] := by
    have hindices := List.zipIdx_map_snd 1 kept
    rw [List.range'_eq_map_range] at hindices
    have htexts := congrArg (List.map fun i => "[S".toList ++ decimal i ++ [']']) hindices
    rw [List.map_map, List.map_map] at htexts
    rw [List.map_map]
    apply htexts.trans
    apply List.map_congr_left
    intro i _
    show "[S".toList ++ decimal (1 + i) ++ [']'] = _
    rw [Nat.add_comm]
  exists (kept.zipIdx 1).map fun p => source b parentContent p.1 p.2
  constructor
  · exact hretrieve
  · constructor
    · have hitems := List.zipIdx_map_fst 1 kept
      rw [← selectContextResults_eq cfg final htop, List.map_map]
      change _ = kept.map fun item => item.chunk.id
      conv_rhs => rw [← hitems, List.map_map]
      rfl
    · rw [List.length_map, List.length_zipIdx]
      exact hcitations
    · rw [hcitations]
      apply List.nodup_range.map
      intro i j hij
      have hdigits := List.append_cancel_left (List.append_cancel_right hij)
      exact Nat.succ.inj (decimal_injective hdigits)

end

/--
No candidate is lost, and the candidates are in order and selected by their contexts, if and
only if all dense rows have distances and the answer of the reranker is in order.
-/
theorem candidates_kept (b : Backend) (cfg : RetrievalSettings) (db : Db) (n : Nat)
    (obj : RetrieveParam) (dense : List Ranked) (lexical : List Candidate)
    (hdense : (dense.map fun row => row.1.1.id).Nodup)
    (hlexical : (lexical.map fun row => row.1.id).Nodup) (htop : 1 ≤ obj.topK)
    (hanswer : forall documents results, b.rerank obj.question documents = .ok results ->
      forall r, r ∈ results -> r.index < documents.length ∧ r.score ≠ .nan) :
    KeepsCandidates b cfg db n obj dense lexical ↔
      (forall row, row ∈ dense -> row.2 ≠ none) ∧
        forall fused, fuseRows b cfg dense lexical = .ok fused ->
          Orderly (b.rerank obj.question (documents fused)) := by
  have hreordered : forall fused, fuseRows b cfg dense lexical = .ok fused ->
      ((exists final, rerankResults b obj.question fused = .ok final ∧
        Reordered dense lexical (b.rerank obj.question (documents fused)) fused final) ↔
          Orderly (b.rerank obj.question (documents fused))) := by
    intro fused hfused
    rcases rows_of_fused hdense hlexical hfused with ⟨hrows, hids, hnone⟩
    apply reordered_iff hrows hids hnone
    intro results hresults
    have hbound := hanswer _ results hresults
    unfold documents at hbound
    rw [List.length_map] at hbound
    exact hbound
  constructor
  · intro h
    rcases h with ⟨fused, final, sources, hfused, hfinal, -, hordered, -⟩
    constructor
    · rw [← exists_mergeDense_iff (b := b) []]
      cases hmerged : mergeDense b [] dense with
      | ok merged => exact ⟨merged, rfl⟩
      | error e =>
          unfold fuseRows at hfused
          rw [hmerged] at hfused
          cases hfused
    · intro fused' hfused'
      rw [hfused] at hfused'
      rw [← Except.ok.inj hfused']
      exact (hreordered fused hfused).mp ⟨final, hfinal, hordered⟩
  · intro h
    rcases (exists_mergeDense_iff []).mpr h.1 with ⟨merged, hmerged⟩
    rcases fused_of_mergeDense cfg hdense hlexical hmerged with ⟨items, -, hfused⟩
    rcases (hreordered _ hfused).mpr (h.2 _ hfused) with ⟨final, hfinal, hordered⟩
    rcases selected_of_final htop hfused hfinal with ⟨sources, hsources, hselected⟩
    exact ⟨_, final, sources, hfused, hfinal, hsources, hordered, hselected⟩

namespace RerankerSample

def chunk (id : Nat) : Chunk :=
  ⟨id, 1, 2, 0, ['a'], ['a'], ['a'], [['a']], [], 1, 1, some [1], 1, none, false, [], 0⟩

def backend (answer : Except Exception (List RerankResult)) : Backend where
  cosineDistance := fun _ _ => 0
  indexScan := fun _ _ _ _ => true
  textMatch := fun _ _ => true
  tsRankCd := fun _ _ => 0
  place := Chunk.id
  float := id
  embed := fun texts => .ok (texts.map fun _ => [1])
  rerank := fun _ texts => if texts.length = 2 then answer else .ok []

def settings : RetrievalSettings :=
  ⟨true, 30, 30, 60, 1, 1 / 2⟩

def db : Db :=
  ⟨fun _ => none, fun _ => none, fun _ => [], fun _ => none, fun _ => none⟩

def question : RetrieveParam :=
  ⟨['a'], [1], 5⟩

def dense : List Ranked :=
  [((chunk 3, ['f']), some 0), ((chunk 4, ['f']), some 0)]

end RerankerSample

open RerankerSample in
/-- The second text alone has a score, and its candidate comes first. -/
theorem candidates_kept_sample :
    KeepsCandidates (backend (.ok [⟨1, .finite (1 / 2)⟩])) settings db 5 question dense [] := by
  have hone : forall documents results,
      (backend (.ok [⟨1, .finite (1 / 2)⟩])).rerank question.question documents = .ok results ->
        forall r, r ∈ results -> documents.length = 2 ∧ r = ⟨1, .finite (1 / 2)⟩ := by
    intro documents results hresults r hr
    change (if documents.length = 2 then _ else _) = _ at hresults
    split at hresults
    · rename_i hlength
      rw [← Except.ok.inj hresults] at hr
      exact ⟨hlength, List.mem_singleton.mp hr⟩
    · rw [← Except.ok.inj hresults] at hr
      cases hr
  apply (candidates_kept _ settings db 5 question dense [] (by decide) (by decide) (by decide)
    _).mpr
  · constructor
    · decide
    · intro fused _
      constructor
      · intro e he
        change (if (documents fused).length = 2 then _ else _) = _ at he
        split at he
        · cases he
        · cases he
      · intro results hresults i j _ _ hj
        rcases exists_of_lastScore hj with ⟨r, hr, -, hscore⟩
        rw [(hone _ results hresults r hr).2] at hscore
        cases hscore
  · intro documents results hresults r hr
    rcases hone documents results hresults r hr with ⟨hlength, hr⟩
    rw [hlength, hr]
    exact ⟨by decide, nofun⟩

open RerankerSample in
/--
An `AttributeError` of the reranker is not caught; and the score `-inf` leaves a candidate
behind one without a score.
-/
theorem candidates_kept_fails :
    ¬ KeepsCandidates (backend (.error (.other "AttributeError".toList))) settings db 5 question
        dense [] ∧
      ¬ KeepsCandidates (backend (.ok [⟨1, .infinite true⟩])) settings db 5 question dense [] := by
  constructor
  · intro h
    rcases h with ⟨fused, final, sources, -, -, hsources, -, -⟩
    have hfails : (match retrieveRows (backend (.error (.other "AttributeError".toList))) settings
        db 5 question dense [] with
        | .ok _ => true
        | .error _ => false) = false := by
      decide +kernel
    rw [hsources] at hfails
    cases hfails
  · intro h
    rcases h with ⟨fused, final, sources, hfused, hfinal, -, hordered, -⟩
    have hscores : (match fuseRows (backend (.ok [⟨1, .infinite true⟩])) settings dense [] with
        | .ok fused =>
            (match rerankResults (backend (.ok [⟨1, .infinite true⟩])) question.question fused with
            | .ok final => final.map MergedResult.rerank
            | .error _ => [])
        | .error _ => []) = [none, some (.infinite true)] := by
      decide +kernel
    rw [hfused] at hscores
    dsimp only at hscores
    rw [hfinal] at hscores
    have hfirst : (final.map MergedResult.rerank).Pairwise fun s t => s = none -> t = none :=
      List.pairwise_map.mpr hordered.rankedFirst
    dsimp only at hscores
    rw [hscores, List.pairwise_pair] at hfirst
    cases hfirst rfl

end Reordering
end RagService
